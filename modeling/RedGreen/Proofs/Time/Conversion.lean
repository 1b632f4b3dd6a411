import RedGreen.Proofs.Number.Monotone
import RedGreen.Proofs.Time.Seconds

/-!
# Seconds and microseconds

Turning numbers of seconds into durations keeps the order, and so does the way back.  A duration
that came from a number is found again from its own number of seconds: below `2 ^ 33` seconds a
microsecond is wider than the gaps between the numbers, and above it the gaps are wider.
-/

namespace RedGreen

namespace Magnitude

/-- A ratio with 53 significant bits is not rounded at all. -/
theorem ofRatio?_of_exact {num den significand e k : Nat} (pos : 0 < den) (range : k ≤ 900)
    (le : num ≤ 2 ^ k * den) (small : significand < 2 ^ 53)
    (value : num * unitsPerOne = significand * 2 ^ e * den) :
    ∃ m, ofRatio? num den = some m ∧ m.units = significand * 2 ^ e := by
  obtain ⟨m, made, _⟩ := ofRatio?_le pos range le
  exact ⟨m, made, by rw [units_of_ofRatio? made, value, rounded_exact small pos]⟩

theorem ofRatio?_whole {n : Nat} (small : n < 2 ^ 53) :
    ∃ m, ofRatio? n 1 = some m ∧ m.units = n * unitsPerOne := by
  obtain ⟨e, _, one⟩ := unitsPerOne_eq
  rw [one]
  refine ofRatio?_of_exact (k := 53) Nat.one_pos (by decide) (by omega) small ?_
  rw [one, Nat.mul_one]

/-- The part behind the point has no more significant bits than the whole number. -/
theorem units_mod_one (m : Magnitude) :
    ∃ significand e, significand < 2 ^ 53 ∧ m.units % unitsPerOne = significand * 2 ^ e := by
  obtain ⟨e, _, one⟩ := unitsPerOne_eq
  rcases Nat.lt_or_ge m.scale e with fine | coarse
  · have split : unitsPerOne = 2 ^ (e - m.scale) * 2 ^ m.scale := by
      rw [one, ← Nat.pow_add, Nat.sub_add_cancel (Nat.le_of_lt fine)]
    refine ⟨m.significand % 2 ^ (e - m.scale), m.scale,
      Nat.lt_of_le_of_lt (Nat.mod_le _ _) m.significand_lt, ?_⟩
    rw [split, units]
    exact Nat.mul_mod_mul_right _ _ _
  · -- Nothing stands behind the point of a multiple of one.
    have whole : m.units % unitsPerOne = 0 := by
      rw [one, units]
      exact Nat.mod_eq_zero_of_dvd ((Nat.pow_dvd_pow 2 coarse).mul_left _)
    exact ⟨0, 0, by decide, by rw [whole, Nat.zero_mul]⟩

/-- What is not below a power of two has a scale to match. -/
theorem lt_scale_of_two_pow_le {m : Magnitude} {k : Nat} (large : 2 ^ k ≤ m.units) :
    k < 53 + m.scale :=
  (Nat.pow_lt_pow_iff_right (by decide)).mp (Nat.lt_of_le_of_lt large m.units_lt_of_scale)

end Magnitude

namespace Duration

open Magnitude (unitsPerOne unitsPerOne_pos rounded rounded_exact rounded_mono rounded_near)

/-! ## From seconds -/

/-- Microseconds in least units, before they are rounded to whole ones: the part behind the point
is scaled as a number, the whole seconds are not. -/
def scaled (u : Nat) : Nat :=
  u / unitsPerOne * 1000000 * unitsPerOne + rounded (u % unitsPerOne * 1000000) 1

/-- The whole microseconds of a number of seconds that is counted in least units. -/
def microsOf (u : Nat) : Nat := roundHalfEven (scaled u) unitsPerOne

theorem fraction_mul_million (m : Magnitude) :
    ∃ behind : Magnitude, (Binary64.fraction (.finite false m)).mul (.ofNat 1000000) =
      .finite false behind ∧ behind.units = rounded (m.units % unitsPerOne * 1000000) 1 := by
  obtain ⟨significand, e, small, value⟩ := m.units_mod_one
  have below := Nat.mod_lt m.units unitsPerOne_pos
  obtain ⟨part, parted, partUnits⟩ := Magnitude.ofRatio?_of_exact (k := 0) unitsPerOne_pos
    (by decide) (by omega) small (congrArg (· * unitsPerOne) value)
  obtain ⟨million, made, millionUnits⟩ := Magnitude.ofRatio?_whole (n := 1000000) (by decide)
  rw [← value] at partUnits
  have fraction : Binary64.fraction (.finite false m) = .finite false part := by
    rw [Binary64.fraction, Binary64.ofRatio, parted, Option.elim_some]
  have factor : Binary64.ofNat 1000000 = .finite false million := by
    rw [Binary64.ofNat, Binary64.ofRatio, made, Option.elim_some]
  have square : 0 < unitsPerOne * unitsPerOne := Nat.mul_pos unitsPerOne_pos unitsPerOne_pos
  have range : part.units * million.units ≤ 2 ^ 20 * (unitsPerOne * unitsPerOne) := by
    rw [partUnits, millionUnits]
    calc m.units % unitsPerOne * (1000000 * unitsPerOne)
        ≤ unitsPerOne * (2 ^ 20 * unitsPerOne) :=
          Nat.mul_le_mul (Nat.le_of_lt below) (Nat.mul_le_mul_right _ (by decide))
      _ = 2 ^ 20 * (unitsPerOne * unitsPerOne) := by ring
  obtain ⟨behind, product, _⟩ := Magnitude.ofRatio?_le square (by decide) range
  refine ⟨behind, ?_, ?_⟩
  · rw [fraction, factor, Binary64.mul, Binary64.ofRatio, product]
    rfl
  · have units : part.units * million.units * unitsPerOne =
        m.units % unitsPerOne * 1000000 * (unitsPerOne * unitsPerOne) := by
      rw [partUnits, millionUnits]
      ring
    rw [Magnitude.units_of_ofRatio? product, units]
    have cancel := @Magnitude.rounded_mul_right (m.units % unitsPerOne * 1000000) 1 _ square
    rwa [Nat.one_mul] at cancel

theorem ofSeconds?_finite (m : Magnitude) :
    ofSeconds? (.finite false m) = ofMicros? (microsOf m.units) := by
  obtain ⟨behind, product, units⟩ := fraction_mul_million m
  have truncated : Binary64.truncate? (.finite false m) = some (m.floor : Int) := rfl
  have rest : ((Binary64.fraction (.finite false m)).mul (.ofNat 1000000)).units? =
      some (behind.units : Int) := by
    rw [product]
    rfl
  have total : (m.floor : Int) * 1000000 * (unitsPerOne : Int) + (behind.units : Int) =
      ((scaled m.units : Nat) : Int) := by
    rw [scaled, units]
    push_cast
    rfl
  rw [ofSeconds?, truncated, rest]
  dsimp only
  rw [total]
  rfl

/-- The part behind the point is less than a second, also when it is rounded up. -/
theorem behind_le (u : Nat) : rounded (u % unitsPerOne * 1000000) 1 ≤ 1000000 * unitsPerOne := by
  obtain ⟨e, _, one⟩ := Magnitude.unitsPerOne_eq
  have below := Nat.mod_lt u unitsPerOne_pos
  have exact : rounded (1000000 * 2 ^ e * 1) 1 = 1000000 * 2 ^ e :=
    rounded_exact (by decide) Nat.one_pos
  calc rounded (u % unitsPerOne * 1000000) 1
      ≤ rounded (1000000 * 2 ^ e * 1) 1 := rounded_mono Nat.one_pos Nat.one_pos (by omega)
    _ = 1000000 * unitsPerOne := by rw [exact, one]

theorem scaled_le (u : Nat) : scaled u ≤ (u / unitsPerOne + 1) * 1000000 * unitsPerOne := by
  have behind := behind_le u
  rw [scaled, Nat.add_mul, Nat.add_mul, Nat.one_mul]
  omega

theorem le_scaled (u : Nat) : u / unitsPerOne * 1000000 * unitsPerOne ≤ scaled u :=
  Nat.le_add_right _ _

theorem scaled_mono {u v : Nat} (le : u ≤ v) : scaled u ≤ scaled v := by
  have split := Nat.div_add_mod' u unitsPerOne
  have split' := Nat.div_add_mod' v unitsPerOne
  rcases Nat.lt_or_eq_of_le (Nat.div_le_div_right le) with earlier | same
  · calc scaled u ≤ (u / unitsPerOne + 1) * 1000000 * unitsPerOne := scaled_le u
      _ ≤ v / unitsPerOne * 1000000 * unitsPerOne :=
          Nat.mul_le_mul_right _ (Nat.mul_le_mul_right _ earlier)
      _ ≤ scaled v := le_scaled v
  · rw [scaled, scaled, same]
    rw [same] at split
    exact Nat.add_le_add_left (rounded_mono Nat.one_pos Nat.one_pos (by omega)) _

theorem microsOf_mono {u v : Nat} (le : u ≤ v) : microsOf u ≤ microsOf v :=
  roundHalfEven_mono_left (scaled_mono le)

theorem microsOf_le (u : Nat) : microsOf u ≤ (u / unitsPerOne + 1) * 1000000 :=
  roundHalfEven_le (scaled_le u)

theorem micros_of_ofMicros? {micros : Int} {d : Duration} (made : ofMicros? micros = some d) :
    d.micros = micros := by
  unfold ofMicros? at made
  split at made
  next =>
    cases made
    rfl
  next => cases made

theorem ofMicros?_natCast {n : Nat} {most : Duration} (le : (n : Int) ≤ most.micros) :
    ∃ d, ofMicros? n = some d ∧ d.micros = n := by
  have upper := most.upper
  have range : -86399999913600000000 ≤ (n : Int) ∧ (n : Int) ≤ 86399999999999999999 := by omega
  exact ⟨⟨n, range.1, range.2⟩, dif_pos range, rfl⟩

section

variable {m n : Magnitude} {a b d : Duration}

theorem micros_of_ofSeconds? (made : ofSeconds? (.finite false m) = some d) :
    d.micros = microsOf m.units := by
  rw [ofSeconds?_finite] at made
  exact micros_of_ofMicros? made

/-- Fewer seconds are a shorter duration, and one that can be represented if the longer can. -/
theorem ofSeconds?_mono (le : m.units ≤ n.units) (made : ofSeconds? (.finite false n) = some b) :
    ∃ a, ofSeconds? (.finite false m) = some a ∧ a.micros ≤ b.micros := by
  have micros := micros_of_ofSeconds? made
  have shorter := microsOf_mono le
  obtain ⟨a, short, same⟩ := @ofMicros?_natCast (microsOf m.units) b (by omega)
  exact ⟨a, by rw [ofSeconds?_finite, short], by omega⟩

/-! ## Back to seconds -/

/-- Of the length of a duration in seconds, only the sign depends on where it runs. -/
theorem exists_toSeconds (d : Duration) :
    ∃ m, d.toSeconds = .finite (decide (d.micros < 0)) m ∧
      Magnitude.ofRatio? d.micros.natAbs 1000000 = some m ∧
      m.units = rounded (d.micros.natAbs * unitsPerOne) 1000000 := by
  have lower := d.lower
  have upper := d.upper
  obtain ⟨m, made, _⟩ := @Magnitude.ofRatio?_le d.micros.natAbs 1000000 47 (by decide) (by decide)
    (by omega)
  refine ⟨m, ?_, made, Magnitude.units_of_ofRatio? made⟩
  rw [toSeconds, Binary64.ofRatio, made, Option.elim_some]

theorem toSeconds_eq (least : 0 ≤ d.micros) : ∃ m, d.toSeconds = .finite false m ∧
    Magnitude.ofRatio? d.micros.natAbs 1000000 = some m ∧
    m.units = rounded (d.micros.natAbs * unitsPerOne) 1000000 := by
  have sign : decide (d.micros < 0) = false := decide_eq_false (Int.not_lt.mpr least)
  have measured := d.exists_toSeconds
  rwa [sign] at measured

/-- A shorter duration has no more seconds. -/
theorem toSeconds_mono (least : 0 ≤ a.micros) (le : a.micros ≤ b.micros)
    (first : a.toSeconds = .finite false m) (second : b.toSeconds = .finite false n) :
    m.units ≤ n.units := by
  obtain ⟨m', same, _, units⟩ := toSeconds_eq least
  obtain ⟨n', same', _, units'⟩ := toSeconds_eq (least.trans le)
  rw [first] at same
  rw [second] at same'
  cases same
  cases same'
  rw [units, units']
  refine rounded_mono (by decide) (by decide) ?_
  exact Nat.mul_le_mul_right _ (Nat.mul_le_mul_right _ (by omega))

end

/-! ## There and back -/

/-- The exponent is kept out of sight; a unit is small against the gaps below `2 ^ 33`. -/
theorem unitsPerOne_fine : ∃ e, unitsPerOne = 2 ^ (33 + e) := ⟨1041, by decide +kernel⟩

/-- Scaling the part behind the point loses less than a millionth of a microsecond. -/
theorem scaled_near {e : Nat} (one : unitsPerOne = 2 ^ (33 + e)) (u : Nat) :
    2 * (u * 1000000) ≤ 2 * scaled u + 2 ^ e ∧ 2 * scaled u ≤ 2 * (u * 1000000) + 2 ^ e := by
  have below := Nat.mod_lt u unitsPerOne_pos
  have split := Nat.div_add_mod' u unitsPerOne
  have bits : u % unitsPerOne * 1000000 ≤ 2 ^ (53 + e) * 1 := by
    calc u % unitsPerOne * 1000000 ≤ 2 ^ (33 + e) * 2 ^ 20 := by
          rw [← one]
          exact Nat.mul_le_mul (Nat.le_of_lt below) (by decide)
      _ = 2 ^ (53 + e) * 1 := by ring
  have near := rounded_near Nat.one_pos bits
  have product : u * 1000000 =
      u / unitsPerOne * 1000000 * unitsPerOne + u % unitsPerOne * 1000000 := by
    conv_lhs => rw [← split]
    ring
  rw [scaled, product]
  omega

/-- Below `2 ^ 33` seconds every microsecond has a number of its own. -/
theorem microsOf_rounded {n : Nat} (small : n ≤ 2 ^ 33 * 1000000) :
    microsOf (rounded (n * unitsPerOne) 1000000) = n := by
  obtain ⟨e, one⟩ := unitsPerOne_fine
  have million : 0 < 1000000 := by decide
  have bits : n * unitsPerOne ≤ 2 ^ (53 + (13 + e)) * 1000000 := by
    calc n * unitsPerOne ≤ 2 ^ 33 * 1000000 * 2 ^ (33 + e) := by
          rw [one]
          exact Nat.mul_le_mul_right _ small
      _ = 2 ^ (53 + (13 + e)) * 1000000 := by ring
  have near := rounded_near million bits
  generalize rounded (n * unitsPerOne) 1000000 = u at near
  have fine := scaled_near one u
  have step : 2 ^ (13 + e) = 8192 * 2 ^ e := by ring
  have whole : unitsPerOne = 8589934592 * 2 ^ e := by
    rw [one]
    ring
  have positive := Nat.two_pow_pos e
  refine roundHalfEven_eq unitsPerOne_pos ?_ ?_ (.inr ⟨?_, ?_⟩) <;> omega

/-- Up to `2 ^ 33` seconds a duration comes back from its own seconds, to the microsecond. -/
theorem ofSeconds?_toSeconds_of_le {d : Duration} (least : 0 ≤ d.micros)
    (most : d.micros ≤ 2 ^ 33 * 1000000) : ofSeconds? d.toSeconds = some d := by
  obtain ⟨m, seconds, _, units⟩ := toSeconds_eq least
  have small : d.micros.natAbs ≤ 2 ^ 33 * 1000000 := by omega
  rw [seconds, ofSeconds?_finite, units, microsOf_rounded small, Int.natAbs_of_nonneg least,
    ofMicros?, dif_pos ⟨d.lower, d.upper⟩]

/-- From there on not every microsecond has a number of its own. -/
example : ofSeconds? (toSeconds ⟨8589934592000001, by decide, by decide⟩) =
    some ⟨8589934592000002, by decide, by decide⟩ := by
  decide +kernel

/-- One microsecond. -/
def tick : Duration := ⟨1, by decide, by decide⟩

/-- No duration but zero is so short that its seconds are those of zero. -/
theorem ofSeconds?_toSeconds_eq_zero_iff {d : Duration} (least : 0 ≤ d.micros) :
    ofSeconds? d.toSeconds = some zero ↔ d = zero := by
  constructor
  · intro lost
    refine Duration.ext (Int.le_antisymm (Int.not_lt.mp fun positive => ?_) least)
    -- A microsecond is not lost, and no positive duration has fewer seconds.
    have kept : ofSeconds? tick.toSeconds = some tick :=
      ofSeconds?_toSeconds_of_le (by decide) (by decide)
    obtain ⟨m, few, _⟩ := @toSeconds_eq tick (by decide)
    obtain ⟨n, many, _⟩ := toSeconds_eq least
    have shorter : tick.micros ≤ d.micros := positive
    rw [many] at lost
    obtain ⟨a, same, micros⟩ := ofSeconds?_mono (toSeconds_mono (by decide) shorter few many) lost
    rw [few, same] at kept
    cases kept
    exact absurd micros (by decide)
  · rintro rfl
    exact ofSeconds?_toSeconds_of_le (by decide) (by decide)

/-- Whole seconds are scaled without rounding. -/
theorem microsOf_whole {u : Nat} (whole : u % unitsPerOne = 0) :
    microsOf u * unitsPerOne = u * 1000000 := by
  have split := Nat.div_add_mod' u unitsPerOne
  have zero : rounded (0 * 2 ^ 0 * 1) 1 = 0 * 2 ^ 0 := rounded_exact (by decide) Nat.one_pos
  have exact : scaled u = u / unitsPerOne * 1000000 * unitsPerOne := by
    rw [scaled, whole, Nat.zero_mul]
    rw [Nat.zero_mul, Nat.zero_mul] at zero
    rw [zero, Nat.add_zero]
  rw [whole, Nat.add_zero] at split
  rw [microsOf, exact, roundHalfEven_mul _ unitsPerOne_pos, Nat.mul_right_comm, split]

/-- From `2 ^ 33` seconds on every number has a microsecond of its own. -/
theorem attracts_microsOf {m : Magnitude} (large : 2 ^ 33 * unitsPerOne ≤ m.units) :
    m.Attracts (microsOf m.units * unitsPerOne) 1000000 := by
  obtain ⟨e, one⟩ := unitsPerOne_fine
  by_cases whole : m.units % unitsPerOne = 0
  · rw [microsOf_whole whole]
    exact m.attracts_units (by decide)
  have coarse : 14 + e ≤ m.scale := by
    rw [one, ← Nat.pow_add] at large
    have exponent := Magnitude.lt_scale_of_two_pow_le large
    omega
  -- A power of two of this size is whole, so the gaps on both sides are the same.
  have between : m.significand ≠ twoTo 52 := by
    intro power
    apply whole
    rw [Magnitude.units, power, one]
    show 2 ^ 52 * 2 ^ m.scale % 2 ^ (33 + e) = 0
    rw [← Nat.pow_add]
    exact Nat.mod_eq_zero_of_dvd (Nat.pow_dvd_pow 2 (by omega))
  have gap : 16384 * 2 ^ e ≤ 2 ^ m.scale := by
    calc 16384 * 2 ^ e = 2 ^ (14 + e) := by ring
      _ ≤ 2 ^ m.scale := Nat.pow_le_pow_right (by decide) coarse
  have value : m.significand * (1000000 * twoTo m.scale) = m.units * 1000000 := by
    rw [Magnitude.units]
    ring
  have fine := scaled_near one m.units
  have bounds := @roundHalfEven_bounds (scaled m.units) _ unitsPerOne_pos
  have positive := Nat.two_pow_pos e
  have micros : microsOf m.units * unitsPerOne =
      roundHalfEven (scaled m.units) unitsPerOne * unitsPerOne := rfl
  have narrow : unitsPerOne = 8589934592 * 2 ^ e := by
    rw [one]
    ring
  have step : twoTo m.scale = 2 ^ m.scale := rfl
  rw [← micros] at bounds
  generalize microsOf m.units * unitsPerOne = num at bounds
  exact ⟨by omega, by omega, .inr (by omega), fun power => absurd power between⟩

/-- A duration that came from a number of seconds comes back from its own seconds. -/
theorem ofSeconds?_toSeconds {m : Magnitude} {d : Duration}
    (made : ofSeconds? (.finite false m) = some d) : ofSeconds? d.toSeconds = some d := by
  have micros := micros_of_ofSeconds? made
  rcases Nat.lt_or_ge m.units (2 ^ 33 * unitsPerOne) with small | large
  · have quotient : m.units / unitsPerOne < 2 ^ 33 :=
      (Nat.div_lt_iff_lt_mul unitsPerOne_pos).mpr small
    have bound : microsOf m.units ≤ 2 ^ 33 * 1000000 :=
      (microsOf_le m.units).trans (Nat.mul_le_mul_right _ quotient)
    exact ofSeconds?_toSeconds_of_le (by omega) (by omega)
  · obtain ⟨n, seconds, ratio, _⟩ := @toSeconds_eq d (by omega)
    have natural : d.micros.natAbs = microsOf m.units := by omega
    have same : Magnitude.ofRatio? (microsOf m.units) 1000000 = some m :=
      (attracts_microsOf large).ofParts? (by decide)
    rw [natural, same] at ratio
    cases ratio
    rw [seconds, made]

/-! ## The longest duration -/

/-- The seconds of a thousand million days, which no duration has. -/
def limit : Nat := 86400000000000

/-- A duration of some number of seconds that has no minus sign. -/
def IsMeasured (d : Duration) : Prop := ∃ m, ofSeconds? (.finite false m) = some d

section

variable {x : Binary64} {d : Duration}

theorem IsMeasured.least (measured : d.IsMeasured) : 0 ≤ d.micros := by
  obtain ⟨m, made⟩ := measured
  rw [micros_of_ofSeconds? made]
  exact Int.natCast_nonneg _

/-- The zero with a minus sign is as long as the other one. -/
theorem ofSeconds?_negative_zero :
    ofSeconds? (.finite true .zero) = ofSeconds? (.finite false .zero) := by
  decide +kernel

theorem isMeasured_of_ofSeconds? (nonneg : Binary64.le .zero x = true)
    (made : ofSeconds? x = some d) : d.IsMeasured := by
  obtain ⟨m, rfl⟩ | rfl | rfl := Binary64.nonneg_cases nonneg
  · exact ⟨m, made⟩
  · rw [ofSeconds?_negative_zero] at made
    exact ⟨.zero, made⟩
  · cases made

end

end Duration

end RedGreen
