import RedGreen.Time.DateTime
import RedGreen.Proofs.Number.Bounds

/-!
# Durations in seconds

The time between two points in time is measured in seconds as a number far below the greatest
duration, so figures over such numbers are durations again.
-/

namespace RedGreen

namespace Duration

/-- A duration from zero to `2 ^ k` seconds. -/
def Spans (k : Nat) (d : Duration) : Prop :=
  0 ≤ d.micros ∧ d.micros ≤ ((2 ^ k * 1000000 : Nat) : Int)

theorem Spans.toSeconds {k : Nat} {d : Duration} (spans : d.Spans k) (small : k ≤ 900) :
    d.toSeconds.AtMost k := by
  obtain ⟨least, most⟩ := spans
  have sign : decide (d.micros < 0) = false := decide_eq_false (Int.not_lt.mpr least)
  rw [Duration.toSeconds, sign]
  refine Binary64.ofRatio_atMost (by decide) small ?_
  rw [← Int.natAbs_of_nonneg least] at most
  exact Int.ofNat_le.mp most

theorem zero_le_toSeconds {d : Duration} (least : 0 ≤ d.micros) :
    Binary64.le .zero d.toSeconds = true := by
  have upper := d.upper
  have spans : d.Spans 47 := ⟨least, by omega⟩
  exact (spans.toSeconds (by decide)).zero_le

theorem micros_max (a b : Duration) : (max a b).micros = Max.max a.micros b.micros := by
  rw [max, Int.max_def]
  split <;> rfl

/-- No two points in time lie further apart than this. -/
theorem spans_since (t s : DateTime) : (max (t.since s) zero).Spans 39 := by
  have upper := t.upper
  have lower := s.lower
  have bound : ((2 ^ 39 * 1000000 : Nat) : Int) = 549755813888000000 := rfl
  rw [Spans, bound, micros_max]
  show 0 ≤ Max.max (t.micros - s.micros) 0 ∧ Max.max (t.micros - s.micros) 0 ≤ _
  omega

/-- A number of seconds is turned into a duration, which may be rounded up a little. -/
theorem ofSeconds?_of_atMost {k : Nat} {x : Binary64} (atMost : x.AtMost k) (small : k ≤ 42) :
    ∃ d, ofSeconds? x = some d ∧ d.Spans (k + 2) := by
  have million : (Binary64.ofNat 1000000).AtMost 20 :=
    Binary64.ofNat_atMost (by decide) (by decide)
  obtain ⟨behind, same, little⟩ := atMost.fraction.mul million (by decide)
  obtain ⟨m, rfl, bound⟩ := atMost
  have truncated : Binary64.truncate? (.finite false m) = some (m.floor : Int) := rfl
  have rest : ((Binary64.fraction (.finite false m)).mul (.ofNat 1000000)).units? =
      some (behind.units : Int) := by
    rw [same]
    rfl
  -- Whole seconds and the part behind the point are turned into microseconds one by one.
  have floor : m.floor ≤ 2 ^ k := Nat.div_le_of_le_mul (by rwa [Nat.mul_comm])
  have units : (m.floor : Int) * 1000000 * (Magnitude.unitsPerOne : Int) + (behind.units : Int) =
      ((m.floor * 1000000 * Magnitude.unitsPerOne + behind.units : Nat) : Int) := by
    push_cast
    rfl
  have total : roundHalfEven (m.floor * 1000000 * Magnitude.unitsPerOne + behind.units)
      Magnitude.unitsPerOne ≤ 2 ^ k * 1000000 + 2 ^ 20 := by
    refine roundHalfEven_le ?_
    rw [Nat.add_mul]
    have whole : m.floor * 1000000 ≤ 2 ^ k * 1000000 := Nat.mul_le_mul_right _ floor
    rw [Nat.zero_add] at little
    exact Nat.add_le_add (Nat.mul_le_mul_right _ whole) little
  have power : 1 ≤ 2 ^ k := Nat.one_le_two_pow
  have powers : 2 ^ k ≤ 2 ^ 42 := Nat.pow_le_pow_right (by decide) small
  rw [ofSeconds?, truncated, rest]
  dsimp only
  rw [units]
  show ∃ d, ofMicros? ((roundHalfEven _ _ : Nat) : Int) = some d ∧ _
  -- From here on only the bound on the rounded number matters.
  generalize roundHalfEven _ _ = micros at total
  have next : 2 ^ (k + 2) = 2 ^ k * 4 := Nat.pow_add 2 k 2
  have range : -86399999913600000000 ≤ (micros : Int) ∧ (micros : Int) ≤ 86399999999999999999 := by
    omega
  refine ⟨⟨micros, range.1, range.2⟩, by rw [ofMicros?, dif_pos range], Int.natCast_nonneg _, ?_⟩
  rw [next]
  show (micros : Int) ≤ _
  omega

end Duration

end RedGreen
