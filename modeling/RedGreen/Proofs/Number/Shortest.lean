import RedGreen.Proofs.Number.Rounding
import Mathlib.Data.Rat.Cast.Order
import Mathlib.Algebra.Order.Field.Basic
import Mathlib.Tactic.FieldSimp
import Mathlib.Tactic.Positivity
import Mathlib.Tactic.NormNum

/-!
# The shortest decimal lies in the interval

The search for a shortest decimal accepts only what lies in the interval of the magnitude, and
seventeen digits always lie there: the nearest decimal of that many digits is off by less than
half a gap.  So the decimal that the search returns rounds to the magnitude.
-/

namespace RedGreen

namespace Decimal

/-! ## Powers -/

theorem tenTo_succ (k : Nat) : tenTo (k + 1) = tenTo k * 10 := rfl

theorem twoTo_pos (k : Nat) : 0 < twoTo k := Nat.two_pow_pos k

theorem tenTo_pos (k : Nat) : 0 < tenTo k := Nat.pow_pos (by decide)

theorem twoTo_le {j k : Nat} (le : j ≤ k) : twoTo j ≤ twoTo k :=
  Nat.pow_le_pow_right (by decide) le

theorem tenTo_le {j k : Nat} (le : j ≤ k) : tenTo j ≤ tenTo k :=
  Nat.pow_le_pow_right (by decide) le

theorem tenTo_zero : tenTo 0 = 1 := rfl

theorem unitsPerOne_le : Magnitude.unitsPerOne ≤ tenTo 400 := by decide +kernel

theorem greatest_le : twoTo 53 * twoTo 2045 ≤ Magnitude.unitsPerOne * tenTo 399 := by
  decide +kernel

/-- No magnitude reaches the four-hundredth power of ten. -/
theorem units_lt (m : Magnitude) : m.units < Magnitude.unitsPerOne * tenTo 399 := by
  have scale := twoTo_le m.scale_le
  refine Nat.lt_of_lt_of_le ?_ greatest_le
  exact Nat.mul_lt_mul_of_lt_of_le m.significand_lt scale (twoTo_pos _)

/-! ## The grid of a magnitude -/

/-- The tens that `num` takes to reach `den`. -/
theorem tensBelow_spec {num den : Nat} (fuel : Nat) (enough : den ≤ num * tenTo fuel) :
    den ≤ num * tenTo (tensBelow num den fuel) ∧
      (tensBelow num den fuel = 0 ∨ num * tenTo (tensBelow num den fuel) < 10 * den) := by
  induction fuel generalizing num with
  | zero => exact ⟨enough, .inl rfl⟩
  | succ fuel ih =>
    -- One round of the loop moves one ten over to `num`.
    have shifted : ∀ k, num * tenTo (k + 1) = num * 10 * tenTo k := fun k => by
      rw [tenTo_succ]
      ring
    rw [tensBelow]
    split
    next small =>
      obtain ⟨lower, upper⟩ := ih (show den ≤ num * 10 * tenTo fuel by rwa [← shifted])
      rw [shifted]
      refine ⟨lower, .inr ?_⟩
      rcases upper with none | upper
      · rw [none]
        show num * 10 * 1 < 10 * den
        omega
      · exact upper
    next large =>
      refine ⟨?_, .inl rfl⟩
      show den ≤ num * 1
      omega

/-- The tens that `den` takes without exceeding `num`. -/
theorem tensAbove_spec {num den : Nat} (fuel : Nat) (enough : num < den * tenTo (fuel + 1)) :
    num < den * tenTo (tensAbove num den fuel + 1) ∧
      (tensAbove num den fuel = 0 ∨ den * tenTo (tensAbove num den fuel) ≤ num) := by
  induction fuel generalizing den with
  | zero => exact ⟨enough, .inl rfl⟩
  | succ fuel ih =>
    -- One round of the loop moves one ten over to `den`.
    have shifted : ∀ k, den * tenTo (k + 1) = den * 10 * tenTo k := fun k => by
      rw [tenTo_succ]
      ring
    rw [tensAbove]
    split
    next small =>
      obtain ⟨upper, lower⟩ := ih (show num < den * 10 * tenTo (fuel + 1) by rwa [← shifted])
      rw [shifted, shifted]
      refine ⟨upper, .inr ?_⟩
      rcases lower with none | lower
      · rw [none]
        show den * 10 * 1 ≤ num
        omega
      · exact lower
    next large =>
      refine ⟨?_, .inl rfl⟩
      show num < den * (1 * 10)
      omega

theorem tensBelow_of_le {num den : Nat} (le : den ≤ num) (fuel : Nat) :
    tensBelow num den fuel = 0 := by
  cases fuel with
  | zero => rfl
  | succ fuel => rw [tensBelow, if_neg (Nat.not_lt.mpr le)]

theorem tensBelow_le (num den fuel : Nat) : tensBelow num den fuel ≤ fuel := by
  induction fuel generalizing num with
  | zero => exact Nat.le_refl 0
  | succ fuel ih =>
    rw [tensBelow]
    split
    · exact Nat.succ_le_succ (ih _)
    · exact Nat.zero_le _

/-- What the grid of a magnitude is good for: one digit stands before the point, and the exponent
stays within the range in which decimals are read exactly. -/
structure Grid.Scaled (g : Grid) : Prop where
  pos : 0 < g.den
  one_le : g.den ≤ g.num
  lt_ten : g.num < 10 * g.den
  exponent_ge : -400 ≤ g.exponent
  exponent_lt : g.exponent < 399

theorem Grid.of_scaled {m : Magnitude} (nonzero : 0 < m.units) : (Grid.of m).Scaled := by
  have unit := Magnitude.unitsPerOne_pos
  have limit := units_lt m
  have reach : Magnitude.unitsPerOne ≤ m.units * tenTo 400 :=
    unitsPerOne_le.trans (Nat.le_mul_of_pos_left _ nonzero)
  have fuel : m.units < Magnitude.unitsPerOne * tenTo (400 + 1) :=
    limit.trans_le (Nat.mul_le_mul_left _ (tenTo_le (by decide)))
  rw [Grid.of]
  -- The numbers are huge; under names of their own nothing is tempted to compute them.
  generalize Magnitude.unitsPerOne = one at *
  generalize m.units = units at *
  have none_below : one ≤ units → tensBelow units one 400 = 0 := fun le => tensBelow_of_le le 400
  obtain ⟨below, below'⟩ := tensBelow_spec 400 reach
  obtain ⟨above, above'⟩ := tensAbove_spec 400 fuel
  have fits := tensBelow_le units one 400
  generalize tensBelow units one 400 = down at *
  generalize tensAbove units one 400 = up at *
  clear reach fuel
  -- More tens above would take the magnitude past its limit.
  have up_lt : up < 399 := by
    by_contra many
    have more := Nat.mul_le_mul_left one (tenTo_le (Nat.not_lt.mp many))
    rcases above' with none | above'
    · omega
    · omega
  clear limit
  rw [tenTo_succ, ← Nat.mul_assoc] at above
  -- Tens are taken on one side only: a magnitude below one takes none above, and conversely.
  by_cases small : units < one
  · have none : up = 0 := by
      refine above'.resolve_right fun large => ?_
      have := Nat.le_mul_of_pos_right one (tenTo_pos up)
      omega
    subst none
    have lt_ten : units * tenTo down < 10 * one := by
      rcases below' with none | below'
      · rw [none, tenTo_zero]
        omega
      · exact below'
    refine ⟨?_, ?_, ?_, ?_, ?_⟩ <;> simp only [tenTo_zero, Nat.mul_one] <;> omega
  · have none := none_below (Nat.not_lt.mp small)
    subst none
    have one_le : one * tenTo up ≤ units := by
      rcases above' with none | above'
      · rw [none, tenTo_zero]
        omega
      · exact above'
    have pos := Nat.mul_pos unit (tenTo_pos up)
    refine ⟨?_, ?_, ?_, ?_, ?_⟩ <;> simp only [tenTo_zero, Nat.mul_one] <;> omega

theorem Grid.num_of (m : Magnitude) : (Grid.of m).num = m.units * tenTo (Grid.of m).down := by
  rw [Grid.of]

/-! ## Candidates -/

/-- `d`, read with one digit before the point and `count - 1` behind it, lies in the interval. -/
def Grid.Inside (g : Grid) (i : Magnitude.Interval) (count d : Nat) : Prop :=
  i.contains (4 * d * g.den) (tenTo g.down * tenTo (count - 1)) = true

theorem Grid.candidate?_inside {g : Grid} {i : Magnitude.Interval} {count d : Nat}
    (found : g.candidate? i count = some d) : g.Inside i count d := by
  unfold Grid.candidate? at found
  dsimp only at found
  split_ifs at found with near low next
  · cases found
    exact near
  · cases found
    exact low
  · cases found
    exact next

theorem roundHalfEven_near (num den : Nat) :
    roundHalfEven num den = num / den ∨ roundHalfEven num den = num / den + 1 := by
  unfold roundHalfEven
  dsimp only
  split_ifs <;> simp

theorem Grid.candidate?_range {g : Grid} (scaled : g.Scaled) {i : Magnitude.Interval}
    {count d : Nat} (found : g.candidate? i count = some d) :
    tenTo (count - 1) ≤ d ∧ d ≤ tenTo (count - 1) * 10 := by
  have least : tenTo (count - 1) ≤ g.num * tenTo (count - 1) / g.den :=
    (Nat.le_div_iff_mul_le scaled.pos).mpr
      (by rw [Nat.mul_comm]; exact Nat.mul_le_mul_right _ scaled.one_le)
  have most : g.num * tenTo (count - 1) / g.den < tenTo (count - 1) * 10 :=
    (Nat.div_lt_iff_lt_mul scaled.pos).mpr (by
      calc g.num * tenTo (count - 1) < 10 * g.den * tenTo (count - 1) :=
            Nat.mul_lt_mul_of_pos_right scaled.lt_ten (tenTo_pos _)
        _ = tenTo (count - 1) * 10 * g.den := by ring)
  have near := roundHalfEven_near (g.num * tenTo (count - 1)) g.den
  unfold Grid.candidate? at found
  dsimp only at found
  generalize g.num * tenTo (count - 1) / g.den = low at *
  generalize roundHalfEven (g.num * tenTo (count - 1)) g.den = rounded at *
  -- A candidate is the quotient, or the one after it.
  split_ifs at found <;> cases found <;> omega

/-- A decimal of seventeen digits that is next to a magnitude rounds to it: half of its last place
is less than half a gap, even below a power of two. -/
theorem contains_of_near {m : Magnitude} {n den ten : Nat} (nonzero : 0 < m.units) (pos : 0 < ten)
    (one_le : den ≤ m.units * ten)
    (upper : 2 * (m.units * ten * tenTo 16) ≤ 2 * (n * den) + den)
    (lower : 2 * (n * den) ≤ 2 * (m.units * ten * tenTo 16) + den) :
    m.interval.contains (4 * n * den) (ten * tenTo 16) = true := by
  have sixteen : tenTo 16 = 10 ^ 16 := rfl
  have fine : 0 < twoTo m.scale * ten := Nat.mul_pos (twoTo_pos _) pos
  -- Everything is counted in the step of the grid, `twoTo m.scale * ten`.
  have units : m.units * ten = m.significand * (twoTo m.scale * ten) := Nat.mul_assoc _ _ _
  have most : m.significand * (twoTo m.scale * ten) ≤ (2 ^ 53 - 1) * (twoTo m.scale * ten) :=
    Nat.mul_le_mul_right _ (Nat.le_pred_of_lt m.significand_lt)
  have least : m.significand = twoTo 52 →
      m.significand * (twoTo m.scale * ten) = 2 ^ 52 * (twoTo m.scale * ten) :=
    fun eq => by rw [eq]; rfl
  have some : twoTo m.scale * ten ≤ m.significand * (twoTo m.scale * ten) :=
    Nat.le_mul_of_pos_left _ (Nat.pos_of_mul_pos_right nonzero)
  have whole : 4 * m.units * (ten * tenTo 16) =
      4 * (m.significand * (twoTo m.scale * ten) * 10 ^ 16) := by
    rw [← units, sixteen]
    ring
  have gap : twoTo m.scale * (ten * tenTo 16) = twoTo m.scale * ten * 10 ^ 16 :=
    (Nat.mul_assoc _ _ _).symm
  have gaps : 2 * twoTo m.scale * (ten * tenTo 16) = 2 * (twoTo m.scale * ten * 10 ^ 16) := by
    rw [Nat.mul_assoc, gap]
  have quarters : 4 * n * den = 4 * (n * den) := Nat.mul_assoc _ _ _
  rw [units, sixteen] at upper lower
  rw [units] at one_le
  have strict : m.interval.lower * (ten * tenTo 16) < 4 * n * den ∧
      4 * n * den < m.interval.upper * (ten * tenTo 16) := by
    simp only [Magnitude.interval, Nat.sub_mul, Nat.add_mul, whole, gaps, quarters]
    -- Only below a power of two is the lower end nearer by half.
    split_ifs with half
    · have exact_ := least half.1
      rw [gap]
      omega
    · rw [gaps]
      omega
  rw [Magnitude.Interval.contains]
  split_ifs
  · simp only [Bool.and_eq_true, decide_eq_true_eq]
    exact ⟨strict.1.le, strict.2.le⟩
  · simp only [Bool.and_eq_true, decide_eq_true_eq]
    exact strict

theorem Grid.candidate?_isSome {g : Grid} {i : Magnitude.Interval} {count : Nat}
    (inside : g.Inside i count (roundHalfEven (g.num * tenTo (count - 1)) g.den)) :
    (g.candidate? i count).isSome := by
  unfold Grid.candidate?
  unfold Grid.Inside at inside
  dsimp only
  rw [if_pos inside]
  rfl

/-- Seventeen digits always suffice. -/
theorem Grid.candidate?_seventeen {m : Magnitude} (nonzero : 0 < m.units) :
    ((Grid.of m).candidate? m.interval 17).isSome := by
  have scaled := Grid.of_scaled nonzero
  have one_le := scaled.one_le
  have upper := (@roundHalfEven_bounds ((Grid.of m).num * tenTo 16) _ scaled.pos).1
  have lower := (@roundHalfEven_bounds ((Grid.of m).num * tenTo 16) _ scaled.pos).2
  refine Grid.candidate?_isSome ?_
  rw [Grid.Inside]
  rw [Grid.num_of] at one_le upper lower ⊢
  exact contains_of_near nonzero (tenTo_pos _) one_le upper lower

/-! ## Values -/

/-- The number that a decimal stands for. -/
def value (d : Decimal) : ℚ := d.digits * 10 ^ (d.exponent - ((d.count : ℤ) - 1))

/-- The digits are as many as the decimal says. -/
structure Fits (d : Decimal) : Prop where
  pos : 0 < d.count
  lower : tenTo (d.count - 1) ≤ d.digits
  upper : d.digits < tenTo d.count

theorem trimZeros_exponent (fuel : Nat) (d : Decimal) :
    (trimZeros fuel d).exponent = d.exponent := by
  induction fuel generalizing d with
  | zero => rfl
  | succ fuel ih =>
    rw [trimZeros]
    split
    · exact ih _
    · rfl

theorem trimZeros_spec (fuel : Nat) {d : Decimal} (fits : d.Fits) :
    (trimZeros fuel d).Fits ∧ (trimZeros fuel d).value = d.value := by
  induction fuel generalizing d with
  | zero => exact ⟨fits, rfl⟩
  | succ fuel ih =>
    rw [trimZeros]
    split
    next trims =>
      obtain ⟨digits, count, exponent⟩ := d
      obtain ⟨pos, lower, upper⟩ := fits
      obtain ⟨many, zero⟩ := trims
      dsimp only at pos lower upper many zero ⊢
      obtain ⟨k, rfl⟩ : ∃ k, count = k + 2 := ⟨count - 2, by omega⟩
      -- The last digit is a zero, and dropping it moves the point by one place.
      have tens : digits = digits / 10 * 10 := by omega
      have lower' : tenTo (k + 1) ≤ digits := lower
      have upper' : digits < tenTo (k + 2) := upper
      rw [tenTo_succ] at lower' upper'
      have fits' : Fits ⟨digits / 10, k + 1, exponent⟩ :=
        ⟨Nat.succ_pos k, by show tenTo k ≤ digits / 10; omega,
          by show digits / 10 < tenTo (k + 1); omega⟩
      obtain ⟨trimmed, same⟩ := ih fits'
      refine ⟨trimmed, same.trans ?_⟩
      have cast : (digits : ℚ) = (digits / 10 : ℕ) * 10 := by exact_mod_cast tens
      have shift : exponent - (((k + 1 : ℕ) : ℤ) - 1) = exponent - (((k + 2 : ℕ) : ℤ) - 1) + 1 := by
        push_cast
        ring
      rw [value, value, cast, shift, zpow_add_one₀ (by norm_num)]
      ring
    next => exact ⟨fits, rfl⟩

end Decimal

namespace Magnitude

/-- The interval holds a number, counted in quarters of a least unit. -/
def Interval.Covers (i : Interval) (q : ℚ) : Prop :=
  if i.closed then i.lower ≤ q ∧ q ≤ i.upper else i.lower < q ∧ q < i.upper

theorem Interval.contains_iff {i : Interval} {num den : Nat} (pos : 0 < den) :
    i.contains num den = true ↔ i.Covers (num / den) := by
  have pos' : (0 : ℚ) < den := by exact_mod_cast pos
  rw [Interval.contains, Interval.Covers]
  split_ifs
  · rw [Bool.and_eq_true, decide_eq_true_eq, decide_eq_true_eq, le_div_iff₀ pos', div_le_iff₀ pos']
    exact_mod_cast Iff.rfl
  · rw [Bool.and_eq_true, decide_eq_true_eq, decide_eq_true_eq, lt_div_iff₀ pos', div_lt_iff₀ pos']
    exact_mod_cast Iff.rfl

/-- A number rounds to a magnitude. -/
def Draws (m : Magnitude) (q : ℚ) : Prop := m.interval.Covers (4 * unitsPerOne * q)

end Magnitude

namespace Decimal

theorem cast_tenTo (k : Nat) : ((tenTo k : Nat) : ℚ) = 10 ^ k := by
  show ((10 ^ k : Nat) : ℚ) = 10 ^ k
  push_cast
  rfl

/-- The ratio that the grid compares is the value of the decimal. -/
theorem ratio_eq (d one up down k : Nat) :
    ((4 * d * (one * tenTo up) : Nat) : ℚ) / ((tenTo down * tenTo k : Nat) : ℚ) =
      4 * one * (d * 10 ^ ((up : ℤ) - down - (((k + 1 : Nat) : ℤ) - 1))) := by
  have exponent : (up : ℤ) - down - (((k + 1 : Nat) : ℤ) - 1) = up - (down + k : Nat) := by
    push_cast
    ring
  rw [exponent, zpow_sub₀ (by norm_num), zpow_natCast, zpow_natCast, pow_add]
  simp only [Nat.cast_mul, cast_tenTo, Nat.cast_ofNat]
  ring

theorem Grid.inside_iff {m : Magnitude} {count d : Nat} (pos : 0 < count) :
    (Grid.of m).Inside m.interval count d ↔ m.Draws (value ⟨d, count, (Grid.of m).exponent⟩) := by
  obtain ⟨k, rfl⟩ := Nat.exists_eq_succ_of_ne_zero (Nat.ne_of_gt pos)
  have den : 0 < tenTo (Grid.of m).down * tenTo (k + 1 - 1) :=
    Nat.mul_pos (tenTo_pos _) (tenTo_pos _)
  rw [Grid.Inside, Nat.succ_eq_add_one, Magnitude.Interval.contains_iff den, Magnitude.Draws, value,
    Grid.of, Nat.add_sub_cancel, ratio_eq]

/-- A one with zeros behind it is a one in the next place. -/
theorem value_carry (k : Nat) (e : ℤ) : value ⟨1, 1, e + 1⟩ = value ⟨tenTo (k + 1), k + 1, e⟩ := by
  have ten : (10 : ℚ) ≠ 0 := by norm_num
  have exponent : ((k + 1 : Nat) : ℤ) + (e - (((k + 1 : Nat) : ℤ) - 1)) = e + 1 := by ring
  rw [value, value, cast_tenTo, ← zpow_natCast, ← zpow_add₀ ten, exponent]
  simp

/-! ## The search -/

/-- The decimal that a search ends with rounds to the magnitude, has as many digits as it says, and
stays within the range in which decimals are read exactly. -/
structure Names (d : Decimal) (m : Magnitude) : Prop where
  fits : d.Fits
  draws : m.Draws d.value
  exponent_ge : -400 ≤ d.exponent
  exponent_lt : d.exponent < 400

theorem Grid.search_names {m : Magnitude} (nonzero : 0 < m.units) {fuel count : Nat}
    (pos : 0 < count) (le : count ≤ 17) (enough : 17 < count + fuel) :
    ((Grid.of m).search m.interval fuel count).Names m := by
  have scaled := Grid.of_scaled nonzero
  induction fuel generalizing count with
  | zero => omega
  | succ fuel ih =>
    rw [Grid.search]
    split
    next d found =>
      have draws := (Grid.inside_iff pos).mp (Grid.candidate?_inside found)
      obtain ⟨lower, upper⟩ := Grid.candidate?_range scaled found
      have ge := scaled.exponent_ge
      have lt := scaled.exponent_lt
      obtain ⟨k, rfl⟩ := Nat.exists_eq_succ_of_ne_zero (Nat.ne_of_gt pos)
      have next : tenTo (k + 1 - 1) * 10 = tenTo (k + 1) := rfl
      rw [Nat.succ_eq_add_one] at *
      split
      next carry =>
        -- Rounding up went all the way to the next power of ten, which has one digit.
        rw [carry, ← value_carry] at draws
        have fits : Fits ⟨1, 1, (Grid.of m).exponent + 1⟩ :=
          ⟨Nat.one_pos, Nat.le_refl 1, by show 1 < 10; decide⟩
        exact ⟨fits, draws, by dsimp only; omega, by dsimp only; omega⟩
      next =>
        have fits : Fits ⟨d, k + 1, (Grid.of m).exponent⟩ := ⟨pos, lower, by dsimp only; omega⟩
        obtain ⟨trimmed, same⟩ := trimZeros_spec (k + 1) fits
        refine ⟨trimmed, by rw [same]; exact draws, ?_, ?_⟩
        · rw [trimZeros_exponent]
          exact ge
        · rw [trimZeros_exponent]
          dsimp only
          omega
    next missing =>
      -- There is a candidate of seventeen digits, so the search does not go on behind them.
      have more : count ≠ 17 := by
        rintro rfl
        have found := Grid.candidate?_seventeen nonzero
        rw [missing] at found
        cases found
      exact ih (Nat.succ_pos count) (by omega) (by omega)

/-- The shortest decimal of a magnitude rounds to it. -/
theorem shortest_names {m : Magnitude} (nonzero : 0 < m.units) : (shortest m).Names m :=
  Grid.search_names nonzero Nat.one_pos (by decide) (by decide)

end Decimal

end RedGreen
