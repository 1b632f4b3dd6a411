import RedGreen.Proofs.Number.Order

/-!
# Numbers that need no rounding

A count of least units that has at most 53 significant bits is a magnitude, or lies beyond all of
them.  So doubling a number any number of times is exact until it is infinite.
-/

namespace RedGreen

theorem roundHalfEven_mul (n : Nat) {den : Nat} (pos : 0 < den) :
    roundHalfEven (n * den) den = n :=
  Nat.le_antisymm (roundHalfEven_le (Nat.le_refl _)) (le_roundHalfEven pos (Nat.le_refl _))

namespace Magnitude

/-- A magnitude has no more bits than its significand and its scale together. -/
theorem units_lt_of_scale (m : Magnitude) : m.units < 2 ^ (53 + m.scale) := by
  have significand : m.significand < 2 ^ 53 := m.significand_lt
  rw [Nat.pow_add]
  exact Nat.mul_lt_mul_of_pos_right significand (Nat.two_pow_pos _)

/-- All magnitudes lie below the powers of two of the next scale. -/
theorem units_lt_two_pow (m : Magnitude) {scale : Nat} (beyond : 2045 < scale) :
    m.units < 2 ^ (52 + scale) := by
  have most := m.scale_le
  exact Nat.lt_of_lt_of_le m.units_lt_of_scale (Nat.pow_le_pow_right (by decide) (by omega))

/-- What stands at the scale that a count of units is rounded at. -/
theorem scaled_bounds {v significand e : Nat} (small : significand < 2 ^ 53)
    (value : v = significand * 2 ^ e) :
    ∃ q, v = q * 2 ^ (v.log2 + 1 - 53) ∧ q < 2 ^ 53 ∧
      (twoTo 52 ≤ q ∨ v.log2 + 1 - 53 = 0) := by
  have above : v < 2 ^ (v.log2 + 1) := Nat.lt_log2_self
  have coarse := @two_pow_le_of_coarse v
  have fits : v.log2 + 1 - 53 ≤ e := by
    rcases Nat.eq_zero_or_pos v with zero | positive
    · rw [zero, Nat.log2_zero]
      omega
    · have below : v < 2 ^ (53 + e) := by
        rw [value, Nat.pow_add]
        exact Nat.mul_lt_mul_of_pos_right small (Nat.two_pow_pos _)
      have least := Nat.log2_self_le (Nat.pos_iff_ne_zero.mp positive)
      have exponent := (Nat.pow_lt_pow_iff_right (by decide)).mp (Nat.lt_of_le_of_lt least below)
      omega
  have bits : v.log2 + 1 ≤ 53 + (v.log2 + 1 - 53) := by omega
  generalize v.log2 + 1 - 53 = scale at coarse fits bits ⊢
  have split : v = significand * 2 ^ (e - scale) * 2 ^ scale := by
    rw [Nat.mul_assoc, ← Nat.pow_add, Nat.sub_add_cancel fits]
    exact value
  generalize significand * 2 ^ (e - scale) = q at split
  have positive := Nat.two_pow_pos scale
  refine ⟨q, split, ?_, ?_⟩
  · have below : q * 2 ^ scale < 2 ^ 53 * 2 ^ scale := by
      rw [← split, ← Nat.pow_add]
      exact Nat.lt_of_lt_of_le above (Nat.pow_le_pow_right (by decide) bits)
    exact Nat.lt_of_mul_lt_mul_right below
  · rcases Nat.eq_zero_or_pos scale with fine | more
    · exact .inr fine
    · have least := coarse more
      rw [split, Nat.pow_add] at least
      exact .inl (Nat.le_of_mul_le_mul_right least positive)

/-- A ratio that is a count of units of at most 53 significant bits is a magnitude, or lies beyond
all of them. -/
theorem ofRatio?_exact {num den significand e : Nat} (pos : 0 < den)
    (small : significand < 2 ^ 53) (value : num * unitsPerOne = significand * 2 ^ e * den) :
    (∃ m, ofRatio? num den = some m ∧ m.units = significand * 2 ^ e) ∨
      ofRatio? num den = none ∧ ∀ m : Magnitude, m.units < significand * 2 ^ e := by
  rw [ofRatio?, value, Nat.mul_div_cancel _ pos]
  generalize counted : significand * 2 ^ e = v
  obtain ⟨q, split, inside, normal⟩ := scaled_bounds small counted.symm
  have coarse := @two_pow_le_of_coarse v
  generalize v.log2 + 1 - 53 = scale at split normal coarse ⊢
  have round : roundHalfEven (v * den) (den * twoTo scale) = q := by
    have product : v * den = q * (den * twoTo scale) := by
      rw [split]
      show q * 2 ^ scale * den = q * (den * 2 ^ scale)
      ring
    rw [product]
    exact roundHalfEven_mul q (Nat.mul_pos pos (Nat.two_pow_pos _))
  rw [round]
  by_cases within : scale ≤ 2045
  · rw [ofParts?, dif_pos ⟨inside, within, normal⟩]
    exact .inl ⟨_, rfl, split.symm⟩
  · have carry : ¬(q = twoTo 53 ∧ scale + 1 ≤ 2045) := fun both => within (by omega)
    rw [ofParts?, dif_neg fun all => within all.2.1, dif_neg carry]
    refine .inr ⟨rfl, fun m => ?_⟩
    exact Nat.lt_of_lt_of_le (m.units_lt_two_pow (Nat.lt_of_not_le within)) (coarse (by omega))

end Magnitude

namespace Binary64

theorem units?_isSome {x : Binary64} (finite : x.isFinite = true)
    (positive : le .zero x = true) : ∃ a : Nat, x.units? = some (a : Int) := by
  cases x with
  | notANumber => cases finite
  | infinite negative => cases finite
  | finite negative m =>
    cases negative with
    | false => exact ⟨m.units, rfl⟩
    | true =>
      -- The only number with a minus sign that is not below zero is a zero.
      have below : lt (.finite true m) .zero = false := by
        rw [le_eq_not_lt rfl rfl] at positive
        simpa using positive
      have zero : m.units = 0 := by
        simp only [lt, zero, decide_eq_false_iff_not] at below
        omega
      exact ⟨0, by rw [units?, zero]; rfl⟩

theorem lt_eq_decide {x y : Binary64} {a b : Int} (left : x.units? = some a)
    (right : y.units? = some b) : lt x y = decide (a < b) := by
  cases x with
  | notANumber => cases left
  | infinite s => cases left
  | finite s m =>
    cases y with
    | notANumber => cases right
    | infinite t => cases right
    | finite t n =>
      cases s <;> cases t <;> simp only [units?, Option.some.injEq] at left right <;>
        subst left <;> subst right <;> simp only [lt, decide_eq_decide, eq_comm (a := false),
          decide_eq_false_iff_not] <;> omega

theorem mul_two_pow (negative : Bool) (m : Magnitude) {k : Nat} (small : k ≤ 900) :
    (∃ n : Magnitude, (finite negative m).mul (ofNat (twoTo k)) = .finite negative n ∧
      n.units = m.units * 2 ^ k) ∨
    (finite negative m).mul (ofNat (twoTo k)) = .infinite negative ∧
      ∀ n : Magnitude, n.units < m.units * 2 ^ k := by
  obtain ⟨e, _, one⟩ := Magnitude.unitsPerOne_eq
  -- The factor is a power of two, and finite.
  have atMost : (ofNat (twoTo k)).AtMost k := ofNat_atMost small (Nat.le_refl _)
  obtain ⟨p, factor, _⟩ := atMost
  have power : p.units = 2 ^ k * Magnitude.unitsPerOne := by
    have units : twoTo k * Magnitude.unitsPerOne = 1 * 2 ^ (k + e) * 1 := by
      rw [one, Nat.pow_add, Nat.one_mul, Nat.mul_one]
      rfl
    have factor' := factor
    rw [ofNat, ofRatio] at factor'
    rcases Magnitude.ofRatio?_exact Nat.one_pos (by decide) units with ⟨m, made, same⟩ | ⟨none, _⟩
    · rw [made] at factor'
      cases factor'
      rw [same, one, Nat.pow_add, Nat.one_mul]
    · rw [none] at factor'
      cases factor'
  have sign : (negative != false) = negative := by
    cases negative <;> rfl
  have units : m.units * p.units * Magnitude.unitsPerOne =
      m.significand * 2 ^ (m.scale + k) *
        (Magnitude.unitsPerOne * Magnitude.unitsPerOne) := by
    rw [power, Magnitude.units, Nat.pow_add]
    show m.significand * 2 ^ m.scale * (2 ^ k * _) * _ = _
    ring
  have value : m.significand * 2 ^ (m.scale + k) = m.units * 2 ^ k := by
    rw [Nat.pow_add, ← Nat.mul_assoc]
    rfl
  have positive := Nat.mul_pos Magnitude.unitsPerOne_pos Magnitude.unitsPerOne_pos
  rw [factor, mul, sign, ofRatio]
  rcases Magnitude.ofRatio?_exact positive m.significand_lt units with
    ⟨n, made, same⟩ | ⟨none, beyond⟩
  · rw [made]
    exact .inl ⟨n, rfl, same.trans value⟩
  · rw [none]
    exact .inr ⟨rfl, fun n => value ▸ beyond n⟩

/-- Doubling a number that is not negative any number of times is exact, or passes all finite
numbers. -/
theorem units?_mul_two_pow {x : Binary64} {a k : Nat} (value : x.units? = some (a : Int))
    (small : k ≤ 900) :
    (x.mul (ofNat (twoTo k))).units? = some ((a * 2 ^ k : Nat) : Int) ∨
      x.mul (ofNat (twoTo k)) = .infinite false ∧ ∀ n : Magnitude, n.units < a * 2 ^ k := by
  cases x with
  | notANumber => cases value
  | infinite negative => cases value
  | finite negative m =>
    cases negative with
    | false =>
      obtain rfl : m.units = a := by simpa [units?] using value
      rcases mul_two_pow false m small with ⟨n, made, same⟩ | ⟨made, beyond⟩
      · rw [made, units?, same]
        exact .inl rfl
      · exact .inr ⟨made, beyond⟩
    | true =>
      -- Behind a minus sign there is nothing but zero, which nothing lies below.
      have both : m.units = 0 ∧ a = 0 := by
        simp only [units?, Option.some.injEq] at value
        omega
      obtain ⟨zero, rfl⟩ := both
      rcases mul_two_pow true m small with ⟨n, made, same⟩ | ⟨_, beyond⟩
      · rw [made, units?, same, zero, Nat.zero_mul]
        exact .inl rfl
      · have below := beyond m
        rw [zero, Nat.zero_mul] at below
        exact absurd below (Nat.not_lt_zero _)

end Binary64

end RedGreen
