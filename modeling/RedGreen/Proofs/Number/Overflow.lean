import RedGreen.Number.Conversion
import RedGreen.Proofs.Number.Monotone

/-!
# Where rounding overflows

The numbers end halfway between the greatest of them and the next power of two: what lies below
that point is rounded to a number, the point itself and all beyond it are not.  Of the stored
values, only an infinite number has no integer, and only an integer from there on has no float.
-/

namespace RedGreen

/-- Halfway from the greatest number to `2 ^ 1024`. -/
def overflowBound : Nat := twoTo 1024 - twoTo 970

namespace Magnitude

def greatest : Magnitude where
  significand := twoTo 53 - 1
  scale := 2045
  significand_lt := by decide
  scale_le := Nat.le_refl _
  normal := .inl (by decide)

theorem two_mul_overflowBound :
    2 * (overflowBound * unitsPerOne) =
      2 * (greatest.significand * twoTo greatest.scale) + twoTo greatest.scale := by
  decide +kernel

/-- The tie goes to the power of two, whose significand is even. -/
theorem rounded_overflowBound : rounded (overflowBound * unitsPerOne) 1 = 2 ^ (52 + 2046) := by
  decide +kernel

theorem attracts_greatest {num : Nat} (above : greatest.units ≤ num)
    (below : num < overflowBound * unitsPerOne) : greatest.Attracts num 1 := by
  have half := two_mul_overflowBound
  have odd : greatest.significand ≠ twoTo 52 := by decide
  rw [units] at above
  rw [← Nat.one_mul (twoTo greatest.scale)] at half above
  -- No step of the argument looks into the powers of two.
  obtain ⟨lower, upper, strict⟩ : greatest.significand * (1 * twoTo greatest.scale) ≤ num ∧
      2 * num < 2 * (greatest.significand * (1 * twoTo greatest.scale)) +
        1 * twoTo greatest.scale ∧
      2 * (greatest.significand * (1 * twoTo greatest.scale)) <
        2 * num + 1 * twoTo greatest.scale := by
    generalize 1 * twoTo greatest.scale = step at half above ⊢
    generalize greatest.significand * step = value at half above ⊢
    omega
  exact ⟨Nat.le_of_lt strict, Nat.le_of_lt upper, .inr ⟨strict, upper⟩,
    fun least => absurd least odd⟩

/-- A natural number is rounded beyond all magnitudes exactly from the bound on. -/
theorem ofRatio?_eq_none_iff {n : Nat} : ofRatio? n 1 = none ↔ overflowBound ≤ n := by
  constructor
  · intro beyond
    by_contra inside
    have less : n * unitsPerOne < overflowBound * unitsPerOne :=
      Nat.mul_lt_mul_of_pos_right (Nat.lt_of_not_le inside) unitsPerOne_pos
    rcases Nat.le_total greatest.units (n * unitsPerOne) with above | within
    · have made : ofRatio? n 1 = some greatest :=
        (attracts_greatest above less).ofParts? Nat.one_pos
      rw [beyond] at made
      cases made
    · have most : rounded (n * unitsPerOne) 1 ≤ greatest.units := by
        rw [← greatest.rounded_units Nat.one_pos, Nat.mul_one]
        exact rounded_mono Nat.one_pos Nat.one_pos (Nat.mul_le_mul_right 1 within)
      obtain ⟨m, made, _⟩ := ofRatio?_isSome Nat.one_pos most
      rw [beyond] at made
      cases made
  · intro beyond
    cases made : ofRatio? n 1 with
    | none => rfl
    | some m =>
      have least : rounded (overflowBound * unitsPerOne) 1 ≤ rounded (n * unitsPerOne) 1 :=
        rounded_mono Nat.one_pos Nat.one_pos
          (Nat.mul_le_mul_right 1 (Nat.mul_le_mul_right _ beyond))
      rw [rounded_overflowBound, ← units_of_ofRatio? made] at least
      exact absurd least (Nat.not_le_of_lt (m.units_lt_two_pow (by decide)))

end Magnitude

theorem Binary64.ofInt?_eq_none_iff {i : Int} :
    ofInt? i = none ↔ overflowBound ≤ i.natAbs := by
  rw [ofInt?, Option.map_eq_none_iff, Magnitude.ofRatio?_eq_none_iff]

namespace Json

theorem intOfText_ne_overflow (t : Text) : intOfText t ≠ .error .overflow := by
  unfold intOfText
  dsimp only
  split
  · exact nofun
  · split
    · split <;> exact nofun
    · exact nofun

theorem toInt_eq_overflow_iff {v : Json} :
    v.toInt = .error .overflow ↔ ∃ negative, v = .float (.infinite negative) := by
  constructor
  · intro overflow
    cases v with
    | float x =>
      cases x with
      | infinite negative => exact ⟨negative, rfl⟩
      | finite negative m => cases negative <;> cases overflow
      | notANumber => cases overflow
    | str t => exact absurd overflow (intOfText_ne_overflow t)
    | null | bool _ | int _ | arr _ | obj _ => cases overflow
  · rintro ⟨negative, rfl⟩
    rfl

theorem floatOr_eq_error {e e' : ConversionError} {x? : Option Binary64} :
    floatOr e x? = .error e' ↔ x? = none ∧ e = e' := by
  cases x? <;> simp [floatOr]

theorem toFloat_eq_overflow_iff {v : Json} :
    v.toFloat = .error .overflow ↔ ∃ i, v = .int i ∧ overflowBound ≤ i.natAbs := by
  constructor
  · intro overflow
    cases v with
    | int i =>
      rw [toFloat, floatOr_eq_error] at overflow
      exact ⟨i, rfl, Binary64.ofInt?_eq_none_iff.mp overflow.1⟩
    | str t =>
      rw [toFloat, floatOr_eq_error] at overflow
      cases overflow.2
    | null | bool _ | float _ | arr _ | obj _ => cases overflow
  · rintro ⟨i, rfl, beyond⟩
    exact floatOr_eq_error.mpr ⟨Binary64.ofInt?_eq_none_iff.mpr beyond, rfl⟩

end Json

end RedGreen
