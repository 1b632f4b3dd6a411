import RedGreen.Json.Printer
import RedGreen.Proofs.Json.Spelling

/-!
# Integers with numerals

The writer refuses the same integers as the reader: those of more digits than are converted.
-/

namespace RedGreen

namespace Json

theorem hasNumeral_iff {i : Int} : hasNumeral i = true ↔ digitCount i ≤ digitLimit := by
  -- The limit is hidden, so that no power of it is computed.
  have least : ∃ k, digitLimit = k + 1 := ⟨4299, rfl⟩
  have same : numeralLimit = digitLimit := rfl
  rw [hasNumeral, decide_eq_true_eq, same]
  generalize digitLimit = limit at least ⊢
  obtain ⟨k, rfl⟩ := least
  constructor
  · intro small
    exact Text.length_decimalDigits_le small
  · intro few
    have value : i.natAbs < 10 ^ digitCount i := by
      have tens : ∀ d ∈ Text.decimalDigits i.natAbs, d < 10 := fun _ =>
        Text.lt_ten_of_mem_decimalDigits
      have below := Text.digitsValue_lt tens
      rwa [Text.digitsValue_decimalDigits] at below
    exact Nat.lt_of_lt_of_le value (Nat.pow_le_pow_right (by decide) few)

theorem longInt?_eq_none_iff {i : Int} : longInt? i = none ↔ hasNumeral i = true := by
  rw [hasNumeral_iff, longInt?]
  simp

theorem mem_integersOfMembers {ms : Members} {i : Int} :
    i ∈ integersOfMembers ms ↔ ∃ p ∈ ms, i ∈ integers p.2 := by
  induction ms with
  | nil => simp [integersOfMembers]
  | cons p ms ih =>
    obtain ⟨k, v⟩ := p
    simp [integersOfMembers, ih]

theorem mem_integersOfItems {vs : List Json} {i : Int} :
    i ∈ integersOfItems vs ↔ ∃ v ∈ vs, i ∈ integers v := by
  induction vs with
  | nil => simp [integersOfItems]
  | cons v vs ih => simp [integersOfItems, ih]

mutual

theorem longNumeral?_of_numerals :
    (v : Json) → (∀ i ∈ integers v, hasNumeral i = true) → longNumeral? v = none
  | .null, _ | .bool _, _ | .float _, _ | .str _, _ => rfl
  | .int i, numerals => longInt?_eq_none_iff.mpr (numerals i (List.mem_singleton.mpr rfl))
  | .arr items, numerals => longNumeralItems?_of_numerals items numerals
  | .obj members, numerals => longNumeralMembers?_of_numerals members numerals

theorem longNumeralItems?_of_numerals : (vs : List Json) →
    (∀ i ∈ integersOfItems vs, hasNumeral i = true) → longNumeralItems? vs = none
  | [], _ => rfl
  | v :: vs, numerals => by
    rw [integersOfItems, List.forall_mem_append] at numerals
    rw [longNumeralItems?, longNumeral?_of_numerals v numerals.1,
      longNumeralItems?_of_numerals vs numerals.2, Option.or_none]

theorem longNumeralMembers?_of_numerals : (ms : List (Text × Json)) →
    (∀ i ∈ integersOfMembers ms, hasNumeral i = true) → longNumeralMembers? ms = none
  | [], _ => rfl
  | (_, v) :: ms, numerals => by
    rw [integersOfMembers, List.forall_mem_append] at numerals
    rw [longNumeralMembers?, longNumeral?_of_numerals v numerals.1,
      longNumeralMembers?_of_numerals ms numerals.2, Option.or_none]

end

end Json

end RedGreen
