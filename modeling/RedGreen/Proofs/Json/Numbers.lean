import RedGreen.Json.Printer
import RedGreen.Json.Reader
import RedGreen.Proofs.Text.Digits

/-!
# Integers read back

An integer is read back from its digits, as long as nothing follows by which a number would go
on.  An integer of more digits than are converted stops the reader with their number instead.
-/

namespace RedGreen

namespace Json

/-! ## What may follow a number -/

/-- Nothing by which a number would go on. -/
def EndsNumber (t : Text) : Prop :=
  ∀ c ∈ t.head?, c.digit? = none ∧ c ≠ CodePoint.ofChar '.' ∧ c ≠ CodePoint.ofChar 'e' ∧
    c ≠ CodePoint.ofChar 'E'

theorem endsNumber_nil : EndsNumber [] := by
  intro c mem
  cases mem

theorem endsNumber_cons {c : CodePoint} {t : Text} :
    EndsNumber (c :: t) ↔ c.digit? = none ∧ c ≠ CodePoint.ofChar '.' ∧ c ≠ CodePoint.ofChar 'e' ∧
      c ≠ CodePoint.ofChar 'E' := by
  simp [EndsNumber]

theorem EndsNumber.endsDigits {t : Text} (ends : EndsNumber t) : Text.EndsDigits t :=
  fun c mem => (ends c mem).1

theorem readFraction?_of_ends {t : Text} (ends : EndsNumber t) : readFraction? t = none := by
  cases t with
  | nil => rfl
  | cons c t =>
    have point := (endsNumber_cons.mp ends).2.1
    simp [readFraction?, point]

theorem readExponent?_of_ends {t : Text} (ends : EndsNumber t) : readExponent? t = none := by
  cases t with
  | nil => rfl
  | cons c t =>
    obtain ⟨-, -, small, capital⟩ := endsNumber_cons.mp ends
    simp [readExponent?, small, capital]

/-- A character that is no mark by which a reader tells where a value begins or ends. -/
structure Unmarked (c : CodePoint) : Prop where
  ascii : c.val < 0x80
  noGap : isGap c = false
  closing : c ≠ CodePoint.ofChar ']'
  quote : c ≠ CodePoint.ofChar '"'
  brace : c ≠ CodePoint.ofChar '\x7b'
  bracket : c ≠ CodePoint.ofChar '['
  minus : c ≠ CodePoint.ofChar '-'

theorem unmarked_digit {d : Nat} (small : d < 10) : Unmarked (CodePoint.ofChar d.digitChar) := by
  have range : ∀ d < 10, 0x30 ≤ (CodePoint.ofChar (Nat.digitChar d)).val ∧
      (CodePoint.ofChar (Nat.digitChar d)).val ≤ 0x39 := by decide
  have noGap : ∀ d < 10, isGap (CodePoint.ofChar (Nat.digitChar d)) = false := by decide
  obtain ⟨least, greatest⟩ := range d small
  -- The code points of the marks lie on either side of the range of the digits.
  have differs : ∀ k : Char, k.toNat < 0x30 ∨ 0x39 < k.toNat →
      CodePoint.ofChar d.digitChar ≠ CodePoint.ofChar k := by
    intro k outside same
    have equal : (CodePoint.ofChar d.digitChar).val = k.toNat := congrArg CodePoint.val same
    omega
  exact ⟨by omega, noGap d small, differs _ (by decide), differs _ (by decide),
    differs _ (by decide), differs _ (by decide), differs _ (by decide)⟩

/-! ## Named values -/

theorem readLiteral?_eq_none {t : Text}
    (differs : ∀ p ∈ literals, Text.dropLead? p.1 t = none) : readLiteral? t = none := by
  rw [readLiteral?, List.findSome?_eq_none_iff]
  intro p mem
  simp [differs p mem]

theorem dropLead?_eq_none_of_head {lead : Text} {c : CodePoint} (t : Text)
    (nonempty : lead ≠ []) (differs : lead.head? ≠ some c) :
    Text.dropLead? lead (c :: t) = none := by
  cases lead with
  | nil => contradiction
  | cons p lead =>
    have unequal : p ≠ c := fun same => differs (by rw [same]; rfl)
    simp [Text.dropLead?, unequal]

/-- A text that begins with a digit is no named value. -/
theorem readLiteral?_digit {d : Nat} (h : d < 10) (t : Text) :
    readLiteral? (CodePoint.ofChar d.digitChar :: t) = none := by
  have heads : ∀ d < 10, ∀ p ∈ literals,
      p.1 ≠ [] ∧ p.1.head? ≠ some (CodePoint.ofChar (Nat.digitChar d)) := by decide
  refine readLiteral?_eq_none fun p mem => ?_
  obtain ⟨nonempty, differs⟩ := heads d h p mem
  exact dropLead?_eq_none_of_head t nonempty differs

/-- A text that begins with a minus sign and a digit is no named value. -/
theorem readLiteral?_minus_digit {d : Nat} (h : d < 10) (t : Text) :
    readLiteral? (CodePoint.ofChar '-' :: CodePoint.ofChar d.digitChar :: t) = none := by
  have heads : ∀ d < 10, ∀ p ∈ literals, p.1 ≠ [] ∧ (p.1.head? ≠ some (CodePoint.ofChar '-') ∨
      p.1.tail ≠ [] ∧ p.1.tail.head? ≠ some (CodePoint.ofChar (Nat.digitChar d))) := by decide
  refine readLiteral?_eq_none fun p mem => ?_
  obtain ⟨nonempty, differs | ⟨longer, differs⟩⟩ := heads d h p mem
  · exact dropLead?_eq_none_of_head _ nonempty differs
  · have rest := dropLead?_eq_none_of_head t longer differs
    cases lead : p.1 with
    | nil => contradiction
    | cons c more =>
      rw [lead] at rest
      rw [Text.dropLead?]
      split
      · exact rest
      · rfl

/-! ## Integers -/

theorem readWhole?_ofNat (n : Nat) {rest : Text} (ends : EndsNumber rest) :
    readWhole? (Text.ofNat n ++ rest) = some (Text.decimalDigits n, rest) := by
  rw [readWhole?, Text.spanDigits_ofNat n ends.endsDigits]
  cases digits : Text.decimalDigits n with
  | nil => exact absurd digits (Text.decimalDigits_ne_nil n)
  | cons d ds =>
    cases d with
    | zero =>
      obtain ⟨rfl, rfl⟩ := Text.decimalDigits_eq_zero_cons digits
      rfl
    | succ d => rfl

/-- The number of digits of an integer. -/
def digitCount (i : Int) : Nat := (Text.decimalDigits i.natAbs).length

/-- What a reader makes of a value in which `long` says whether an integer has too many digits. -/
def outcome (long : Option Nat) (a : α) (rest : Text) : Reading α :=
  match long with
  | some n => .error (.tooManyDigits n)
  | none => .ok (a, rest)

@[simp] theorem map_outcome (f : α → β) (long : Option Nat) (a : α) (rest : Text) :
    (outcome long a rest).map (fun r => (f r.1, r.2)) = outcome long (f a) rest := by
  cases long <;> rfl

/-- The number of digits of an integer that has too many to be read. -/
def longInt? (i : Int) : Option Nat :=
  if digitLimit < digitCount i then some (digitCount i) else none

theorem ofNat_eq_cons (n : Nat) :
    ∃ d t, d < 10 ∧ Text.ofNat n = CodePoint.ofChar (Nat.digitChar d) :: t := by
  rw [Text.ofNat_eq_ofDigits]
  cases digits : Text.decimalDigits n with
  | nil => exact absurd digits (Text.decimalDigits_ne_nil n)
  | cons d ds =>
    have small : d < 10 := Text.lt_ten_of_mem_decimalDigits (n := n) (by rw [digits]; simp)
    exact ⟨d, Text.ofDigits ds, small, rfl⟩

theorem readNumber?_ofNat (n : Nat) {rest : Text} (ends : EndsNumber rest) :
    readNumber? (Text.ofNat n ++ rest) = some (outcome (longInt? n) (.int n) rest) := by
  obtain ⟨d, t, small, digits⟩ := ofNat_eq_cons n
  have minus := (unmarked_digit small).minus
  have whole := readWhole?_ofNat n ends
  rw [digits, List.cons_append] at whole ⊢
  simp only [readNumber?, minus, if_false, whole, Option.map_some,
    readFraction?_of_ends ends, readExponent?_of_ends ends, Bool.false_eq_true]
  simp only [longInt?, digitCount, Int.natAbs_natCast, Text.digitsValue_decimalDigits]
  by_cases long : digitLimit < (Text.decimalDigits n).length
  · simp [long, outcome]
  · simp [long, outcome]

theorem readNumber?_minus_ofNat (n : Nat) {rest : Text} (ends : EndsNumber rest) :
    readNumber? (CodePoint.ofChar '-' :: Text.ofNat n ++ rest) =
      some (outcome (longInt? (-n)) (.int (-n)) rest) := by
  have whole := readWhole?_ofNat n ends
  simp only [List.cons_append, readNumber?, if_true, whole, Option.map_some,
    readFraction?_of_ends ends, readExponent?_of_ends ends]
  simp only [longInt?, digitCount, Int.natAbs_neg, Int.natAbs_natCast,
    Text.digitsValue_decimalDigits]
  by_cases long : digitLimit < (Text.decimalDigits n).length
  · simp [long, outcome]
  · simp [long, outcome]

theorem readScalar_ofInt (i : Int) {rest : Text} (ends : EndsNumber rest) :
    readScalar (Text.ofInt i ++ rest) = outcome (longInt? i) (.int i) rest := by
  cases i with
  | ofNat n =>
    obtain ⟨d, t, small, digits⟩ := ofNat_eq_cons n
    have literal : readLiteral? (Text.ofNat n ++ rest) = none := by
      rw [digits]
      exact readLiteral?_digit small _
    rw [Text.ofInt, readScalar, literal, readNumber?_ofNat n ends]
    rfl
  | negSucc n =>
    obtain ⟨d, t, small, digits⟩ := ofNat_eq_cons (n + 1)
    have literal : readLiteral? (CodePoint.ofChar '-' :: Text.ofNat (n + 1) ++ rest) = none := by
      rw [digits]
      exact readLiteral?_minus_digit small _
    rw [Text.ofInt, readScalar, literal, readNumber?_minus_ofNat (n + 1) ends]
    rfl

end Json

end RedGreen
