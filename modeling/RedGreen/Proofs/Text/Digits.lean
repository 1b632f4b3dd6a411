import RedGreen.Text.Basic
import Mathlib.Tactic.Ring

/-!
# Decimal digits read back

A number is written as the text of its decimal digits.  `spanDigits` reads these digits back, as
long as no further digit follows, and `digitsValue` turns them into the number again.  Numbers
filled up with zeros on the left, as times are written, are the special case of leading zeros.
-/

namespace RedGreen

namespace Text

/-- The decimal digits of a number, most significant first. -/
def decimalDigits (n : Nat) : List Nat :=
  if n < 10 then [n] else decimalDigits (n / 10) ++ [n % 10]

/-- The text of a sequence of digits. -/
def ofDigits (ds : List Nat) : Text := ds.map fun d => CodePoint.ofChar d.digitChar

/-- Nothing in front of which a run of digits would go on. -/
def EndsDigits (t : Text) : Prop := ∀ c ∈ t.head?, c.digit? = none

theorem endsDigits_cons {c : CodePoint} {t : Text} : EndsDigits (c :: t) ↔ c.digit? = none := by
  simp [EndsDigits]

@[simp] theorem ofDigits_nil : ofDigits [] = [] := rfl

@[simp] theorem ofDigits_cons (d : Nat) (ds : List Nat) :
    ofDigits (d :: ds) = CodePoint.ofChar d.digitChar :: ofDigits ds := rfl

@[simp] theorem ofDigits_append (ds es : List Nat) :
    ofDigits (ds ++ es) = ofDigits ds ++ ofDigits es := by
  simp [ofDigits]

@[simp] theorem length_ofDigits (ds : List Nat) : (ofDigits ds).length = ds.length := by
  simp [ofDigits]

/-! ## The digits of a number -/

theorem decimalDigits_of_lt {n : Nat} (h : n < 10) : decimalDigits n = [n] := by
  rw [decimalDigits, if_pos h]

theorem decimalDigits_of_ge {n : Nat} (h : 10 ≤ n) :
    decimalDigits n = decimalDigits (n / 10) ++ [n % 10] := by
  rw [decimalDigits, if_neg (by omega)]

theorem ofNat_eq_ofDigits (n : Nat) : ofNat n = ofDigits (decimalDigits n) := by
  induction n using Nat.strongRecOn with
  | ind n ih =>
    by_cases small : n < 10
    · rw [decimalDigits_of_lt small, ofNat, Nat.toDigits_of_lt_base small]
      rfl
    · have smaller := ih (n / 10) (by omega)
      rw [decimalDigits_of_ge (by omega), ofDigits_append, ← smaller, ofNat, ofNat,
        Nat.toDigits_of_base_le (by decide) (by omega)]
      simp

theorem decimalDigits_ne_nil (n : Nat) : decimalDigits n ≠ [] := by
  rw [decimalDigits]
  split <;> simp

theorem lt_ten_of_mem_decimalDigits {n d : Nat} (mem : d ∈ decimalDigits n) : d < 10 := by
  induction n using Nat.strongRecOn with
  | ind n ih =>
    by_cases small : n < 10
    · rw [decimalDigits_of_lt small, List.mem_singleton] at mem
      omega
    · rw [decimalDigits_of_ge (by omega), List.mem_append, List.mem_singleton] at mem
      cases mem with
      | inl mem => exact ih (n / 10) (by omega) mem
      | inr last => omega

/-- Only zero has a leading zero. -/
theorem decimalDigits_eq_zero_cons {n : Nat} {ds : List Nat} (h : decimalDigits n = 0 :: ds) :
    n = 0 ∧ ds = [] := by
  induction n using Nat.strongRecOn generalizing ds with
  | ind n ih =>
    by_cases small : n < 10
    · rw [decimalDigits_of_lt small] at h
      simpa using h
    · rw [decimalDigits_of_ge (by omega)] at h
      cases front : decimalDigits (n / 10) with
      | nil => exact absurd front (decimalDigits_ne_nil _)
      | cons d more =>
        rw [front, List.cons_append, List.cons.injEq] at h
        obtain ⟨rfl, -⟩ := h
        have := (ih (n / 10) (by omega) front).1
        omega

theorem length_decimalDigits_le {n k : Nat} (h : n < 10 ^ (k + 1)) :
    (decimalDigits n).length ≤ k + 1 := by
  induction k generalizing n with
  | zero =>
    rw [decimalDigits_of_lt (by simpa using h)]
    exact Nat.le_refl 1
  | succ k ih =>
    by_cases small : n < 10
    · rw [decimalDigits_of_lt small]
      exact Nat.succ_le_succ (Nat.zero_le _)
    · have fewer : n / 10 < 10 ^ (k + 1) := by
        rw [pow_succ] at h
        omega
      rw [decimalDigits_of_ge (by omega), List.length_append]
      exact Nat.succ_le_succ (ih fewer)

/-! ## The value of digits -/

theorem foldl_digits (start : Nat) (ds : List Nat) :
    ds.foldl (fun n d => 10 * n + d) start = start * 10 ^ ds.length + digitsValue ds := by
  induction ds generalizing start with
  | nil => simp [digitsValue]
  | cons d ds ih =>
    simp only [digitsValue, List.foldl_cons, List.length_cons]
    rw [ih, ih (10 * 0 + d)]
    ring

theorem digitsValue_append (ds es : List Nat) :
    digitsValue (ds ++ es) = digitsValue ds * 10 ^ es.length + digitsValue es := by
  rw [digitsValue, List.foldl_append, foldl_digits]
  rfl

theorem digitsValue_cons (d : Nat) (ds : List Nat) :
    digitsValue (d :: ds) = d * 10 ^ ds.length + digitsValue ds := by
  have split := digitsValue_append [d] ds
  simpa [digitsValue] using split

theorem digitsValue_lt {ds : List Nat} (digits : ∀ d ∈ ds, d < 10) :
    digitsValue ds < 10 ^ ds.length := by
  induction ds with
  | nil => exact Nat.one_pos
  | cons d ds ih =>
    rw [List.forall_mem_cons] at digits
    have rest := ih digits.2
    have head : d * 10 ^ ds.length ≤ 9 * 10 ^ ds.length :=
      Nat.mul_le_mul_right _ (Nat.le_of_lt_succ digits.1)
    rw [digitsValue_cons, List.length_cons, pow_succ]
    omega

theorem digitsValue_replicate_zero (k : Nat) (ds : List Nat) :
    digitsValue (List.replicate k 0 ++ ds) = digitsValue ds := by
  induction k with
  | zero => simp
  | succ k ih =>
    rw [List.replicate_succ, List.cons_append, digitsValue_cons, ih]
    omega

@[simp] theorem digitsValue_decimalDigits (n : Nat) : digitsValue (decimalDigits n) = n := by
  induction n using Nat.strongRecOn with
  | ind n ih =>
    by_cases small : n < 10
    · rw [decimalDigits_of_lt small]
      simp [digitsValue]
    · rw [decimalDigits_of_ge (by omega), digitsValue_append, ih (n / 10) (by omega)]
      simp [digitsValue]
      omega

/-! ## Reading digits -/

theorem digit?_digitChar {d : Nat} (h : d < 10) :
    (CodePoint.ofChar d.digitChar).digit? = some d := by
  have all : ∀ d < 10, (CodePoint.ofChar d.digitChar).digit? = some d := by decide
  exact all d h

theorem spanDigits_suffix (t : Text) : (spanDigits t).2 <:+ t := by
  fun_induction spanDigits t with
  | case1 => exact List.suffix_rfl
  | case2 c t d digit ih => exact ih.trans (List.suffix_cons c t)
  | case3 c t => exact List.suffix_rfl

theorem lt_ten_of_mem_spanDigits {t : Text} {d : Nat} (mem : d ∈ (spanDigits t).1) : d < 10 := by
  fun_induction spanDigits t with
  | case1 => cases mem
  | case2 c t e digit ih =>
    rcases List.mem_cons.mp mem with rfl | mem
    · rw [CodePoint.digit?] at digit
      split at digit
      next range =>
        cases digit
        omega
      next => cases digit
    · exact ih mem
  | case3 c t => cases mem

theorem spanDigits_of_ends {rest : Text} (h : EndsDigits rest) : spanDigits rest = ([], rest) := by
  cases rest with
  | nil => rfl
  | cons c t => rw [spanDigits, endsDigits_cons.mp h]

theorem spanDigits_ofDigits {ds : List Nat} {rest : Text} (digits : ∀ d ∈ ds, d < 10)
    (ends : EndsDigits rest) : spanDigits (ofDigits ds ++ rest) = (ds, rest) := by
  induction ds with
  | nil => exact spanDigits_of_ends ends
  | cons d ds ih =>
    have tail := ih fun e mem => digits e (List.mem_cons_of_mem d mem)
    rw [ofDigits_cons, List.cons_append, spanDigits, digit?_digitChar (digits d (by simp))]
    simp [tail]

theorem spanDigits_ofNat (n : Nat) {rest : Text} (ends : EndsDigits rest) :
    spanDigits (ofNat n ++ rest) = (decimalDigits n, rest) := by
  rw [ofNat_eq_ofDigits]
  exact spanDigits_ofDigits (fun _ => lt_ten_of_mem_decimalDigits) ends

theorem ofNat_append_injective {m n : Nat} {s t : Text} (ends : EndsDigits s) (ends' : EndsDigits t)
    (same : ofNat m ++ s = ofNat n ++ t) : m = n ∧ s = t := by
  have read := spanDigits_ofNat m ends
  rw [same, spanDigits_ofNat n ends', Prod.mk.injEq] at read
  refine ⟨?_, read.2.symm⟩
  rw [← digitsValue_decimalDigits m, ← read.1, digitsValue_decimalDigits]

theorem ofNat_append_ne_minus (n : Nat) (s t : Text) :
    ofNat n ++ s ≠ CodePoint.ofChar '-' :: t := by
  rw [ofNat_eq_ofDigits]
  cases digits : decimalDigits n with
  | nil => exact absurd digits (decimalDigits_ne_nil n)
  | cons d ds =>
    have small : d < 10 := @lt_ten_of_mem_decimalDigits n d (by rw [digits]; exact List.mem_cons_self)
    have plain : ∀ d < 10, CodePoint.ofChar d.digitChar ≠ CodePoint.ofChar '-' := by decide
    exact fun same => plain d small (List.cons.inj same).1

/-- An integer is found again in front of anything that is no digit. -/
theorem ofInt_append_injective {i j : Int} {s t : Text} (ends : EndsDigits s) (ends' : EndsDigits t)
    (same : ofInt i ++ s = ofInt j ++ t) : i = j ∧ s = t := by
  cases i with
  | ofNat m =>
    cases j with
    | ofNat n => exact (ofNat_append_injective ends ends' same).imp_left (congrArg _)
    | negSucc n => exact absurd same (ofNat_append_ne_minus m s _)
  | negSucc m =>
    cases j with
    | ofNat n => exact absurd same.symm (ofNat_append_ne_minus n t _)
    | negSucc n =>
      obtain ⟨next, rest⟩ := ofNat_append_injective ends ends' (List.cons.inj same).2
      exact ⟨congrArg Int.negSucc (Nat.succ.inj next), rest⟩

/-! ## Numbers of a fixed width -/

theorem padNat_eq_ofDigits (width n : Nat) :
    padNat width n =
      ofDigits (List.replicate (width - (decimalDigits n).length) 0 ++ decimalDigits n) := by
  rw [padNat, ofNat_eq_ofDigits, ofDigits_append, length_ofDigits]
  congr 1
  simp only [ofDigits, List.map_replicate]
  rfl

/-- A padded number is some digits that stand for it. -/
theorem padNat_digits (width n : Nat) :
    ∃ ds, padNat width n = ofDigits ds ∧ (∀ d ∈ ds, d < 10) ∧ digitsValue ds = n ∧
      ds.length = width - (decimalDigits n).length + (decimalDigits n).length := by
  refine ⟨_, padNat_eq_ofDigits width n, fun d mem => ?_, ?_, ?_⟩
  · rcases List.mem_append.mp mem with zero | mem
    · rw [List.eq_of_mem_replicate zero]
      decide
    · exact lt_ten_of_mem_decimalDigits mem
  · rw [digitsValue_replicate_zero, digitsValue_decimalDigits]
  · rw [List.length_append, List.length_replicate]

theorem padNat_one {n : Nat} (h : n < 10) : padNat 1 n = [CodePoint.ofChar n.digitChar] := by
  rw [padNat_eq_ofDigits, decimalDigits_of_lt h]
  rfl

/-- One place more is one digit more at the end. -/
theorem padNat_succ (width n : Nat) (positive : 0 < width) :
    padNat (width + 1) n = padNat width (n / 10) ++ [CodePoint.ofChar (n % 10).digitChar] := by
  by_cases small : n < 10
  · have tens : n / 10 = 0 := by omega
    have units : n % 10 = n := by omega
    rw [padNat_eq_ofDigits, padNat_eq_ofDigits, tens, units, decimalDigits_of_lt small,
      decimalDigits_of_lt (by omega)]
    obtain ⟨k, rfl⟩ : ∃ k, width = k + 1 := ⟨width - 1, by omega⟩
    simp [List.replicate_succ', ofDigits]
  · have longer : (decimalDigits n).length = (decimalDigits (n / 10)).length + 1 := by
      rw [decimalDigits_of_ge (by omega)]
      simp
    rw [padNat_eq_ofDigits, padNat_eq_ofDigits, longer, decimalDigits_of_ge (by omega : 10 ≤ n),
      Nat.add_sub_add_right, ← List.append_assoc, ofDigits_append]
    rfl

theorem padNat_two {n : Nat} (h : n < 100) :
    padNat 2 n = [CodePoint.ofChar (n / 10).digitChar, CodePoint.ofChar (n % 10).digitChar] := by
  rw [padNat_succ 1 n (by decide), padNat_one (by omega)]
  rfl

theorem padNat_four (n : Nat) :
    padNat 4 n = padNat 2 (n / 100) ++ padNat 2 (n % 100) := by
  have hundreds : n / 10 / 10 = n / 100 := by omega
  have tens : n % 100 / 10 = n / 10 % 10 := by omega
  have units : n % 100 % 10 = n % 10 := by omega
  rw [padNat_succ 3 n (by decide), padNat_succ 2 (n / 10) (by decide), hundreds,
    padNat_two (n := n % 100) (by omega), tens, units]
  simp

end Text

end RedGreen
