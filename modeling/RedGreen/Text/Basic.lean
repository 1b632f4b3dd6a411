/-!
# Text as code points

Commit messages, branch names and journal lines are sequences of Unicode code points.  A
JSON escape may name one half of a surrogate pair without the other, so a text is allowed to
hold such a half; `CodePoint.IsScalar` singles out the code points that an encoded text can
contain.  A text is a plain list, so every function on it is structural recursion.
-/

namespace RedGreen

/-- A Unicode code point, surrogate halves included. -/
@[ext] structure CodePoint where
  val : Nat
  isLt : val < 0x110000
  deriving DecidableEq

namespace CodePoint

/-- Halves of surrogate pairs are code points of no character. -/
def IsScalar (c : CodePoint) : Prop := c.val < 0xD800 ∨ 0xDFFF < c.val

instance (c : CodePoint) : Decidable c.IsScalar :=
  inferInstanceAs (Decidable (_ ∨ _))

def ofChar (c : Char) : CodePoint :=
  ⟨c.toNat, by
    have h := c.valid
    simp only [UInt32.isValidChar, Nat.isValidChar] at h
    show c.val.toNat < 0x110000
    omega⟩

instance : Coe Char CodePoint := ⟨ofChar⟩

/-- The code point with number `n`; numbers beyond the last code point stand for U+FFFD. -/
def ofNat (n : Nat) : CodePoint :=
  if h : n < 0x110000 then ⟨n, h⟩ else ⟨0xFFFD, by decide⟩

theorem val_ofNat {n : Nat} (h : n < 0x110000) : (ofNat n).val = n := by
  simp [ofNat, h]

theorem ofNat_val (c : CodePoint) : ofNat c.val = c := by
  simp [ofNat, c.isLt]

/-- The sign that stands for undecodable bytes. -/
def replacement : CodePoint := ⟨0xFFFD, by decide⟩

/-- Inclusive range test on code point numbers. -/
def between (lo hi : Nat) (c : CodePoint) : Bool := lo ≤ c.val && c.val ≤ hi

/-- The value of an ASCII digit. -/
def digit? (c : CodePoint) : Option Nat :=
  if 0x30 ≤ c.val ∧ c.val ≤ 0x39 then some (c.val - 0x30) else none

def isDigit (c : CodePoint) : Bool := c.digit?.isSome

def hexDigit? (c : CodePoint) : Option Nat :=
  if 0x30 ≤ c.val ∧ c.val ≤ 0x39 then some (c.val - 0x30)
  else if 0x61 ≤ c.val ∧ c.val ≤ 0x66 then some (c.val - 0x61 + 10)
  else if 0x41 ≤ c.val ∧ c.val ≤ 0x46 then some (c.val - 0x41 + 10)
  else none

/-- ASCII capitals become small letters; all else stays. -/
def toLowerAscii (c : CodePoint) : CodePoint :=
  if 0x41 ≤ c.val ∧ c.val ≤ 0x5A then ofNat (c.val + 0x20) else c

/-- ASCII small letters become capitals; all else stays. -/
def toUpperAscii (c : CodePoint) : CodePoint :=
  if 0x61 ≤ c.val ∧ c.val ≤ 0x7A then ofNat (c.val - 0x20) else c

/-- The digit that stands for a number below sixteen, in small letters. -/
def hexDigit (n : Nat) : CodePoint :=
  if n < 10 then ofNat (0x30 + n) else ofNat (0x57 + n)

end CodePoint

/-- A sequence of code points. -/
abbrev Text := List CodePoint

namespace Text

def ofString (s : String) : Text := s.toList.map CodePoint.ofChar

instance : Coe String Text := ⟨ofString⟩

/-- The text as a string, with U+FFFD in place of surrogate halves. -/
def toString (t : Text) : String :=
  String.ofList (t.map fun c => Char.ofNat (if c.IsScalar then c.val else 0xFFFD))

/-- Only code points that an encoded text can contain. -/
def IsScalar (t : Text) : Prop := ∀ c ∈ t, c.IsScalar

instance (t : Text) : Decidable t.IsScalar :=
  inferInstanceAs (Decidable (∀ c ∈ t, c.IsScalar))

/-- What follows `lead` in `t`, when `t` starts with it. -/
def dropLead? : (lead t : Text) → Option Text
  | [], t => some t
  | _ :: _, [] => none
  | p :: lead, c :: t => if p = c then dropLead? lead t else none

def startsWith (t lead : Text) : Bool := (dropLead? lead t).isSome

theorem dropLead?_eq_some_iff {lead t rest : Text} :
    dropLead? lead t = some rest ↔ t = lead ++ rest := by
  induction lead generalizing t with
  | nil => simp [dropLead?]
  | cons p lead ih =>
    cases t with
    | nil => simp [dropLead?]
    | cons c t =>
      by_cases h : p = c
      · simp [dropLead?, h, ih]
      · simp [dropLead?, h, Ne.symm h]

theorem startsWith_iff {t lead : Text} : t.startsWith lead = true ↔ ∃ rest, t = lead ++ rest := by
  simp [startsWith, Option.isSome_iff_exists, dropLead?_eq_some_iff]

/-- What precedes `tail` in `t`, when `t` ends with it. -/
def dropTail? (tail t : Text) : Option Text :=
  (dropLead? tail.reverse t.reverse).map List.reverse

def endsWith (t tail : Text) : Bool := (dropTail? tail t).isSome

theorem dropTail?_eq_some_iff {tail t front : Text} :
    dropTail? tail t = some front ↔ t = front ++ tail := by
  simp only [dropTail?, Option.map_eq_some_iff, dropLead?_eq_some_iff]
  constructor
  · rintro ⟨r, h, rfl⟩
    have := congrArg List.reverse h
    simpa using this
  · rintro rfl
    exact ⟨front.reverse, by simp, by simp⟩

/-- The pieces of `t` between occurrences of `sep`; there is one more piece than there are
separators. -/
def splitOn (sep : CodePoint) : Text → List Text
  | [] => [[]]
  | c :: t =>
    if c = sep then [] :: splitOn sep t
    else match splitOn sep t with
      | [] => [[c]]
      | piece :: pieces => (c :: piece) :: pieces

/-- The part before the first occurrence of `sep` and the part after it. -/
def cutAt? (sep : Text) : Text → Option (Text × Text)
  | [] => if sep.isEmpty then some ([], []) else none
  | c :: t =>
    match dropLead? sep (c :: t) with
    | some rest => some ([], rest)
    | none => (cutAt? sep t).map fun p => (c :: p.1, p.2)

/-- The pieces joined with `sep` between them. -/
def join (sep : Text) : List Text → Text
  | [] => []
  | [t] => t
  | t :: ts => t ++ sep ++ join sep ts

/-- The part before the first `sep` and the part after it. -/
def cut? (sep : CodePoint) : Text → Option (Text × Text)
  | [] => none
  | c :: t => if c = sep then some ([], t) else (cut? sep t).map fun p => (c :: p.1, p.2)

/-- The part before the last `sep` and the part after it. -/
def cutLast? (sep : CodePoint) (t : Text) : Option (Text × Text) :=
  (cut? sep t.reverse).map fun p => (p.2.reverse, p.1.reverse)

/-- Every occurrence of one code point becomes another. -/
def replaceEach (old new : CodePoint) (t : Text) : Text :=
  t.map fun c => if c = old then new else c

def toLowerAscii (t : Text) : Text := t.map CodePoint.toLowerAscii

def toUpperAscii (t : Text) : Text := t.map CodePoint.toUpperAscii

def isOneOf (t : Text) (options : List Text) : Bool := options.any fun o => decide (o = t)

/-- Order by code point numbers, the shorter of two texts first when it leads the longer. -/
def less : Text → Text → Bool
  | [], [] => false
  | [], _ :: _ => true
  | _ :: _, [] => false
  | a :: s, b :: t => if a.val = b.val then less s t else a.val < b.val

/-- Decimal digits, without sign or leading zeros. -/
def ofNat (n : Nat) : Text := (Nat.toDigits 10 n).map CodePoint.ofChar

def ofInt : Int → Text
  | .ofNat n => ofNat n
  | .negSucc n => CodePoint.ofChar '-' :: ofNat (n + 1)

/-- Decimal digits, filled up with zeros on the left to the given width. -/
def padNat (width n : Nat) : Text :=
  let digits := ofNat n
  List.replicate (width - digits.length) (CodePoint.ofChar '0') ++ digits

def hex : (width : Nat) → Nat → Text
  | 0, _ => []
  | width + 1, n => hex width (n / 16) ++ [CodePoint.hexDigit (n % 16)]

/-- The number that a sequence of decimal digits writes, most significant first. -/
def digitsValue (digits : List Nat) : Nat := digits.foldl (fun n d => 10 * n + d) 0

/-- The digits at the start of a text, and what follows them. -/
def spanDigits : Text → List Nat × Text
  | [] => ([], [])
  | c :: t =>
    match c.digit? with
    | some d => ((d :: (spanDigits t).1), (spanDigits t).2)
    | none => ([], c :: t)

end Text

end RedGreen
