import RedGreen.Number.Shortest
import RedGreen.Text.Blank

/-!
# Numerals

How numbers are written, and which texts are read as numbers.  A `NumeralFormat` holds the
decisions that differ between the journal and the state files; everything else about writing a
number is the shortest decimal.  Reading a decimal rounds its exact value once.
-/

namespace RedGreen

/-- Where positional notation ends, and how an exponent and the special values are spelled. -/
structure NumeralFormat where
  /-- The least exponent that is written positionally. -/
  leastPositional : Int
  /-- The greatest exponent that is written positionally. -/
  greatestPositional : Int
  exponentWidth : Nat
  infinity : Text
  negativeInfinity : Text
  notANumber : Text

namespace NumeralFormat

/-- Documents: exponents of two digits at least, and names for what is not finite. -/
def document : NumeralFormat :=
  { leastPositional := -4
    greatestPositional := 15
    exponentWidth := 2
    infinity := "Infinity"
    negativeInfinity := "-Infinity"
    notANumber := "NaN" }

/-- Journal lines: short exponents, and `null` for what is not finite. -/
def journal : NumeralFormat :=
  { leastPositional := -5
    greatestPositional := 15
    exponentWidth := 1
    infinity := "null"
    negativeInfinity := "null"
    notANumber := "null" }

/-- Messages: as in documents, but with short names for what is not finite. -/
def message : NumeralFormat :=
  { document with infinity := "inf", negativeInfinity := "-inf", notANumber := "nan" }

/-- Digits with a point behind the first `whole` of them, filled up with zeros. -/
def positional (digits : Text) (exponent : Int) : Text :=
  let zero : CodePoint := '0'
  if exponent < 0 then
    zero :: CodePoint.ofChar '.' :: List.replicate (exponent.natAbs - 1) zero ++ digits
  else
    let whole := exponent.toNat + 1
    let front := digits.take whole ++ List.replicate (whole - digits.length) zero
    let back := digits.drop whole
    front ++ CodePoint.ofChar '.' :: (if back.isEmpty then [zero] else back)

/-- One digit before the point, and the exponent behind the mark `e`. -/
def scientific (width : Nat) (digits : Text) (exponent : Int) : Text :=
  let mantissa : Text :=
    match digits with
    | [] => []
    | [d] => [d]
    | d :: more => d :: CodePoint.ofChar '.' :: more
  let sign : CodePoint := if exponent < 0 then '-' else '+'
  mantissa ++ CodePoint.ofChar 'e' :: sign :: Text.padNat width exponent.natAbs

def writeMagnitude (f : NumeralFormat) (m : Magnitude) : Text :=
  if m.isZero then "0.0"
  else
    let d := Decimal.shortest m
    let digits := Text.ofNat d.digits
    if f.leastPositional ≤ d.exponent ∧ d.exponent ≤ f.greatestPositional then
      positional digits d.exponent
    else scientific f.exponentWidth digits d.exponent

def write (f : NumeralFormat) : Binary64 → Text
  | .finite false m => f.writeMagnitude m
  | .finite true m => CodePoint.ofChar '-' :: f.writeMagnitude m
  | .infinite false => f.infinity
  | .infinite true => f.negativeInfinity
  | .notANumber => f.notANumber

end NumeralFormat

namespace Binary64

/-- A number with a fixed count of decimals, the exact value being rounded half to even. -/
def writeFixed (places : Nat) : Binary64 → Text
  | .finite s m =>
    let scaled := roundHalfEven (m.units * tenTo places) Magnitude.unitsPerOne
    let sign : Text := if s then "-" else []
    let whole := sign ++ Text.ofNat (scaled / tenTo places)
    if places = 0 then whole
    else whole ++ CodePoint.ofChar '.' :: Text.padNat places (scaled % tenTo places)
  | .infinite false => "inf"
  | .infinite true => "-inf"
  | .notANumber => "nan"

/-- The number nearest to `coefficient * 10 ^ exponent`, where the coefficient has at most
`digitCount` digits.  Beyond the four-hundredth power of ten the result is certain. -/
def ofDecimal (negative : Bool) (coefficient digitCount : Nat) (exponent : Int) : Binary64 :=
  if coefficient = 0 then .finite negative .zero
  else if (digitCount : Int) + exponent < -400 then .finite negative .zero
  else if 400 < exponent then .infinite negative
  else if exponent < 0 then ofRatio negative coefficient (tenTo exponent.natAbs)
  else ofRatio negative (coefficient * tenTo exponent.toNat) 1

end Binary64

namespace Numeral

/-- A decimal without its sign: digits before and behind the point, and the exponent. -/
structure Unsigned where
  whole : List Nat
  fraction : List Nat
  exponent : Int

namespace Unsigned

def value (negative : Bool) (u : Unsigned) : Binary64 :=
  let digits := u.whole ++ u.fraction
  Binary64.ofDecimal negative (Text.digitsValue digits) digits.length
    (u.exponent - u.fraction.length)

end Unsigned

/-- The sign at the start of a text, if there is one, and what follows it. -/
def readSign : Text → Bool × Text
  | [] => (false, [])
  | c :: t =>
    if c = '-' then (true, t) else if c = '+' then (false, t) else (false, c :: t)

def readExponent? (t : Text) : Option Int :=
  let (negative, rest) := readSign t
  match Text.spanDigits rest with
  | ([], _) => none
  | (digits, []) =>
    let n := Text.digitsValue digits
    some (if negative then -(n : Int) else n)
  | (_, _ :: _) => none

/-- What may follow the digits of a decimal: nothing, or an exponent. -/
def readTail? : Text → Option Int
  | [] => some 0
  | c :: t => if c = 'e' ∨ c = 'E' then readExponent? t else none

/-- A decimal that fills the whole text; digits may be missing on one side of the point. -/
def readUnsigned? (t : Text) : Option Unsigned :=
  let (whole, rest) := Text.spanDigits t
  match rest with
  | c :: rest' =>
    if c = '.' then
      let (fraction, tail) := Text.spanDigits rest'
      if whole.isEmpty && fraction.isEmpty then none
      else (readTail? tail).map fun e => ⟨whole, fraction, e⟩
    else if whole.isEmpty then none
    else (readTail? rest).map fun e => ⟨whole, [], e⟩
  | [] => if whole.isEmpty then none else some ⟨whole, [], 0⟩

/-- A number that fills the whole text: a decimal, or the name of an infinity or of the value
that is no number, in any case of letters. -/
def readFloat? (t : Text) : Option Binary64 :=
  let (negative, body) := readSign t
  let name := body.toLowerAscii
  if name = Text.ofString "inf" ∨ name = Text.ofString "infinity" then some (.infinite negative)
  else if name = Text.ofString "nan" then some .notANumber
  else (readUnsigned? body).map (Unsigned.value negative)

/-- Whether every underscore stands between two digits. -/
def underscoresBetweenDigits : (previousDigit : Bool) → Text → Bool
  | _, [] => true
  | previousDigit, c :: t =>
    if c = '_' then
      previousDigit && (match t with | d :: _ => d.isDigit | [] => false) &&
        underscoresBetweenDigits false t
    else underscoresBetweenDigits c.isDigit t

def dropUnderscores (t : Text) : Text := t.filter fun c => decide (c ≠ CodePoint.ofChar '_')

end Numeral

end RedGreen
