import RedGreen.Json.Value
import RedGreen.Text.Digit
import RedGreen.Text.Printable

/-!
# Numbers from stored values

Documents that others have edited may hold a number as a text or as a boolean.  The conversions
accept digits of every script, white space around a number and underscores between its digits.
-/

namespace RedGreen

/-- Why a stored value does not become a number. -/
inductive ConversionError where
  | wrongType (kind : Json.Kind)
  /-- A text that writes no number. -/
  | unreadable (t : Text)
  | tooManyDigits (count : Nat)
  | notANumber
  /-- The number is infinite, or too large for a float. -/
  | overflow
  deriving DecidableEq

namespace ConversionError

def reportedLength : Nat := 200

/-- Integers of more digits are not read. -/
def digitLimit : Nat := 4300

/-- The report on a value that should have been an integer. -/
def integerMessage : ConversionError → Text
  | .wrongType kind =>
    ("int() argument must be a string, a bytes-like object or a real number, not '" : Text) ++
      kind.name ++ ("'" : Text)
  | .unreadable t =>
    ("invalid literal for int() with base 10: " : Text) ++ (Text.quoted t).take reportedLength
  | .tooManyDigits count =>
    ("Exceeds the limit (" : Text) ++ Text.ofNat digitLimit ++
      (" digits) for integer string conversion: value has " : Text) ++ Text.ofNat count ++
      (" digits; use sys.set_int_max_str_digits() to increase the limit" : Text)
  | .notANumber => "cannot convert float NaN to integer"
  | .overflow => "cannot convert float infinity to integer"

end ConversionError

namespace Json

/-- The digits of a text without the white space around them.  Information separators are no white
space here, although they count as blanks elsewhere. -/
def numeralOf (t : Text) : Text := (t.trimBy CodePoint.isSpace).asciiDigits

def intOfText (t : Text) : Except ConversionError Int :=
  let (negative, body) := Numeral.readSign (numeralOf t)
  if !Numeral.underscoresBetweenDigits false body then .error (.unreadable t)
  else
    match Text.spanDigits (Numeral.dropUnderscores body) with
    | (d :: ds, []) =>
      if ConversionError.digitLimit < (d :: ds).length then
        .error (.tooManyDigits (d :: ds).length)
      else
        let n : Int := Text.digitsValue (d :: ds)
        .ok (if negative then -n else n)
    | _ => .error (.unreadable t)

def floatOfText? (t : Text) : Option Binary64 :=
  let body := numeralOf t
  if !Numeral.underscoresBetweenDigits false body then none
  else Numeral.readFloat? (Numeral.dropUnderscores body)

/-- A value as an integer; what is behind a point is cut off. -/
def toInt : Json → Except ConversionError Int
  | .int i => .ok i
  | .bool b => .ok (if b then 1 else 0)
  | .float (.infinite _) => .error .overflow
  | .float x =>
    match x.truncate? with
    | some i => .ok i
    | none => .error .notANumber
  | .str t => intOfText t
  | .null => .error (.wrongType .null)
  | .arr _ => .error (.wrongType .arr)
  | .obj _ => .error (.wrongType .obj)

/-- A number that was found, or the error that there is none. -/
def floatOr (e : ConversionError) : Option Binary64 → Except ConversionError Binary64
  | some x => .ok x
  | none => .error e

def toFloat : Json → Except ConversionError Binary64
  | .int i => floatOr .overflow (Binary64.ofInt? i)
  | .bool b => .ok (if b then .ofNat 1 else .zero)
  | .float x => .ok x
  | .str t => floatOr (.unreadable t) (floatOfText? t)
  | .null => .error (.wrongType .null)
  | .arr _ => .error (.wrongType .arr)
  | .obj _ => .error (.wrongType .obj)

end Json

end RedGreen
