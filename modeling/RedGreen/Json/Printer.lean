import RedGreen.Json.Value
import RedGreen.Text.Printable

/-!
# Writing JSON

Journal lines and requests are written on one line, without blanks and with every character
that needs no escape as it is.  Documents are spread over lines with two blanks for each level
and use ASCII alone.  Messages show values in a third form, with quoted texts.
-/

namespace RedGreen

namespace Json

/-- The escapes that both forms share. -/
def commonEscape? (c : CodePoint) : Option Text :=
  if c = '"' then some "\\\""
  else if c = '\\' then some "\\\\"
  else if c.val = 0x0A then some "\\n"
  else if c.val = 0x0D then some "\\r"
  else if c.val = 0x09 then some "\\t"
  else if c.val = 0x0C then some "\\f"
  else if c.val = 0x08 then some "\\b"
  else none

/-- A `u` escape of a number below `2 ^ 16`. -/
def unitEscape (n : Nat) : Text := ("\\u" : Text) ++ Text.hex 4 n

/-- Control characters are escaped; everything else stands for itself. -/
def escapeRaw (c : CodePoint) : Text :=
  match commonEscape? c with
  | some t => t
  | none => if c.val < 0x20 then unitEscape c.val else [c]

/-- Everything but printable ASCII is escaped, in surrogate pairs beyond U+FFFF. -/
def escapeAscii (c : CodePoint) : Text :=
  match commonEscape? c with
  | some t => t
  | none =>
    if 0x20 ≤ c.val ∧ c.val ≤ 0x7E then [c]
    else if c.val < 0x10000 then unitEscape c.val
    else
      let n := c.val - 0x10000
      unitEscape (0xD800 + n / 0x400) ++ unitEscape (0xDC00 + n % 0x400)

def quoteWith (escape : CodePoint → Text) (t : Text) : Text :=
  CodePoint.ofChar '"' :: t.flatMap escape ++ [CodePoint.ofChar '"']

def boolText (b : Bool) : Text := if b then "true" else "false"

structure Style where
  escape : CodePoint → Text
  numerals : NumeralFormat

def Style.line : Style := ⟨escapeRaw, .journal⟩

def Style.document : Style := ⟨escapeAscii, .document⟩

mutual

/-- A value on one line without blanks. -/
def compact (s : Style) : Json → Text
  | .null => "null"
  | .bool b => boolText b
  | .int i => Text.ofInt i
  | .float x => s.numerals.write x
  | .str t => quoteWith s.escape t
  | .arr items => CodePoint.ofChar '[' :: compactItems s items ++ [CodePoint.ofChar ']']
  | .obj members => CodePoint.ofChar '\x7b' :: compactMembers s members ++ [CodePoint.ofChar '\x7d']

def compactItems (s : Style) : List Json → Text
  | [] => []
  | [v] => compact s v
  | v :: vs => compact s v ++ CodePoint.ofChar ',' :: compactItems s vs

def compactMembers (s : Style) : List (Text × Json) → Text
  | [] => []
  | [(k, v)] => quoteWith s.escape k ++ CodePoint.ofChar ':' :: compact s v
  | (k, v) :: ms =>
    quoteWith s.escape k ++ CodePoint.ofChar ':' :: compact s v ++
      CodePoint.ofChar ',' :: compactMembers s ms

end

/-- A line end and two blanks for each level. -/
def newLine (level : Nat) : Text :=
  CodePoint.ofChar '\n' :: List.replicate (2 * level) (CodePoint.ofChar ' ')

mutual

/-- A value spread over lines, its first line standing at the given level. -/
def indented (s : Style) (level : Nat) : Json → Text
  | .null => "null"
  | .bool b => boolText b
  | .int i => Text.ofInt i
  | .float x => s.numerals.write x
  | .str t => quoteWith s.escape t
  | .arr [] => "[]"
  | .arr (v :: vs) =>
    CodePoint.ofChar '[' :: newLine (level + 1) ++ indented s (level + 1) v ++
      indentedItems s level vs
  | .obj [] => "\x7b\x7d"
  | .obj ((k, v) :: ms) =>
    CodePoint.ofChar '\x7b' :: newLine (level + 1) ++ quoteWith s.escape k ++ (": " : Text) ++
      indented s (level + 1) v ++ indentedMembers s level ms

/-- The items after the first one, and the closing bracket on the line of the level. -/
def indentedItems (s : Style) (level : Nat) : List Json → Text
  | [] => newLine level ++ [CodePoint.ofChar ']']
  | v :: vs =>
    CodePoint.ofChar ',' :: newLine (level + 1) ++ indented s (level + 1) v ++
      indentedItems s level vs

/-- The members after the first one, and the closing brace on the line of the level. -/
def indentedMembers (s : Style) (level : Nat) : List (Text × Json) → Text
  | [] => newLine level ++ [CodePoint.ofChar '\x7d']
  | (k, v) :: ms =>
    CodePoint.ofChar ',' :: newLine (level + 1) ++ quoteWith s.escape k ++ (": " : Text) ++
      indented s (level + 1) v ++ indentedMembers s level ms

end

/-! ## Integers -/

/-- Integers of more digits have no numeral in documents and requests. -/
def numeralLimit : Nat := 4300

mutual

/-- The integers in a value, in the order of writing. -/
def integers : Json → List Int
  | .int i => [i]
  | .arr items => integersOfItems items
  | .obj members => integersOfMembers members
  | .null | .bool _ | .float _ | .str _ => []

def integersOfItems : List Json → List Int
  | [] => []
  | v :: vs => integers v ++ integersOfItems vs

def integersOfMembers : List (Text × Json) → List Int
  | [] => []
  | (_, v) :: ms => integers v ++ integersOfMembers ms

end

def hasNumeral (i : Int) : Bool := decide (i.natAbs < tenTo numeralLimit)

/-- Every integer in a value has a numeral. -/
def hasNumerals (v : Json) : Bool := (integers v).all hasNumeral

/-! ## Documents and messages -/

/-- A document: sorted, spread over lines, ASCII alone. -/
def document (v : Json) : Text := indented .document 0 v.sorted

mutual

/-- A value as messages show it. -/
def display : Json → Text
  | .null => "None"
  | .bool true => "True"
  | .bool false => "False"
  | .int i => Text.ofInt i
  | .float x => NumeralFormat.message.write x
  | .str t => t.quoted
  | .arr items => CodePoint.ofChar '[' :: displayItems items ++ [CodePoint.ofChar ']']
  | .obj members =>
    CodePoint.ofChar '\x7b' :: displayMembers members ++ [CodePoint.ofChar '\x7d']

def displayItems : List Json → Text
  | [] => []
  | [v] => display v
  | v :: vs => display v ++ (", " : Text) ++ displayItems vs

def displayMembers : List (Text × Json) → Text
  | [] => []
  | [(k, v)] => k.quoted ++ (": " : Text) ++ display v
  | (k, v) :: ms =>
    k.quoted ++ (": " : Text) ++ display v ++ (", " : Text) ++ displayMembers ms

end

end Json

end RedGreen
