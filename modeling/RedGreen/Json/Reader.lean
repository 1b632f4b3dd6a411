import RedGreen.Json.Value

/-!
# Reading JSON

The reader accepts standard JSON and three names for numbers that are not finite.  It keeps
unpaired surrogate escapes, takes the last of several members with one name, and refuses
control characters inside strings.  Every reader gets a text and returns a value together with
the text that follows it; an error carries the number of code points that were left, from
which its position is worked out at the end.
-/

namespace RedGreen

namespace Json

/-- What a reader expected and did not find, or found and refused. -/
inductive Fault where
  | value
  | memberName
  | colon
  | comma
  | extraData
  | unterminatedString
  | controlCharacter
  | escape
  | unicodeEscape
  | byteOrderMark
  deriving DecidableEq

/-- A place in a text: the number of code points before it, its line and its column. -/
structure Position where
  offset : Nat
  line : Nat
  column : Nat
  deriving DecidableEq

inductive ReadError where
  /-- The text is no JSON. -/
  | malformed (fault : Fault) (position : Position)
  | tooManyDigits (count : Nat)
  | tooDeep
  deriving DecidableEq

namespace Fault

def message : Fault → Text
  | .value => "Expecting value"
  | .memberName => "Expecting property name enclosed in double quotes"
  | .colon => "Expecting ':' delimiter"
  | .comma => "Expecting ',' delimiter"
  | .extraData => "Extra data"
  | .unterminatedString => "Unterminated string starting at"
  | .controlCharacter => "Invalid control character at"
  | .escape => "Invalid \\escape"
  | .unicodeEscape => "Invalid \\uXXXX escape"
  | .byteOrderMark => "Unexpected UTF-8 BOM (decode using utf-8-sig)"

end Fault

/-- Integers of more digits are not converted. -/
def digitLimit : Nat := 4300

/-- Containers may be nested this deeply. -/
def depthLimit : Nat := 985

namespace ReadError

def message : ReadError → Text
  | .malformed fault p =>
    fault.message ++ (": line " : Text) ++ Text.ofNat p.line ++ (" column " : Text) ++
      Text.ofNat p.column ++ (" (char " : Text) ++ Text.ofNat p.offset ++ (")" : Text)
  | .tooManyDigits count =>
    ("Exceeds the limit (" : Text) ++ Text.ofNat digitLimit ++
      (" digits) for integer string conversion: value has " : Text) ++ Text.ofNat count ++
      (" digits; use sys.set_int_max_str_digits() to increase the limit" : Text)
  | .tooDeep => "maximum recursion depth exceeded while decoding a JSON document"

end ReadError

/-- An error inside a text, `left` code points before its end. -/
inductive Stop where
  | fault (fault : Fault) (left : Nat)
  | tooManyDigits (count : Nat)
  | tooDeep

abbrev Reading (α : Type) := Except Stop (α × Text)

def isGap (c : CodePoint) : Bool :=
  c.val == 0x20 || c.val == 0x09 || c.val == 0x0A || c.val == 0x0D

def skipGap (t : Text) : Text := t.dropWhile isGap

/-! ## Strings -/

/-- Four hexadecimal digits at the start of a text, and what follows them. -/
def readHex4? : Text → Option (Nat × Text)
  | a :: b :: c :: d :: t =>
    match a.hexDigit?, b.hexDigit?, c.hexDigit?, d.hexDigit? with
    | some a, some b, some c, some d => some (((a * 16 + b) * 16 + c) * 16 + d, t)
    | _, _, _, _ => none
  | _ => none

def isHighHalf (n : Nat) : Bool := 0xD800 ≤ n && n ≤ 0xDBFF

def isLowHalf (n : Nat) : Bool := 0xDC00 ≤ n && n ≤ 0xDFFF

def joinHalves (high low : Nat) : CodePoint :=
  .ofNat (0x10000 + (high - 0xD800) * 0x400 + (low - 0xDC00))

def plainEscape? (c : CodePoint) : Option CodePoint :=
  if c = '"' ∨ c = '\\' ∨ c = '/' then some c
  else if c = 'b' then some (.ofNat 0x08)
  else if c = 'f' then some (.ofNat 0x0C)
  else if c = 'n' then some (.ofNat 0x0A)
  else if c = 'r' then some (.ofNat 0x0D)
  else if c = 't' then some (.ofNat 0x09)
  else none

/-- The low half that follows a high half, when it is escaped too and the text goes on. -/
def pairedHalf? : Text → Except Stop (Option (Nat × Text))
  | a :: b :: t =>
    if a = '\\' ∧ b = 'u' ∧ 4 < t.length then
      match readHex4? t with
      | some (low, rest) => .ok (if isLowHalf low then some (low, rest) else none)
      | none => .error (.fault .unicodeEscape (t.length + 1))
    else .ok none
  | _ => .ok none

/-- The code point of a `u` escape whose letter has been read. -/
def readUnicodeEscape (t : Text) : Reading CodePoint :=
  if t.length ≤ 4 then .error (.fault .unicodeEscape (t.length + 1))
  else match readHex4? t with
    | none => .error (.fault .unicodeEscape (t.length + 1))
    | some (n, rest) =>
      if isHighHalf n then
        match pairedHalf? rest with
        | .error e => .error e
        | .ok (some (low, rest')) => .ok (joinHalves n low, rest')
        | .ok none => .ok (.ofNat n, rest)
      else .ok (.ofNat n, rest)

/-- The rest of a string up to its closing quote; `opening` code points were left from the
opening quote on.  `fuel` bounds the number of characters. -/
def readString (opening : Nat) : (fuel : Nat) → Text → Reading Text
  | 0, _ => .error (.fault .unterminatedString opening)
  | _ + 1, [] => .error (.fault .unterminatedString opening)
  | fuel + 1, c :: t =>
    if c = '"' then .ok ([], t)
    else if c = '\\' then
      match t with
      | [] => .error (.fault .unterminatedString opening)
      | e :: u =>
        if e = 'u' then
          match readUnicodeEscape u with
          | .error stop => .error stop
          | .ok (point, rest) => (readString opening fuel rest).map fun r => (point :: r.1, r.2)
        else match plainEscape? e with
          | some point => (readString opening fuel u).map fun r => (point :: r.1, r.2)
          | none => .error (.fault .escape (t.length + 1))
    else if c.val ≤ 0x1F then .error (.fault .controlCharacter (t.length + 1))
    else (readString opening fuel t).map fun r => (c :: r.1, r.2)

/-! ## Numbers -/

/-- The exponent at the start of a text, when it has digits. -/
def readExponent? : Text → Option (Int × Text)
  | [] => none
  | c :: t =>
    if c = 'e' ∨ c = 'E' then
      let (negative, body) := Numeral.readSign t
      match Text.spanDigits body with
      | ([], _) => none
      | (digits, rest) =>
        let n := Text.digitsValue digits
        some (if negative then -(n : Int) else n, rest)
    else none

/-- The digits behind a point at the start of a text, when there are any. -/
def readFraction? : Text → Option (List Nat × Text)
  | [] => none
  | c :: t =>
    if c = '.' then
      match Text.spanDigits t with
      | ([], _) => none
      | (digits, rest) => some (digits, rest)
    else none

/-- The digits of an integer: a lone zero, or digits that start with no zero. -/
def readWhole? (t : Text) : Option (List Nat × Text) :=
  match Text.spanDigits t with
  | ([], _) => none
  | (0 :: _, _) => some ([0], t.drop 1)
  | (digits, rest) => some (digits, rest)

def readNumber? (t : Text) : Option (Reading Json) :=
  let (negative, body) := match t with
    | c :: u => if c = '-' then (true, u) else (false, t)
    | [] => (false, t)
  (readWhole? body).map fun (whole, afterWhole) =>
    let (fraction?, afterFraction) := match readFraction? afterWhole with
      | some (digits, rest) => (some digits, rest)
      | none => (none, afterWhole)
    let (exponent?, rest) := match readExponent? afterFraction with
      | some (e, rest) => (some e, rest)
      | none => (none, afterFraction)
    match fraction?, exponent? with
    | none, none =>
      if digitLimit < whole.length then .error (.tooManyDigits whole.length)
      else
        let n := Text.digitsValue whole
        .ok (.int (if negative then -(n : Int) else n), rest)
    | fraction?, exponent? =>
      let u : Numeral.Unsigned := ⟨whole, fraction?.getD [], exponent?.getD 0⟩
      .ok (.float (u.value negative), rest)

/-! ## Values -/

def literals : List (Text × Json) :=
  [("null", .null), ("true", .bool true), ("false", .bool false), ("NaN", .float .notANumber),
   ("Infinity", .float (.infinite false)), ("-Infinity", .float (.infinite true))]

def readLiteral? (t : Text) : Option (Json × Text) :=
  literals.findSome? fun (name, value) => (Text.dropLead? name t).map fun rest => (value, rest)

def readScalar (t : Text) : Reading Json :=
  match readLiteral? t with
  | some r => .ok r
  | none =>
    match readNumber? t with
    | some r => r
    | none => .error (.fault .value t.length)

mutual

/-- A value at the start of a text; `depth` more containers may open. -/
def readValue : (fuel depth : Nat) → Text → Reading Json
  | 0, _, _ => .error .tooDeep
  | _ + 1, _, [] => .error (.fault .value 0)
  | fuel + 1, depth, c :: t =>
    if c = '"' then (readString (t.length + 1) (t.length + 1) t).map fun r => (.str r.1, r.2)
    else if c = '\x7b' then
      match depth with
      | 0 => .error .tooDeep
      | depth + 1 =>
        match skipGap t with
        | [] => .error (.fault .memberName 0)
        | d :: u =>
          if d = '\x7d' then .ok (.obj [], u)
          else (readMembers fuel depth (d :: u)).map fun r => (.obj (Members.ofList r.1), r.2)
    else if c = '[' then
      match depth with
      | 0 => .error .tooDeep
      | depth + 1 =>
        match skipGap t with
        | [] => .error (.fault .value 0)
        | d :: u =>
          if d = ']' then .ok (.arr [], u)
          else (readItems fuel depth (d :: u)).map fun r => (.arr r.1, r.2)
    else readScalar (c :: t)

/-- The items of an array from the first one that has not been read, up to the bracket. -/
def readItems : (fuel depth : Nat) → Text → Reading (List Json)
  | 0, _, _ => .error .tooDeep
  | fuel + 1, depth, t =>
    match readValue fuel depth t with
    | .error stop => .error stop
    | .ok (item, rest) =>
      match skipGap rest with
      | [] => .error (.fault .comma 0)
      | c :: u =>
        if c = ']' then .ok ([item], u)
        else if c = ',' then
          (readItems fuel depth (skipGap u)).map fun r => (item :: r.1, r.2)
        else .error (.fault .comma (u.length + 1))

/-- The members of an object from the first one that has not been read, up to the brace. -/
def readMembers : (fuel depth : Nat) → Text → Reading (List (Text × Json))
  | 0, _, _ => .error .tooDeep
  | _ + 1, _, [] => .error (.fault .memberName 0)
  | fuel + 1, depth, c :: t =>
    if c = '"' then
      match readString (t.length + 1) (t.length + 1) t with
      | .error stop => .error stop
      | .ok (name, afterName) =>
        match skipGap afterName with
        | [] => .error (.fault .colon 0)
        | d :: u =>
          if d = ':' then
            match readValue fuel depth (skipGap u) with
            | .error stop => .error stop
            | .ok (value, rest) =>
              match skipGap rest with
              | [] => .error (.fault .comma 0)
              | e :: v =>
                if e = '\x7d' then .ok ([(name, value)], v)
                else if e = ',' then
                  (readMembers fuel depth (skipGap v)).map fun r => ((name, value) :: r.1, r.2)
                else .error (.fault .comma (v.length + 1))
          else .error (.fault .colon (u.length + 1))
    else .error (.fault .memberName (t.length + 1))

end

/-- The place `left` code points before the end of a text. -/
def Position.of (t : Text) (left : Nat) : Position :=
  let before := t.take (t.length - left)
  { offset := before.length
    line := before.countP (fun c => c.val == 0x0A) + 1
    column := (before.reverse.takeWhile fun c => c.val != 0x0A).length + 1 }

def ReadError.of (t : Text) : Stop → ReadError
  | .fault fault left => .malformed fault (Position.of t left)
  | .tooManyDigits count => .tooManyDigits count
  | .tooDeep => .tooDeep

/-- The value that fills a whole text, gaps around it apart. -/
def read (t : Text) : Except ReadError Json :=
  match t with
  | [] => .error (.malformed .value (Position.of t 0))
  | c :: _ =>
    if c.val = 0xFEFF then .error (.malformed .byteOrderMark (Position.of t t.length))
    else
      match readValue (2 * t.length + 2) depthLimit (skipGap t) with
      | .error stop => .error (ReadError.of t stop)
      | .ok (value, rest) =>
        match skipGap rest with
        | [] => .ok value
        | d :: u => .error (.malformed .extraData (Position.of t (d :: u).length))

end Json

end RedGreen
