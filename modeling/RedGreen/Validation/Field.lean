import RedGreen.Validation.Issue
import RedGreen.Json.Value

/-!
# Fields of documents

Each check takes a JSON value and either accepts it as a value of the field's type or names the
problem.  The checks are lenient: integers and booleans are also read from numbers and texts,
times also from numbers, but nothing is rounded or cut to fit.
-/

namespace RedGreen

namespace Field

def text : Json → Checked Text
  | .str t => .accept t
  | _ => .reject .stringType

/-- A text with at least one character. -/
def nonEmptyText (v : Json) : Checked Text :=
  (text v).andThen fun t =>
    if ¬ t.IsScalar then .reject .stringUnicode
    else if t.isEmpty then .reject .stringTooShort
    else .accept t

/-! ## Integers -/

/-- Zeros and underscores in front of the digits of an integer are dropped; a zero directly
before a point or at the end is kept. -/
def dropLeadingZeros? : Text → Option Text
  | [] => none
  | c :: t =>
    if c = '0' then go [c] t
    else if c = '-' ∨ CodePoint.between 0x31 0x39 c then some (c :: t)
    else none
where
  /-- `last` is the code point before the text. -/
  go (last : Text) : Text → Option Text
    | [] => some last
    | c :: t =>
      if c = '0' ∨ c = '_' then go [c] t
      else if CodePoint.between 0x31 0x39 c then some (c :: t)
      else if c = '.' then some (last ++ c :: t)
      else none

/-- A point followed by zeros alone is dropped. -/
def dropZeroFraction (t : Text) : Text :=
  match Text.cut? '.' t with
  | some (whole, fraction) =>
    if !fraction.isEmpty && fraction.all (fun c => decide (c = CodePoint.ofChar '0')) then whole
    else t
  | none => t

/-- Whether underscores stand neither at an end of the text nor side by side. -/
def underscoresApart (t : Text) : Bool :=
  go true t
where
  go (afterUnderscore : Bool) : Text → Bool
    | [] => !afterUnderscore
    | c :: t =>
      if c = '_' then !afterUnderscore && go true t else go false t

/-- Underscores are dropped where they are allowed. -/
def dropUnderscores (t : Text) : Text :=
  if underscoresApart t then Numeral.dropUnderscores t else t

/-- An integer without leading zeros that fills the whole text. -/
def readPlainInt? (t : Text) : Option Int :=
  let (negative, body) := match t with
    | c :: u => if c = '-' then (true, u) else (false, t)
    | [] => (false, t)
  match Text.spanDigits body with
  | ([0], []) => some 0
  | (0 :: _, _) => none
  | (d :: ds, []) =>
    let n : Int := Text.digitsValue (d :: ds)
    some (if negative then -n else n)
  | _ => none

def dropPlus? (t : Text) : Option Text :=
  match t with
  | c :: u => if c = '+' then (if Text.startsWith u "-" then none else some u) else some t
  | [] => some t

/-- An integer written with blanks around it, a plus sign, leading zeros, underscores or a
fraction of zeros. -/
def readInt? (t : Text) : Option Int :=
  match readPlainInt? t with
  | some i => some i
  | none => do
    let t ← dropPlus? (t.trimBy CodePoint.isSpace)
    let t ← dropLeadingZeros? t
    readPlainInt? (dropUnderscores (dropZeroFraction t))

/-- Floats up to here are taken as integers. -/
def intBound : Nat := twoTo 63

def int : Json → Checked Int
  | .int i => .accept i
  | .bool b => .accept (if b then 1 else 0)
  | .float x =>
    match x.truncate? with
    | none => .reject .finiteNumber
    | some i =>
      if !x.isIntegral then .reject .intFromFloat
      else if i.natAbs < intBound then .accept i
      else .reject .intParsingSize
  | .str t =>
    if 4300 < t.length then .reject .intParsingSize
    else match readInt? t with
      | some i => .accept i
      | none => .reject .intParsing
  | _ => .reject .intType

/-- An integer that is at least `least`. -/
def intFrom (least : Nat) (v : Json) : Checked Int :=
  (int v).andThen fun i => if (least : Int) ≤ i then .accept i else .reject (.belowLeast least)

/-- An integer from `least` to `greatest`. -/
def intBetween (least greatest : Nat) (v : Json) : Checked Int :=
  (intFrom least v).andThen fun i =>
    if i ≤ (greatest : Int) then .accept i else .reject (.aboveGreatest greatest)

/-- A count: an integer that is not negative. -/
def count (v : Json) : Checked Nat := (intFrom 0 v).map Int.toNat

/-! ## Other numbers -/

/-- A number written with blanks around it or with underscores inside. -/
def readNumber? (t : Text) : Option Binary64 :=
  match Numeral.readFloat? (t.trimBy CodePoint.isSpace) with
  | some x => some x
  | none =>
    if t.contains (CodePoint.ofChar '_') && underscoresApart t then
      Numeral.readFloat? (Numeral.dropUnderscores t)
    else none

def number : Json → Checked Binary64
  | .float x => .accept x
  | .int i => .ofOption .floatType (Binary64.ofInt? i)
  | .bool b => .accept (if b then .ofNat 1 else .zero)
  | .str t => .ofOption .floatParsing (readNumber? t)
  | _ => .reject .floatType

/-- A number that is not negative; what is no number is refused too. -/
def numberFromZero (v : Json) : Checked Binary64 :=
  (number v).andThen fun x =>
    if Binary64.le .zero x then .accept x else .reject (.belowLeast 0)

def numberAboveZero (v : Json) : Checked Binary64 :=
  (number v).andThen fun x =>
    if Binary64.lt .zero x then .accept x else .reject (.notAbove 0)

/-! ## Booleans -/

def trueNames : List Text := ["1", "on", "t", "true", "y", "yes"]

def falseNames : List Text := ["0", "off", "f", "false", "n", "no"]

def boolOfInt (i : Int) : Checked Bool :=
  if i = 0 then .accept false else if i = 1 then .accept true else .reject .boolParsing

def bool : Json → Checked Bool
  | .bool b => .accept b
  | .str t =>
    let name := t.toLowerAscii
    if name.isOneOf trueNames then .accept true
    else if name.isOneOf falseNames then .accept false
    else .reject .boolParsing
  | .int i => if i.natAbs < intBound then boolOfInt i else .reject .boolType
  | .float x =>
    match x.truncate? with
    | none => .reject .boolType
    | some i =>
      if x.isIntegral && decide (i.natAbs < intBound) then boolOfInt i else .reject .boolType
  | _ => .reject .boolType

/-! ## Times -/

/-- A time from a text in one of the notations, or from a count of seconds. -/
def dateTime : Json → Checked DateTime
  | .str t =>
    if ¬ t.IsScalar then .reject .stringUnicode
    else match DateTime.read t with
      | .ok stamp => .accept stamp
      | .error fault => .reject (.dateTime fault)
  | .int i =>
    match Binary64.ofInt? i, DateTime.ofCount? i 0 with
    | _, some stamp => .accept stamp
    | some _, none => .reject (.dateTime .parsing)
    | none, none => .reject (.dateTime .type)
  | .float x =>
    match DateTime.ofNumber? x with
    | some stamp => .accept stamp
    | none => .reject (.dateTime .parsing)
  | _ => .reject (.dateTime .type)

/-- A time on a UTC clock. -/
def utc (v : Json) : Checked DateTime :=
  (dateTime v).andThen fun stamp =>
    match stamp.toUtc? with
    | some stamp => .accept stamp
    | none => .overflow

def duration : Json → Checked Duration
  | .str t =>
    if ¬ t.IsScalar then .reject .stringUnicode
    else match Duration.read? t with
      | some d => .accept d
      | none => .reject .durationParsing
  | .int i =>
    match Binary64.ofInt? i, Duration.ofIntSeconds? i with
    | _, some d => .accept d
    | some _, none => .reject .durationParsing
    | none, none => .reject .durationType
  | .bool b => .accept (if b then ⟨1000000, by decide, by decide⟩ else .zero)
  | .float x =>
    match Duration.ofNumber? x with
    | some d => .accept d
    | none => .reject .durationParsing
  | _ => .reject .durationType

/-! ## Containers -/

/-- The items of a list, each checked, with its index on the path. -/
def itemsFrom (check : Json → Checked α) (index : Nat) : List Json → Checked (List α)
  | [] => .accept []
  | v :: vs =>
    (((check v).under (.index index)).both fun _ => itemsFrom check (index + 1) vs).map
      fun p => p.1 :: p.2

def list (check : Json → Checked α) : Json → Checked (List α)
  | .arr items => itemsFrom check 0 items
  | _ => .reject .listType

def members : Json → Checked Json.Members
  | .obj members => .accept members
  | _ => .reject .dictType

/-- A value or `null`. -/
def orNull (check : Json → Checked α) : Json → Checked (Option α)
  | .null => .accept none
  | v => (check v).map some

/-! ## Members of documents -/

def required (name : Text) (check : Json → Checked α) (document : Json.Members) : Checked α :=
  match document.get? name with
  | some v => (check v).under (.name name)
  | none => (Checked.reject .missing).under (.name name)

/-- The value under a name, or a default where there is none. -/
def optional (name : Text) (default : α) (check : Json → Checked α) (document : Json.Members) :
    Checked α :=
  match document.get? name with
  | some v => (check v).under (.name name)
  | none => .accept default

def model (name : Text) : Json → Checked Json.Members
  | .obj members => .accept members
  | _ => .reject (.modelType name)

end Field

end RedGreen
