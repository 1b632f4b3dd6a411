import RedGreen.Text.Blank

/-!
# Files of variables

A file of variables has one binding a line: a name, an equals sign and a value, which may be
quoted and may then go over several lines.  Comments start with a number sign.  A line that is
no binding is passed over.  References to variables in values are replaced in the end.
-/

namespace RedGreen

namespace Dotenv

/-- A variable, and its value unless only the name is given. -/
abbrev Binding := Text × Option Text

/-- Every way to end a line becomes a line feed. -/
def unifyLineEnds : Text → Text
  | [] => []
  | c :: t =>
    if c = '\r' then
      match t with
      | [] => [CodePoint.ofChar '\n']
      | d :: u =>
        if d = '\n' then d :: unifyLineEnds u
        else CodePoint.ofChar '\n' :: unifyLineEnds (d :: u)
    else c :: unifyLineEnds t

def isLineEnd (c : CodePoint) : Bool := c = '\n'

def isInside (c : CodePoint) : Bool := !isLineEnd c

/-- White space inside a line. -/
def isInline (c : CodePoint) : Bool := c.isBlank && isInside c

def skipInline (t : Text) : Text := t.dropWhile isInline

def nextLine (t : Text) : Text := (t.dropWhile isInside).drop 1

/-- A piece of a line and what follows it, or the place where the line turns out to be no
binding. -/
abbrev Reading (α : Type) := Except Text (α × Text)

/-! ## Values -/

/-- The text up to the closing quote, and what follows it.  A quote behind a backslash does not
close, unless no other quote does. -/
def readQuoted? (quote : CodePoint) : Text → Option (Text × Text)
  | [] => none
  | c :: t =>
    if c = quote then some ([], t)
    else if c = '\\' then
      match t with
      | d :: u =>
        if d = quote then
          match readQuoted? quote u with
          | some (value, rest) => some (c :: d :: value, rest)
          | none => some ([c], u)
        else (readQuoted? quote (d :: u)).map fun p => (c :: p.1, p.2)
      | [] => none
    else (readQuoted? quote t).map fun p => (c :: p.1, p.2)

/-- What a backslash and a letter stand for inside double quotes. -/
def doubleEscape? (c : CodePoint) : Option CodePoint :=
  if c = '\\' ∨ c = '\'' ∨ c = '"' then some c
  else if c = 'a' then some (.ofNat 0x07)
  else if c = 'b' then some (.ofNat 0x08)
  else if c = 'f' then some (.ofNat 0x0C)
  else if c = 'n' then some (.ofNat 0x0A)
  else if c = 'r' then some (.ofNat 0x0D)
  else if c = 't' then some (.ofNat 0x09)
  else if c = 'v' then some (.ofNat 0x0B)
  else none

/-- What a backslash and a letter stand for inside single quotes. -/
def singleEscape? (c : CodePoint) : Option CodePoint :=
  if c = '\\' ∨ c = '\'' then some c else none

def unescape (escape? : CodePoint → Option CodePoint) : Text → Text
  | c :: d :: t =>
    if c = '\\' then
      match escape? d with
      | some e => e :: unescape escape? t
      | none => c :: unescape escape? (d :: t)
    else c :: unescape escape? (d :: t)
  | t => t

/-- The text before a comment, which starts with a number sign behind white space. -/
def dropComment : Text → Text
  | [] => []
  | c :: t =>
    if c.isBlank then
      match (c :: t).dropWhile CodePoint.isBlank with
      | d :: _ => if d = '#' then [] else c :: dropComment t
      | [] => c :: dropComment t
    else c :: dropComment t

def dropTrailingBlanks (t : Text) : Text := (t.reverse.dropWhile CodePoint.isBlank).reverse

def readQuotedValue (quote : CodePoint) (escape? : CodePoint → Option CodePoint) (t : Text) :
    Reading Text :=
  match readQuoted? quote (t.drop 1) with
  | some (value, rest) => .ok (unescape escape? value, rest)
  | none => .error t

/-- The value behind an equals sign. -/
def readValue (t : Text) : Reading Text :=
  match t with
  | [] => .ok ([], [])
  | c :: _ =>
    if c = '\'' then readQuotedValue c singleEscape? t
    else if c = '"' then readQuotedValue c doubleEscape? t
    else .ok (dropTrailingBlanks (dropComment (t.takeWhile isInside)), t.dropWhile isInside)

/-! ## Bindings -/

def isNameChar (c : CodePoint) : Bool := !c.isBlank && c ≠ '=' && c ≠ '#'

/-- The name at the start of a line; there is none in front of a comment. -/
def readName (t : Text) : Reading (Option Text) :=
  match t with
  | [] => .error t
  | c :: u =>
    if c = '#' then .ok (none, t)
    else if c = '\'' then
      match Text.cut? '\'' u with
      | some (d :: name, rest) => .ok (some (d :: name), rest)
      | _ => .error t
    else
      match t.takeWhile isNameChar with
      | [] => .error t
      | name => .ok (some name, t.dropWhile isNameChar)

/-- The word `export` in front of a name is dropped. -/
def dropExport (t : Text) : Text :=
  match Text.dropLead? "export" t with
  | some (c :: u) => if isInline c then skipInline (c :: u) else t
  | _ => t

/-- An equals sign and a value, both of which may be missing. -/
def readAssignment (t : Text) : Reading (Option Text) :=
  match t with
  | [] => .ok (none, t)
  | c :: u =>
    if c = '=' then (readValue (skipInline u)).map fun p => (some p.1, p.2) else .ok (none, t)

/-- An optional comment at the end of a line is dropped. -/
def skipComment (t : Text) : Text :=
  match skipInline t with
  | [] => t
  | c :: u => if c = '#' then u.dropWhile isInside else t

/-- What follows an optional comment and the end of the line. -/
def endLine (t : Text) : Reading Unit :=
  match skipInline (skipComment t) with
  | [] => .ok ((), [])
  | c :: u => if isLineEnd c then .ok ((), u) else .error (c :: u)

/-- The binding at the start of a text without leading blanks. -/
def readBinding (t : Text) : Except Text (Option Binding × Text) := do
  let (name, t) ← readName (dropExport t)
  let (value, t) ← readAssignment (skipInline t)
  let ((), t) ← endLine t
  return (name.map fun n => (n, value), t)

/-- The bindings of a text; each round takes at least one code point. -/
def readLines : (fuel : Nat) → Text → List Binding
  | 0, _ => []
  | fuel + 1, t =>
    match t.dropWhile CodePoint.isBlank with
    | [] => []
    | c :: t =>
      match readBinding (c :: t) with
      | .ok (some b, rest) => b :: readLines fuel rest
      | .ok (none, rest) => readLines fuel rest
      | .error place => readLines fuel (nextLine place)

/-! ## References -/

/-- A reference behind a dollar sign and a brace: a name, a default, and what follows. -/
def readReference? (t : Text) : Option (Text × Text × Text) :=
  let name := t.takeWhile fun c : CodePoint => c ≠ '}' && c ≠ ':'
  match t.dropWhile fun c : CodePoint => c ≠ '}' && c ≠ ':' with
  | c :: u =>
    if c = '}' then some (name, [], u)
    else
      match u with
      | d :: v =>
        if d = '-' then (Text.cut? '}' v).map fun p => (name, p.1, p.2) else none
      | [] => none
  | [] => none

/-- Replaces references by the values of variables; a variable without a value has its default. -/
def substitute (valueOf : Text → Option (Option Text)) : (fuel : Nat) → Text → Text
  | 0, t => t
  | fuel + 1, t =>
    match t with
    | [] => []
    | c :: u =>
      match (if c = '$' then Text.dropLead? "\x7b" u else none).bind readReference? with
      | some (name, default, rest) =>
        let value := match valueOf name with
          | some v => v.getD []
          | none => default
        value ++ substitute valueOf fuel rest
      | none => c :: substitute valueOf fuel u

/-- Puts values into variables in order; a later one sees the earlier ones and hides them. -/
def resolve (known : List (Text × Text)) (seen : List Binding) : List Binding → List Binding
  | [] => seen
  | (name, value) :: rest =>
    let valueOf (n : Text) : Option (Option Text) :=
      match seen.lookup n with
      | some v => some v
      | none => (known.lookup n).map some
    let value := value.map fun v => substitute valueOf v.length v
    resolve known (put name value seen) rest
where
  /-- A name that is there keeps its place. -/
  put (name : Text) (value : Option Text) : List Binding → List Binding
    | [] => [(name, value)]
    | b :: bs => if b.1 = name then (name, value) :: bs else b :: put name value bs

/-- The variables of a file, with references resolved against what is `known` too. -/
def read (known : List (Text × Text)) (content : Text) : List Binding :=
  resolve known [] (readLines content.length (unifyLineEnds content))

end Dotenv

end RedGreen
