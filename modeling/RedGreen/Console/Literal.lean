import RedGreen.Number.Conversion
import RedGreen.Text.Utf8
import RedGreen.Text.Word

/-!
# Literals

The parameters of a tag may name an action with its arguments in parentheses, or be the arguments
alone.  Arguments are literals: numbers, texts, bytes, constants, and tuples, sets and dictionaries
of these.  Their values are of no use here, so a literal is only recognised.  Square brackets cannot
stand in a tag, so there are no lists; and since no names of characters are known, a text with an
escape by name is taken for no literal.
-/

namespace RedGreen

namespace Literal

/-! ## Values -/

/-- What a value is, as far as the place where it stands asks for it. -/
inductive Value where
  /-- A number that is not imaginary, with its magnitude when it is an integer. -/
  | real (signed : Bool) (magnitude : Nat)
  | imaginary (signed : Bool)
  /-- All other values; those that never change can be elements of sets and keys. -/
  | other (fixed : Bool)

namespace Value

def isFixed : Value → Bool
  | .other fixed => fixed
  | _ => true

/-- The value behind a sign: only a number has one, and only one. -/
def signed? : Value → Option Value
  | .real false n => some (.real true n)
  | .imaginary false => some (.imaginary true)
  | _ => none

/-- A complex number, from its parts: a real part that a float can hold and an imaginary part
without a sign of its own. -/
def plus? : Value → Value → Option Value
  | .real _ n, .imaginary false => (Binary64.ofInt? n).map fun _ => .other true
  | _, _ => none

end Value

/-! ## Tokens -/

inductive Token where
  | value (v : Value)
  | text
  | bytes
  /-- The name of the empty set, which is written as a call. -/
  | set
  | sign
  | comma
  | colon
  | opening (curly : Bool)
  | closing (curly : Bool)

def backslash : CodePoint := '\\'

def lineFeed : CodePoint := '\n'

/-- Blanks between tokens. -/
def isGap (c : CodePoint) : Bool := c.val == 0x20 || c.val == 0x09 || c.val == 0x0C

/-- Names may also hold marks of other scripts, but there is no such name among literals. -/
def isNameMark (c : CodePoint) : Bool :=
  c.isDigit || c.val == 0x5F || c.between 0x41 0x5A || c.between 0x61 0x7A || 0x80 ≤ c.val

/-! ### Numbers -/

/-- The number that digits of a base write, with single underscores in front of some of them. -/
def inBase? (base : Nat) (t : Text) : Option Value :=
  let pieces := match t.splitOn '_' with
    | [] :: pieces => pieces
    | pieces => pieces
  let digits := pieces.flatten.filterMap CodePoint.hexDigit?
  if pieces.isEmpty || pieces.any List.isEmpty || digits.length < pieces.flatten.length ||
      digits.any fun d => base ≤ d then none
  else some (.real false (digits.foldl (fun n d => base * n + d) 0))

/-- A decimal.  An integer may start with a zero only if it is zero. -/
def decimal? (t : Text) : Option Value :=
  let body := Numeral.dropUnderscores t
  if !Numeral.underscoresBetweenDigits false t then none
  else match Text.spanDigits body with
    | (0 :: ds, []) => if ds.all fun d => d = 0 then some (.real false 0) else none
    | (d :: ds, []) =>
      if ConversionError.digitLimit < (d :: ds).length then none
      else some (.real false (Text.digitsValue (d :: ds)))
    | _ => (Numeral.readUnsigned? body).map fun _ => .real false 0

def imaginary? (t : Text) : Option Value :=
  if !Numeral.underscoresBetweenDigits false t then none
  else (Numeral.readUnsigned? (Numeral.dropUnderscores t)).map fun _ => .imaginary false

/-- The mark behind a leading zero that tells the base. -/
def baseOf? (mark : CodePoint) : Option Nat :=
  if mark = 'x' ∨ mark = 'X' then some 16
  else if mark = 'o' ∨ mark = 'O' then some 8
  else if mark = 'b' ∨ mark = 'B' then some 2
  else none

def base? : Text → Option Nat
  | zero :: mark :: _ => if zero = '0' then baseOf? mark else none
  | _ => none

def number? (t : Text) : Option Value :=
  match base? t with
  | some base => inBase? base (t.drop 2)
  | none =>
    match t.reverse with
    | last :: front =>
      if last = 'j' ∨ last = 'J' then imaginary? front.reverse else decimal? t
    | [] => none

/-- The numeral at the start of a text: all that could belong to one.  A sign belongs to it behind
the mark of an exponent. -/
def numeralFrom (based afterMark : Bool) : Text → Text
  | [] => []
  | c :: t =>
    if isNameMark c || c = '.' || (afterMark && (c = '+' || c = '-')) then
      c :: numeralFrom based (!based && (c = 'e' || c = 'E')) t
    else []

/-! ### Strings -/

/-- The inside of a string that a quote ends, or three of them when the string is long. -/
def untilQuote (quote : CodePoint) (long : Bool) : Text → Option Text
  | [] => none
  | [c] => if c = quote && !long then some [] else none
  | c :: d :: t =>
    if c = backslash then (untilQuote quote long t).map fun inside => c :: d :: inside
    else if c = quote && (!long || Text.startsWith (d :: t) [quote, quote]) then some []
    else if c = lineFeed && !long then none
    else (untilQuote quote long (d :: t)).map fun inside => c :: inside

/-- The number that the first digits of a text write in base sixteen. -/
def hexValue? (count : Nat) (t : Text) : Option Nat :=
  let digits := (t.take count).filterMap CodePoint.hexDigit?
  if digits.length = count then some (digits.foldl (fun n d => 16 * n + d) 0) else none

/-- Whether what follows a backslash, from the character `mark` on, is an escape. -/
def isEscape (bytes : Bool) (mark : CodePoint) (t : Text) : Bool :=
  if mark = 'x' then (hexValue? 2 t).isSome
  else if bytes then true
  else if mark = 'u' then (hexValue? 4 t).isSome
  else if mark = 'U' then (hexValue? 8 t).any fun n => decide (n < 0x110000)
  else mark ≠ 'N'

def escapesHold (bytes : Bool) : Text → Bool
  | [] => true
  | [_] => true
  | c :: d :: t =>
    if c = backslash then isEscape bytes d t && escapesHold bytes t
    else escapesHold bytes (d :: t)

/-- Letters that may stand in front of a string, small or capital. -/
def stringMarks : List Text := ["", "u", "r", "b", "br", "rb"]

/-- The string that starts with the quote, and its length without that. -/
def string? (marks : Text) (quote : CodePoint) (t : Text) : Option (Token × Nat) :=
  let long := Text.startsWith t [quote, quote]
  let quotes := if long then 2 else 0
  let bytes := marks.contains (CodePoint.ofChar 'b')
  (untilQuote quote long (t.drop quotes)).bind fun inside =>
    if (marks.contains (CodePoint.ofChar 'r') || escapesHold bytes inside) &&
        (!bytes || inside.all fun c => decide (c.val < 0x80)) then
      some (if bytes then .bytes else .text, quotes + inside.length + 1 + quotes)
    else none

/-! ### All tokens -/

def isQuote (c : CodePoint) : Bool := c = '\'' || c = '"'

/-- What a name stands for. -/
def named? (name : Text) : Option Token :=
  if name.isOneOf ["None", "True", "False"] then some (.value (.other true))
  else if name = Text.ofString "set" then some .set
  else none

def symbols : List (Char × Token) :=
  [('(', .opening false), (')', .closing false), ('\x7b', .opening true), ('\x7d', .closing true),
   (',', .comma), (':', .colon), ('+', .sign), ('-', .sign)]

def symbol? (c : CodePoint) : Option Token :=
  (symbols.find? fun entry => CodePoint.ofChar entry.1 = c).map Prod.snd

/-- The token that starts with a character, and how many of the characters behind that belong to
it. -/
def token? (c : CodePoint) (t : Text) : Option (Token × Nat) :=
  if isQuote c then string? [] c t
  else if c.isDigit || (c = '.' && (t.head?.map CodePoint.isDigit).getD false) then
    let numeral := numeralFrom (base? (c :: t)).isSome false (c :: t)
    (number? numeral).map fun v => (.value v, numeral.length - 1)
  else if isNameMark c then
    let name : Text := (c :: t).takeWhile isNameMark
    let marks := name.toLowerAscii
    match t.drop (name.length - 1) with
    | d :: u =>
      if isQuote d && marks.isOneOf stringMarks then
        (string? marks d u).map fun p => (p.1, name.length + p.2)
      else (named? name).map fun token => (token, name.length - 1)
    | [] => (named? name).map fun token => (token, name.length - 1)
  else if Text.startsWith (c :: t) "..." then some (.value (.other true), 2)
  else (symbol? c).map fun token => (token, 0)

/-- How many brackets may be open. -/
def depthLimit : Nat := 200

/-- The number of open brackets behind a token. -/
def depthAfter? (depth : Nat) : Token → Option Nat
  | .opening _ => if depth < depthLimit then some (depth + 1) else none
  | .closing _ => some (depth - 1)
  | _ => some depth

/-- Nothing, or a comment. -/
def isVoidLine (line : Text) : Bool :=
  match line.dropWhile isGap with
  | [] => true
  | c :: _ => c = '#'

/-- The tokens of a text behind its first `skipped` characters.  It stands inside `depth` brackets;
outside of all brackets only void lines may follow the first. -/
def tokensFrom? (depth skipped : Nat) : Text → Option (List Token)
  | [] => some []
  | c :: t =>
    if 0 < skipped then tokensFrom? depth (skipped - 1) t
    else if isGap c then tokensFrom? depth 0 t
    else if c = lineFeed then
      if depth ≠ 0 then tokensFrom? depth 0 t
      else if (Text.splitOn '\n' t).all isVoidLine then some []
      else none
    else if c = '#' then tokensFrom? depth (t.takeWhile fun d => d ≠ lineFeed).length t
    else if c = backslash then
      if t.head? = some lineFeed then tokensFrom? depth 1 t else none
    else
      match token? c t with
      | none => none
      | some (token, more) =>
        match depthAfter? depth token with
        | none => none
        | some depth => (tokensFrom? depth more t).map fun tokens => token :: tokens

/-! ## Expressions -/

inductive Part where
  | value (v : Value)
  | text
  | bytes
  | sign
  /-- Parentheses with nothing in them. -/
  | nothing
  | set

def Part.isText : Part → Bool
  | .text => true
  | _ => false

def Part.isBytes : Part → Bool
  | .bytes => true
  | _ => false

/-- The value of an expression: a value, maybe with a sign, or a sum, or strings in a row. -/
def expression? : List Part → Option Value
  | [] => none
  | [.value v] => some v
  | [.sign, .value v] => v.signed?
  | [.value v, .sign, .value w] => v.plus? w
  | [.sign, .value v, .sign, .value w] => v.signed?.bind fun v => v.plus? w
  | [.nothing] => some (.other true)
  | [.set, .nothing] => some (.other false)
  | parts =>
    if parts.all Part.isText || parts.all Part.isBytes then some (.other true) else none

/-- A pair of brackets, or what stands outside of all of them, as far as it is read. -/
structure Level where
  curly : Bool
  /-- The values that have been read, and whether each has a key. -/
  entries : List (Bool × Value)
  /-- Whether a key has been read for the value that is being read. -/
  keyed : Bool
  parts : List Part

namespace Level

def start (curly : Bool) : Level := ⟨curly, [], false, []⟩

def push (p : Part) (l : Level) : Level := { l with parts := l.parts ++ [p] }

def isEmpty (l : Level) : Bool := l.parts.isEmpty && !l.keyed

/-- All entries, once the last one is read; it may be missing behind a comma. -/
def entries? (l : Level) : Option (List (Bool × Value)) :=
  if l.isEmpty then some l.entries
  else (expression? l.parts).map fun v => l.entries ++ [(l.keyed, v)]

/-- Elements of a set can be any values that never change; in a dictionary every value has a
key. -/
def isCollection (entries : List (Bool × Value)) : Bool :=
  entries.all Prod.fst || entries.all fun e => !e.1 && e.2.isFixed

/-- What a pair of brackets stands for. -/
def close? (l : Level) : Option Part :=
  if l.curly then
    l.entries?.bind fun es => if isCollection es then some (.value (.other false)) else none
  else if l.entries.isEmpty then
    match l.parts with
    | [] => some .nothing
    | [.set] => some .set
    | parts => (expression? parts).map .value
  else l.entries?.map fun es => .value (.other (es.all fun e => e.2.isFixed))

def comma? (l : Level) : Option Level :=
  (expression? l.parts).map fun v => ⟨l.curly, l.entries ++ [(l.keyed, v)], false, []⟩

def colon? (l : Level) : Option Level :=
  match l.curly && !l.keyed, expression? l.parts with
  | true, some key => if key.isFixed then some { l with keyed := true, parts := [] } else none
  | _, _ => none

end Level

/-- The innermost brackets with those around them, after a token. -/
def step? : Level × List Level → Token → Option (Level × List Level)
  | (l, outer), .value v => some (l.push (.value v), outer)
  | (l, outer), .text => some (l.push .text, outer)
  | (l, outer), .bytes => some (l.push .bytes, outer)
  | (l, outer), .set => some (l.push .set, outer)
  | (l, outer), .sign => some (l.push .sign, outer)
  | (l, outer), .comma => l.comma?.map fun l => (l, outer)
  | (l, outer), .colon => l.colon?.map fun l => (l, outer)
  | (l, outer), .opening curly => some (.start curly, l :: outer)
  | (_, []), .closing _ => none
  | (l, next :: outer), .closing curly =>
    if l.curly = curly then l.close?.map fun p => (next.push p, outer) else none

def isExpression (tokens : List Token) : Bool :=
  match tokens.foldlM step? (.start false, []) with
  | some (l, []) =>
    match l.close? with
    | some (.value _) => true
    | _ => false
  | _ => false

/-! ## Texts -/

/-- Every end of a line as a line feed. -/
def lineFeeds : Text → Text
  | [] => []
  | [c] => [if c = '\r' then lineFeed else c]
  | c :: d :: t =>
    if c = '\r' ∧ d = lineFeed then lineFeed :: lineFeeds t
    else (if c = '\r' then lineFeed else c) :: lineFeeds (d :: t)

/-- Whether a text begins with blanks that count, lines without end in front of them apart. -/
def isIndented : Text → Bool
  | c :: d :: t =>
    if c = backslash ∧ d = lineFeed then isIndented t
    else (((c :: d :: t).takeWhile isGap).getLast?.map fun e => e.val != 0x0C).getD false
  | _ => false

/-- Whether a text that begins with no blank is a literal. -/
def isLiteral (t : Text) : Bool :=
  let body := Text.join [lineFeed] (((lineFeeds t).splitOn '\n').dropWhile isVoidLine)
  (t.all fun c => c.val != 0 && decide c.IsScalar) && !isIndented body &&
    (tokensFrom? 0 0 body).any isExpression

/-! ## Parameters -/

/-- The arguments among parameters: what stands in parentheses behind a name, or all of them.  A
name alone has no arguments. -/
def argumentsOf (parameters : Text) : Text :=
  let t : Text := parameters.trim
  let rest : Text := t.dropWhile fun c => c.isWordMark || c = CodePoint.ofChar '.'
  if rest.isEmpty then "()"
  else if rest.startsWith "(" && rest.endsWith ")" && !rest.contains lineFeed then rest
  else t

def accepts (parameters : Text) : Bool := isLiteral (argumentsOf parameters)

/-! ## Complaints -/

/-- Signs that can be names, although they are no letters. -/
def nameSigns : List Nat := [0x1885, 0x1886, 0x2118, 0x212E]

/-- The number of a character as Unicode writes it. -/
def unicodeNumber (c : CodePoint) : Text :=
  let width := if c.val < 0x10000 then 4 else if c.val < 0x100000 then 5 else 6
  ("U+" : Text) ++ (Text.hex width c.val).toUpperAscii

/-- What is wrong with a literal of one character, unless that is a name. -/
def fault? (c : CodePoint) : Option Text :=
  if c.val = 0 then some "source code string cannot contain null bytes"
  else if isQuote c then some "unterminated string literal (detected at line 1)"
  else if c = '(' ∨ c = '{' then
    some (("'" : Text) ++ [c] ++ ("' was never closed" : Text))
  else if c = ')' ∨ c = '}' then some (("unmatched '" : Text) ++ [c] ++ ("'" : Text))
  else if c = backslash then some "unexpected character after line continuation character"
  else if !c.isPrintable then
    some (("invalid non-printable character " : Text) ++ unicodeNumber c)
  else if c.val < 0x80 then some "invalid syntax"
  else if nameSigns.contains c.val then none
  else
    some (("invalid character '" : Text) ++ [c] ++ ("' (" : Text) ++ unicodeNumber c ++
      (")" : Text))

/-- The parameters that are not accepted, and what is wrong with their arguments.  The fault is only
told when the arguments are a single character, or cannot be encoded. -/
def complaint (parameters : Text) : Text :=
  let arguments := argumentsOf parameters
  match Text.surrogateRun? 0 arguments, arguments with
  | some e, _ => Text.quoted parameters ++ ("; " : Text) ++ e.message
  | none, [c] =>
    match fault? c with
    | some fault =>
      Text.quoted arguments ++ (" in " : Text) ++ Text.quoted parameters ++ ("; " : Text) ++ fault
    | none => Text.quoted parameters
  | none, _ => Text.quoted parameters

end Literal

end RedGreen
