import RedGreen.Text.Utf8

/-!
# Host names

A host is a name, an IPv4 address or an IPv6 address in brackets.  Labels of names outside of
ASCII are written in ASCII: the basic code points first, then the places of the others in
digits of variable value.
-/

namespace RedGreen

namespace HostName

def isAscii (c : CodePoint) : Bool := c.val < 0x80

/-! ## Numbers -/

/-- Whether a host has the form of four groups of digits with one code point between them. -/
def isFourGroups : (groups : Nat) → (started : Bool) → Text → Bool
  | groups, started, [] => groups == 0 && started
  | groups, started, c :: t =>
    (c.isDigit && isFourGroups groups true t) ||
    match groups with
    | 0 => false
    | groups + 1 => started && isFourGroups groups false t

/-- A number from 0 to 255 without leading zeros. -/
def isOctet (t : Text) : Bool :=
  match Text.spanDigits t with
  | ([], _) => false
  | (ds, []) =>
    ds.length ≤ 3 && !(decide (1 < ds.length) && ds.head? == some 0) && Text.digitsValue ds ≤ 255
  | _ => false

def isIPv4 (t : Text) : Bool :=
  let parts := t.splitOn '.'
  parts.length == 4 && parts.all isOctet

def isHextet (t : Text) : Bool :=
  !t.isEmpty && t.length ≤ 4 && t.all fun c => c.hexDigit?.isSome

/-- Groups with a colon between them, of which an IPv4 address counts for two. -/
def groupsOf (t : Text) : Option (List Text) :=
  let groups := t.splitOn ':'
  let last := groups.getLast?.getD []
  if last.contains (CodePoint.ofChar '.') then
    if isIPv4 last then some (groups.dropLast ++ ([("0" : Text), ("0" : Text)])) else none
  else some groups

/-- Eight groups, or fewer with a run of them left out. -/
def isIPv6Groups (groups : List Text) : Bool :=
  let closed (side : List Text) : List Text := if side = [[]] then [] else side
  match ((groups.drop 1).dropLast).findIdx? List.isEmpty with
  | none => groups.length == 8 && groups.all isHextet
  | some i =>
    let high := closed (groups.take (i + 1))
    let low := closed (groups.drop (i + 2))
    decide (high.length + low.length < 8) && high.all isHextet && low.all isHextet

/-- An IPv6 address, with or without a zone behind a percent sign. -/
def isIPv6 (t : Text) : Bool :=
  let parts := t.splitOn '%'
  let zoneFits := match parts with
    | [_] => true
    | [_, zone] => !zone.isEmpty
    | _ => false
  let body := parts.head?.getD []
  zoneFits && !t.contains (CodePoint.ofChar '/') && decide (3 ≤ (body.splitOn ':').length) &&
  match groupsOf body with
  | some groups => isIPv6Groups groups
  | none => false

/-! ## Names outside of ASCII -/

/-- How far the step to the next code point is scaled. -/
def adapt (delta points : Nat) (first : Bool) : Nat :=
  let delta := if first then delta / 700 else delta / 2
  reduce 8 (delta + delta / points) 0
where
  reduce : (fuel : Nat) → Nat → Nat → Nat
    | 0, delta, k => k + 36 * delta / (delta + 38)
    | fuel + 1, delta, k =>
      if 455 < delta then reduce fuel (delta / 35) (k + 36) else k + 36 * delta / (delta + 38)

def digit36 (n : Nat) : CodePoint := if n < 26 then .ofNat (0x61 + n) else .ofNat (0x30 + n - 26)

/-- A number in digits of growing value. -/
def variableDigits (bias : Nat) : (fuel k q : Nat) → Text
  | 0, _, q => [digit36 (q % 36)]
  | fuel + 1, k, q =>
    let threshold := if k ≤ bias then 1 else if bias + 26 ≤ k then 26 else k - bias
    if q < threshold then [digit36 q]
    else
      digit36 (threshold + (q - threshold) % (36 - threshold)) ::
        variableDigits bias fuel (k + 36) ((q - threshold) / (36 - threshold))

/-- State of the encoding of a label: the code point reached, the step, the scale, the count of
code points that are written, and the digits. -/
structure LabelState where
  reached : Nat
  delta : Nat
  bias : Nat
  written : Nat
  basic : Nat
  digits : Text

/-- One code point of the label against the code point that is being placed. -/
def placeOne (n : Nat) (s : LabelState) (c : CodePoint) : LabelState :=
  if c.val < n then { s with delta := s.delta + 1 }
  else if c.val = n then
    { s with
      delta := 0
      bias := adapt s.delta (s.written + 1) (s.written == s.basic)
      written := s.written + 1
      digits := s.digits ++ variableDigits s.bias 32 36 s.delta }
  else s

/-- Places the code points of a label from the least to the greatest. -/
def placeAll (label : Text) : (fuel : Nat) → LabelState → LabelState
  | 0, s => s
  | fuel + 1, s =>
    match (label.filter fun c => s.reached ≤ c.val).map CodePoint.val |>.min? with
    | none => s
    | some n =>
      let delta := s.delta + (n - s.reached) * (s.written + 1)
      let s := label.foldl (placeOne n) { s with reached := n, delta := delta }
      placeAll label fuel { s with reached := n + 1, delta := s.delta + 1 }

/-- A label in ASCII. -/
def asciiLabel (label : Text) : Text :=
  if label.all isAscii then label
  else
    let basic := label.filter isAscii
    let s := placeAll label label.length ⟨0x80, 0, 72, basic.length, basic.length, []⟩
    let head := if basic.isEmpty then [] else basic ++ ("-" : Text)
    ("xn--" : Text) ++ head ++ s.digits

/-- Pictures and symbols, which names cannot hold. -/
def isSymbol (c : CodePoint) : Bool :=
  CodePoint.between 0x80 0xB6 c || CodePoint.between 0xB8 0xBF c || c.val == 0xD7 ||
  c.val == 0xF7 || CodePoint.between 0x2000 0x2BFF c || CodePoint.between 0xD800 0xF8FF c ||
  CodePoint.between 0xFE00 0xFFFF c || CodePoint.between 0x1D000 0x1FAFF c

/-- A host name in ASCII, when it can be written so. -/
def asciiName? (host : Text) : Option Text :=
  let isDot (c : CodePoint) : Bool :=
    c = '.' || c.val == 0x3002 || c.val == 0xFF0E || c.val == 0xFF61
  let dotted : Text := host.map fun c => if isDot c then CodePoint.ofChar '.' else c
  let labels := dotted.splitOn '.'
  if labels.any fun l => l.isEmpty || l.any isSymbol then none
  else some (Text.join "." (labels.map asciiLabel))

/-- Small letters, for ASCII and for Latin letters with accents. -/
def lowerHost (host : Text) : Text :=
  host.map fun c =>
    if CodePoint.between 0xC0 0xDE c ∧ c.val ≠ 0xD7 then .ofNat (c.val + 0x20) else c.toLowerAscii

end HostName

end RedGreen
