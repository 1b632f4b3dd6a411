import RedGreen.Delivery.HostName
import RedGreen.Text.Printable
import RedGreen.Number.Conversion

/-!
# Addresses

The address that records are sent to is the base address of the backend with a path put below
it.  Both are kept in a canonical form: host names in small letters, no default port, no dot
segments, and every code point that may not stand in its component percent-encoded.
-/

namespace RedGreen

structure Address where
  scheme : Text
  userinfo : Text
  host : Text
  port : Option Int
  path : Text
  query : Option Text
  fragment : Option Text
  deriving DecidableEq

namespace Address

/-- Why a text is no address. -/
inductive Fault where
  | tooLong
  | nonPrintable (c : CodePoint) (position : Nat)
  | ipv4 (host : Text)
  | ipv6 (host : Text)
  | name (host : Text)
  | port (port : Text)
  deriving DecidableEq

namespace Fault

def message : Fault → Text
  | .tooLong => "URL too long"
  | .nonPrintable c position =>
    ("Invalid non-printable ASCII character in URL, " : Text) ++ Text.quoted [c] ++
      (" at position " : Text) ++ Text.ofNat position ++ ("." : Text)
  | .ipv4 host => ("Invalid IPv4 address: " : Text) ++ Text.quoted host
  | .ipv6 host => ("Invalid IPv6 address: " : Text) ++ Text.quoted host
  | .name host => ("Invalid IDNA hostname: " : Text) ++ Text.quoted host
  | .port text => ("Invalid port: " : Text) ++ Text.quoted text

end Fault

/-! ## Percent-encoding -/

def isLetter (c : CodePoint) : Bool :=
  CodePoint.between 0x41 0x5A c || CodePoint.between 0x61 0x7A c

/-- Letters, digits and four marks are never encoded. -/
def isUnreserved (c : CodePoint) : Bool := isLetter c || c.isDigit || c ∈ ("-._~" : Text)

/-- The visible ASCII code points but for some. -/
def visibleBut (some : Text) (c : CodePoint) : Bool := CodePoint.between 0x20 0x7E c && c ∉ some

def pathSafe : CodePoint → Bool := visibleBut " \"#<>?`\x7b\x7d"

def querySafe : CodePoint → Bool := visibleBut " \"#<>"

def fragmentSafe : CodePoint → Bool := visibleBut " \"<>`"

def userinfoSafe : CodePoint → Bool := visibleBut " \"#<>?`\x7b\x7d/;=@[\\]^|"

def hostSafe (c : CodePoint) : Bool := c ∈ ("!$&'()*+,;=\"`\x7b\x7d%|\\" : Text)

def percentByte (b : UInt8) : Text := CodePoint.ofChar '%' :: Text.toUpperAscii (Text.hex 2 b.toNat)

def percentPoint (c : CodePoint) : Text := (Utf8.encodePoint c).flatMap percentByte

/-- Encodes what is not safe; a percent sign before two hexadecimal digits stays as it is. -/
def quote (safe : CodePoint → Bool) : Text → Text
  | [] => []
  | c :: t =>
    let here := if isUnreserved c || safe c then [c] else percentPoint c
    match c.val, t with
    | 0x25, a :: b :: u =>
      if a.hexDigit?.isSome ∧ b.hexDigit?.isSome then c :: a :: b :: quote safe u
      else here ++ quote safe (a :: b :: u)
    | _, t => here ++ quote safe t

/-! ## Hosts -/

def hostOf (host : Text) : Except Fault Text :=
  if host.isEmpty then .ok []
  else if HostName.isFourGroups 3 false host then
    if HostName.isIPv4 host then .ok host else .error (.ipv4 host)
  else if host.startsWith "[" ∧ host.endsWith "]" then
    let inner := (host.drop 1).dropLast
    if HostName.isIPv6 inner then .ok inner else .error (.ipv6 host)
  else if host.all HostName.isAscii then .ok (quote hostSafe host.toLowerAscii)
  else
    match HostName.asciiName? (HostName.lowerHost host) with
    | some name => .ok name
    | none => .error (.name host)

/-! ## Reading -/

/-- The standard port of a scheme needs no mention. -/
def portOf (scheme : Text) : Option Text → Except Fault (Option Int)
  | none => .ok none
  | some t =>
    if t.isEmpty then .ok none
    else
      match Json.intOfText t with
      | .error _ => .error (.port t)
      | .ok n =>
        let standard : Int := if scheme = ("http" : Text) then 80 else 443
        .ok (if n = standard then none else some n)

/-- The part up to the last closing bracket, for a host in brackets. -/
def bracketed? (t : Text) : Option (Text × Text) :=
  if t.startsWith "[" then
    (Text.cutLast? ']' t).map fun p => (p.1 ++ ("]" : Text), p.2)
  else none

/-- User, host and port. -/
def splitAuthority (t : Text) : Text × Text × Text :=
  let (userinfo, rest) := (Text.cutLast? '@' t).getD ([], t)
  let (host, rest) := (bracketed? rest).getD
    (rest.takeWhile (fun c : CodePoint => c ≠ ':'), rest.dropWhile (fun c : CodePoint => c ≠ ':'))
  (userinfo, host, (Text.dropLead? ":" rest).getD rest)

/-- Dot segments are dropped, and a double dot takes the segment before it along. -/
def dropDots (path : Text) : Text :=
  let segments := path.splitOn '/'
  if segments.any fun s => s = ("." : Text) ∨ s = (".." : Text) then
    let keep (out : List Text) (s : Text) : List Text :=
      if s = ("." : Text) then out
      else if s = (".." : Text) then (if out = [] ∨ out = [[]] then out else out.dropLast)
      else out ++ [s]
    Text.join "/" (segments.foldl keep [])
  else path

/-- The address with the given components, which are brought into canonical form. -/
def ofParts (scheme authority path : Text) (query fragment : Option Text) :
    Except Fault Address := do
  let (userinfo, host, port) := splitAuthority authority
  let host ← hostOf host
  let port ← portOf scheme (some port)
  return {
    scheme := scheme
    userinfo := quote userinfoSafe userinfo
    host := host
    port := port
    path := quote pathSafe (dropDots path)
    query := query.map (quote querySafe)
    fragment := fragment.map (quote fragmentSafe) }

/-- What comes before a mark, and what comes behind it. -/
def cutOff (mark : CodePoint) (t : Text) : Text × Option Text :=
  match Text.cut? mark t with
  | some (before, after) => (before, some after)
  | none => (t, none)

def isPrintableAscii (c : CodePoint) : Bool := !HostName.isAscii c || CodePoint.between 0x20 0x7E c

/-- The address that a text starting with a scheme writes. -/
def ofText (t : Text) : Except Fault Address :=
  if 65536 < t.length then .error .tooLong
  else
    match t.findIdx? fun c => !isPrintableAscii c with
    | some i => .error (.nonPrintable (t.getD i .replacement) i)
    | none =>
      let (scheme, rest) := cutOff ':' t
      let (rest, fragment) := cutOff '#' (rest.getD [])
      let (rest, query) := cutOff '?' rest
      match Text.dropLead? "//" rest with
      | some rest =>
        let isPart (c : CodePoint) : Bool := c ≠ '/'
        ofParts scheme (rest.takeWhile isPart) (rest.dropWhile isPart) query fragment
      | none => ofParts scheme [] rest query fragment

/-! ## Writing -/

def authority (a : Address) : Text :=
  let user := if a.userinfo.isEmpty then [] else a.userinfo ++ ("@" : Text)
  let host := if a.host.contains (CodePoint.ofChar ':') then
      ("[" : Text) ++ a.host ++ ("]" : Text)
    else a.host
  let port : Text := match a.port with
    | some p => CodePoint.ofChar ':' :: Text.ofInt p
    | none => []
  user ++ host ++ port

def marked (mark : CodePoint) : Option Text → Text
  | some t => mark :: t
  | none => []

def toText (a : Address) : Text :=
  let authority : Text := if a.authority.isEmpty then [] else ("//" : Text) ++ a.authority
  a.scheme ++ (":" : Text) ++ authority ++ a.path ++ marked '?' a.query ++ marked '#' a.fragment

/-- The address of a path below a base address.  The path goes behind the query of the base
address, if there is one. -/
def below (a : Address) (path : Text) : Except Fault Address :=
  let base := (if a.path.isEmpty then ("/" : Text) else a.path) ++ marked '?' a.query
  let base := if base.endsWith "/" then base else base ++ ("/" : Text)
  let (path, query) := cutOff '?' (base ++ path)
  ofParts a.scheme a.authority path query a.fragment

end Address

end RedGreen
