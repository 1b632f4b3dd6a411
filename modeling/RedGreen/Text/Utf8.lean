import RedGreen.Text.Basic

/-!
# UTF-8

Files and pipes hold bytes.  Reading them cuts the bytes into pieces, each of them one encoded
scalar value or one malformed stretch.  Strict decoding stops at the first malformed stretch
and says where and why; lossy decoding puts U+FFFD in its place.  Both run the same `readPiece`.
-/

namespace RedGreen

abbrev Bytes := List UInt8

/-- Why a stretch of bytes encodes nothing. -/
inductive Malformation where
  | startByte
  | continuationByte
  | truncated
  deriving DecidableEq

/-- The first malformed stretch of a byte sequence. -/
structure DecodeError where
  position : Nat
  length : Nat
  firstByte : UInt8
  cause : Malformation
  deriving DecidableEq

namespace Malformation

def message : Malformation → Text
  | .startByte => "invalid start byte"
  | .continuationByte => "invalid continuation byte"
  | .truncated => "unexpected end of data"

end Malformation

namespace DecodeError

def message (e : DecodeError) : Text :=
  if e.length = 1 then
    ("'utf-8' codec can't decode byte 0x" : Text) ++ Text.hex 2 e.firstByte.toNat ++
      (" in position " : Text) ++ Text.ofNat e.position ++ (": " : Text) ++ e.cause.message
  else
    ("'utf-8' codec can't decode bytes in position " : Text) ++ Text.ofNat e.position ++
      ("-" : Text) ++ Text.ofNat (e.position + e.length - 1) ++ (": " : Text) ++ e.cause.message

end DecodeError

namespace Utf8

/-- What stands at the head of a byte sequence: the scalar value and the number of bytes after
the first that belong to it, or the cause and the number of further bytes that are skipped. -/
inductive Piece where
  | scalar (c : CodePoint) (more : Nat)
  | malformed (cause : Malformation) (more : Nat)

def isContinuation (b : UInt8) : Bool := 0x80 ≤ b.toNat && b.toNat ≤ 0xBF

/-- Whether the second byte may follow the first: overlong forms, surrogates and numbers
beyond U+10FFFF are told from it. -/
def secondAllowed (b₁ b₂ : UInt8) : Bool :=
  isContinuation b₂ &&
  !(b₁.toNat == 0xE0 && b₂.toNat < 0xA0) && !(b₁.toNat == 0xED && 0xA0 ≤ b₂.toNat) &&
  !(b₁.toNat == 0xF0 && b₂.toNat < 0x90) && !(b₁.toNat == 0xF4 && 0x90 ≤ b₂.toNat)

def low6 (b : UInt8) : Nat := b.toNat % 64

/-- Reads the piece that starts with byte `b`, of which `rest` is what follows. -/
def readPiece (b : UInt8) (rest : Bytes) : Piece :=
  let lead := b.toNat
  if lead < 0x80 then .scalar (.ofNat lead) 0
  else if lead < 0xC2 then .malformed .startByte 0
  else if lead < 0xE0 then
    match rest with
    | [] => .malformed .truncated 0
    | b₂ :: _ =>
      if secondAllowed b b₂ then .scalar (.ofNat (lead % 32 * 64 + low6 b₂)) 1
      else .malformed .continuationByte 0
  else if lead < 0xF0 then
    match rest with
    | [] => .malformed .truncated 0
    | [b₂] => if secondAllowed b b₂ then .malformed .truncated 1 else .malformed .continuationByte 0
    | b₂ :: b₃ :: _ =>
      if !secondAllowed b b₂ then .malformed .continuationByte 0
      else if isContinuation b₃ then
        .scalar (.ofNat (lead % 16 * 4096 + low6 b₂ * 64 + low6 b₃)) 2
      else .malformed .continuationByte 1
  else if lead < 0xF5 then
    match rest with
    | [] => .malformed .truncated 0
    | [b₂] => if secondAllowed b b₂ then .malformed .truncated 1 else .malformed .continuationByte 0
    | [b₂, b₃] =>
      if !secondAllowed b b₂ then .malformed .continuationByte 0
      else if isContinuation b₃ then .malformed .truncated 2
      else .malformed .continuationByte 1
    | b₂ :: b₃ :: b₄ :: _ =>
      if !secondAllowed b b₂ then .malformed .continuationByte 0
      else if !isContinuation b₃ then .malformed .continuationByte 1
      else if isContinuation b₄ then
        .scalar (.ofNat (lead % 8 * 262144 + low6 b₂ * 4096 + low6 b₃ * 64 + low6 b₄)) 3
      else .malformed .continuationByte 2
  else .malformed .startByte 0

/-- Decoding that puts U+FFFD in place of each malformed stretch. -/
def decodeLossy : Bytes → Text
  | [] => []
  | b :: rest =>
    match readPiece b rest with
    | .scalar c more => c :: decodeLossy (rest.drop more)
    | .malformed _ more => .replacement :: decodeLossy (rest.drop more)
termination_by bytes => bytes.length
decreasing_by all_goals simp only [List.length_drop, List.length_cons]; omega

/-- Strict decoding of the bytes from `position` on. -/
def decodeFrom (position : Nat) : Bytes → Except DecodeError Text
  | [] => .ok []
  | b :: rest =>
    match readPiece b rest with
    | .scalar c more =>
      match decodeFrom (position + 1 + more) (rest.drop more) with
      | .ok t => .ok (c :: t)
      | .error e => .error e
    | .malformed cause more => .error ⟨position, more + 1, b, cause⟩
termination_by bytes => bytes.length
decreasing_by simp only [List.length_drop, List.length_cons]; omega

def decode (bytes : Bytes) : Except DecodeError Text := decodeFrom 0 bytes

def encodePoint (c : CodePoint) : Bytes :=
  let n := c.val
  if n < 0x80 then [UInt8.ofNat n]
  else if n < 0x800 then [UInt8.ofNat (0xC0 + n / 64), UInt8.ofNat (0x80 + n % 64)]
  else if n < 0x10000 then
    [UInt8.ofNat (0xE0 + n / 4096), UInt8.ofNat (0x80 + n / 64 % 64), UInt8.ofNat (0x80 + n % 64)]
  else
    [UInt8.ofNat (0xF0 + n / 262144), UInt8.ofNat (0x80 + n / 4096 % 64),
      UInt8.ofNat (0x80 + n / 64 % 64), UInt8.ofNat (0x80 + n % 64)]

def encode (t : Text) : Bytes := t.flatMap encodePoint

end Utf8

/-- A run of surrogate halves, which no encoding can hold. -/
structure EncodeError where
  position : Nat
  length : Nat
  first : CodePoint
  deriving DecidableEq

namespace EncodeError

def message (e : EncodeError) : Text :=
  if e.length = 1 then
    ("'utf-8' codec can't encode character '\\u" : Text) ++ Text.hex 4 e.first.val ++
      ("' in position " : Text) ++ Text.ofNat e.position ++ (": surrogates not allowed" : Text)
  else
    ("'utf-8' codec can't encode characters in position " : Text) ++ Text.ofNat e.position ++
      ("-" : Text) ++ Text.ofNat (e.position + e.length - 1) ++ (": surrogates not allowed" : Text)

end EncodeError

namespace Text

/-- The first run of surrogate halves from `position` on. -/
def surrogateRun? (position : Nat) : Text → Option EncodeError
  | [] => none
  | c :: t =>
    if c.IsScalar then surrogateRun? (position + 1) t
    else some ⟨position, 1 + (t.takeWhile fun d => !decide d.IsScalar).length, c⟩

/-- The bytes of a text, or the first run of surrogate halves in it. -/
def encode? (t : Text) : Except EncodeError Bytes :=
  match surrogateRun? 0 t with
  | some e => .error e
  | none => .ok (Utf8.encode t)

theorem surrogateRun?_eq_none_iff {position : Nat} {t : Text} :
    surrogateRun? position t = none ↔ t.IsScalar := by
  induction t generalizing position with
  | nil => simp [surrogateRun?, IsScalar]
  | cons c t ih =>
    by_cases h : c.IsScalar
    · simp only [surrogateRun?, h, if_true, ih]
      simp [IsScalar, h]
    · simp [surrogateRun?, h, IsScalar]

end Text

end RedGreen
