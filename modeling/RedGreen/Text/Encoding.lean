import RedGreen.Text.Utf8

/-!
# Encodings of documents

A document in bytes does not say how it is encoded.  A mark at its start or the places of its
first zero bytes tell between UTF-8, UTF-16 and UTF-32.  Surrogate halves are let through.
-/

namespace RedGreen

inductive Encoding where
  | utf8
  | utf16 (bigEndian : Bool)
  | utf32 (bigEndian : Bool)
  deriving DecidableEq

namespace Encoding

/-- The encoding of a document, and the bytes behind its mark. -/
def detect : Bytes → Encoding × Bytes
  | 0x00 :: 0x00 :: 0xFE :: 0xFF :: rest => (.utf32 true, rest)
  | 0xFF :: 0xFE :: 0x00 :: 0x00 :: rest => (.utf32 false, rest)
  | 0xFE :: 0xFF :: rest => (.utf16 true, rest)
  | 0xFF :: 0xFE :: rest => (.utf16 false, rest)
  | 0xEF :: 0xBB :: 0xBF :: rest => (.utf8, rest)
  | bytes =>
    match bytes with
    | b₀ :: b₁ :: b₂ :: b₃ :: _ =>
      if b₀ = 0 then (if b₁ = 0 then .utf32 true else .utf16 true, bytes)
      else if b₁ = 0 then
        (if b₂ = 0 ∧ b₃ = 0 then .utf32 false else .utf16 false, bytes)
      else (.utf8, bytes)
    | [b₀, b₁] =>
      if b₀ = 0 then (.utf16 true, bytes)
      else if b₁ = 0 then (.utf16 false, bytes)
      else (.utf8, bytes)
    | _ => (.utf8, bytes)

/-- One surrogate half in three bytes. -/
def surrogate? (b : UInt8) : Bytes → Option CodePoint
  | b₂ :: b₃ :: _ =>
    if b = 0xED ∧ 0xA0 ≤ b₂.toNat ∧ Utf8.isContinuation b₂ ∧ Utf8.isContinuation b₃ then
      some (.ofNat (0xD000 + Utf8.low6 b₂ * 64 + Utf8.low6 b₃))
    else none
  | _ => none

def decodeUtf8? : Bytes → Option Text
  | [] => some []
  | b :: rest =>
    match surrogate? b rest with
    | some c => (decodeUtf8? (rest.drop 2)).map (c :: ·)
    | none =>
      match Utf8.readPiece b rest with
      | .scalar c more => (decodeUtf8? (rest.drop more)).map (c :: ·)
      | .malformed .. => none
termination_by bytes => bytes.length
decreasing_by all_goals simp only [List.length_drop, List.length_cons]; omega

/-- Units of two bytes. -/
def units16? (bigEndian : Bool) : Bytes → Option (List Nat)
  | [] => some []
  | [_] => none
  | a :: b :: rest =>
    let unit := if bigEndian then a.toNat * 256 + b.toNat else b.toNat * 256 + a.toNat
    (units16? bigEndian rest).map (unit :: ·)

/-- A high half and a low half make one code point; any other half stands alone. -/
def joinUnits : List Nat → Text
  | [] => []
  | [u] => [.ofNat u]
  | u :: v :: rest =>
    if 0xD800 ≤ u ∧ u < 0xDC00 ∧ 0xDC00 ≤ v ∧ v < 0xE000 then
      .ofNat (0x10000 + (u - 0xD800) * 0x400 + (v - 0xDC00)) :: joinUnits rest
    else .ofNat u :: joinUnits (v :: rest)

/-- Units of four bytes, each of them one code point. -/
def decodeUtf32? (bigEndian : Bool) : Bytes → Option Text
  | [] => some []
  | a :: b :: c :: d :: rest =>
    let n :=
      if bigEndian then ((a.toNat * 256 + b.toNat) * 256 + c.toNat) * 256 + d.toNat
      else ((d.toNat * 256 + c.toNat) * 256 + b.toNat) * 256 + a.toNat
    if n < 0x110000 then (decodeUtf32? bigEndian rest).map (.ofNat n :: ·) else none
  | _ => none

def decode? : Encoding → Bytes → Option Text
  | .utf8, bytes => decodeUtf8? bytes
  | .utf16 bigEndian, bytes => (units16? bigEndian bytes).map joinUnits
  | .utf32 bigEndian, bytes => decodeUtf32? bigEndian bytes

def decodeDocument? (bytes : Bytes) : Option Text :=
  let (encoding, rest) := detect bytes
  encoding.decode? rest

end Encoding

end RedGreen
