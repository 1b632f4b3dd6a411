import RedGreen.Digest.Sha1

/-!
# Trace ids

The id of a trace is derived from the hash of its commit, so that a commit that is published
again updates its trace instead of adding one.
-/

namespace RedGreen

namespace TraceId

def nameSpace : Bytes :=
  [0x6F, 0x1C, 0x8A, 0x52, 0x2F, 0x0E, 0x4B, 0x8E, 0x9A, 0x57, 0x2D, 0x4F, 0x6F, 0x0E, 0x3C, 0x11]

/-- Sets the bits that tell a derived id: version five in byte six, the variant in byte eight. -/
def mark (bytes : Bytes) : Bytes :=
  bytes.zipIdx.map fun p =>
    if p.2 = 6 then UInt8.ofNat (p.1.toNat % 16 + 0x50)
    else if p.2 = 8 then UInt8.ofNat (p.1.toNat % 64 + 0x80)
    else p.1

def hexText (bytes : Bytes) : Text := bytes.flatMap fun b => Text.hex 2 b.toNat

/-- Sixteen bytes in five groups with hyphens between them. -/
def write (bytes : Bytes) : Text :=
  Text.join "-"
    [hexText (bytes.take 4), hexText ((bytes.drop 4).take 2), hexText ((bytes.drop 6).take 2),
     hexText ((bytes.drop 8).take 2), hexText (bytes.drop 10)]

def ofBytes (name : Bytes) : Text := write (mark ((Sha1.digest (nameSpace ++ name)).take 16))

/-- The trace id for a commit; a hash that cannot be encoded has none. -/
def ofHash (hash : Text) : Except EncodeError Text := (Text.encode? hash).map ofBytes

end TraceId

end RedGreen
