import RedGreen.Text.Utf8

/-!
# SHA-1

The 160-bit digest of a sequence of bytes: the padded message is cut into blocks of sixteen
words, and each block is mixed into five words in eighty rounds.
-/

namespace RedGreen

namespace Sha1

structure Chain where
  a : UInt32
  b : UInt32
  c : UInt32
  d : UInt32
  e : UInt32

def Chain.initial : Chain := ⟨0x67452301, 0xEFCDAB89, 0x98BADCFE, 0x10325476, 0xC3D2E1F0⟩

def Chain.add (s t : Chain) : Chain := ⟨s.a + t.a, s.b + t.b, s.c + t.c, s.d + t.d, s.e + t.e⟩

def Chain.toList (s : Chain) : List UInt32 := [s.a, s.b, s.c, s.d, s.e]

def rotateLeft (count : UInt32) (w : UInt32) : UInt32 := w <<< count ||| w >>> (32 - count)

/-- The function and the constant of each quarter of the rounds. -/
def quarter (round : Nat) (b c d : UInt32) : UInt32 :=
  if round < 20 then (b &&& c ||| ~~~b &&& d) + 0x5A827999
  else if round < 40 then (b ^^^ c ^^^ d) + 0x6ED9EBA1
  else if round < 60 then (b &&& c ||| b &&& d ||| c &&& d) + 0x8F1BBCDC
  else (b ^^^ c ^^^ d) + 0xCA62C1D6

def mix (s : Chain) (round : Nat) (word : UInt32) : Chain :=
  ⟨rotateLeft 5 s.a + quarter round s.b s.c s.d + s.e + word, s.a, rotateLeft 30 s.b, s.c, s.d⟩

/-- Adds `count` words to a schedule that is held with its latest word first. -/
def extend : (count : Nat) → List UInt32 → List UInt32
  | 0, words => words
  | count + 1, words =>
    let next := rotateLeft 1
      (words.getD 2 0 ^^^ words.getD 7 0 ^^^ words.getD 13 0 ^^^ words.getD 15 0)
    extend count (next :: words)

def schedule (block : List UInt32) : List UInt32 := (extend 64 block.reverse).reverse

def mixFrom (round : Nat) (s : Chain) : List UInt32 → Chain
  | [] => s
  | w :: ws => mixFrom (round + 1) (mix s round w) ws

def mixBlock (s : Chain) (block : List UInt32) : Chain :=
  s.add (mixFrom 0 s (schedule block))

/-- Bytes of a number of the given width, the highest first. -/
def bigEndian : (width : Nat) → Nat → Bytes
  | 0, _ => []
  | width + 1, n => bigEndian width (n / 256) ++ [UInt8.ofNat (n % 256)]

/-- The message, a mark, zeros up to a whole number of blocks, and the length in bits. -/
def pad (message : Bytes) : Bytes :=
  let zeros := (119 - message.length % 64) % 64
  message ++ 0x80 :: List.replicate zeros 0 ++ bigEndian 8 (8 * message.length)

/-- Four bytes at a time, the highest first. -/
def wordsOf : Bytes → List UInt32
  | b₀ :: b₁ :: b₂ :: b₃ :: rest =>
    UInt32.ofNat (((b₀.toNat * 256 + b₁.toNat) * 256 + b₂.toNat) * 256 + b₃.toNat) :: wordsOf rest
  | _ => []

/-- Mixes in `count` blocks from the start of the words. -/
def mixBlocks : (count : Nat) → Chain → List UInt32 → Chain
  | 0, s, _ => s
  | count + 1, s, words => mixBlocks count (mixBlock s (words.take 16)) (words.drop 16)

def digest (message : Bytes) : Bytes :=
  let words := wordsOf (pad message)
  (mixBlocks (words.length / 16) .initial words).toList.flatMap fun w => bigEndian 4 w.toNat

end Sha1

end RedGreen
