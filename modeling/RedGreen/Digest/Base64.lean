import RedGreen.Text.Utf8

/-!
# Base64

Bytes as text: three bytes make four characters of six bits each, and equals signs fill up the
last group.
-/

namespace RedGreen

namespace Base64

def character (n : Nat) : CodePoint :=
  if n < 26 then .ofNat (0x41 + n)
  else if n < 52 then .ofNat (0x61 + (n - 26))
  else if n < 62 then .ofNat (0x30 + (n - 52))
  else if n = 62 then '+'
  else '/'

/-- The four characters of a group of 24 bits. -/
def group (n : Nat) : Text :=
  [character (n / 262144 % 64), character (n / 4096 % 64), character (n / 64 % 64),
   character (n % 64)]

def encode : Bytes → Text
  | [] => []
  | [b₀] => (group (b₀.toNat * 65536)).take 2 ++ ("==" : Text)
  | [b₀, b₁] => (group (b₀.toNat * 65536 + b₁.toNat * 256)).take 3 ++ ("=" : Text)
  | b₀ :: b₁ :: b₂ :: rest =>
    group (b₀.toNat * 65536 + b₁.toNat * 256 + b₂.toNat) ++ encode rest

end Base64

end RedGreen
