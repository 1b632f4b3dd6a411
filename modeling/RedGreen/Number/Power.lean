/-!
# Powers of two and ten

The bases that binary and decimal numerals are made of.
-/

namespace RedGreen

/-- The power of two with the given exponent. -/
abbrev twoTo (n : Nat) : Nat := Nat.pow 2 n

abbrev tenTo (n : Nat) : Nat := Nat.pow 10 n

end RedGreen
