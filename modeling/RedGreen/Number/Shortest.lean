import RedGreen.Number.Binary64

/-!
# Shortest decimals

A finite number is written with the fewest decimal digits that read back as the same number.
The reals that round to a number form an interval around it; for one digit, two digits and so
on the two decimals next to the number are tried, and the first that lies in the interval is
taken, the nearer of two, the even one in a tie.
-/

namespace RedGreen

/-- A positive decimal `d₁.d₂…dₙ * 10 ^ exponent` with `n = count` digits, given by
the natural number `d₁d₂…dₙ`. -/
structure Decimal where
  digits : Nat
  count : Nat
  exponent : Int
  deriving DecidableEq

namespace Magnitude

/-- The interval of reals that round to a magnitude, in quarters of a least unit. -/
structure Interval where
  lower : Nat
  upper : Nat
  closed : Bool

def interval (m : Magnitude) : Interval :=
  let gap := twoTo m.scale
  { lower := 4 * m.units - (if m.significand = twoTo 52 ∧ 0 < m.scale then gap else 2 * gap)
    upper := 4 * m.units + 2 * gap
    closed := m.significand % 2 = 0 }

/-- Whether `num / den`, in quarters of a least unit, lies in the interval. -/
def Interval.contains (i : Interval) (num den : Nat) : Bool :=
  if i.closed then i.lower * den ≤ num && num ≤ i.upper * den
  else i.lower * den < num && num < i.upper * den

end Magnitude

namespace Decimal

/-- How many tens `num` takes to reach `den`. -/
def tensBelow (num den : Nat) : (fuel : Nat) → Nat
  | 0 => 0
  | fuel + 1 => if num < den then tensBelow (num * 10) den fuel + 1 else 0

/-- How many tens `den` takes until one more would exceed `num`. -/
def tensAbove (num den : Nat) : (fuel : Nat) → Nat
  | 0 => 0
  | fuel + 1 => if den * 10 ≤ num then tensAbove num (den * 10) fuel + 1 else 0

/-- A decimal without zeros at its end. -/
def trimZeros : (fuel : Nat) → Decimal → Decimal
  | 0, d => d
  | fuel + 1, d =>
    if 1 < d.count ∧ d.digits % 10 = 0 then
      trimZeros fuel { d with digits := d.digits / 10, count := d.count - 1 }
    else d

/-- Where the decimals of a magnitude are looked for: the magnitude is
`num / den * 10 ^ exponent` with one digit before the point, and `den` is `10 ^ down` times too
large for counting in units. -/
structure Grid where
  num : Nat
  den : Nat
  down : Nat
  exponent : Int

def Grid.of (m : Magnitude) : Grid :=
  let down := tensBelow m.units Magnitude.unitsPerOne 400
  let up := tensAbove m.units Magnitude.unitsPerOne 400
  { num := m.units * tenTo down
    den := Magnitude.unitsPerOne * tenTo up
    down := down
    exponent := (up : Int) - down }

/-- The decimal with `count` digits that is next to the magnitude and reads back as it, the
nearer of two. -/
def Grid.candidate? (g : Grid) (i : Magnitude.Interval) (count : Nat) : Option Nat :=
  let power := tenTo (count - 1)
  let inside (d : Nat) : Bool := i.contains (4 * d * g.den) (tenTo g.down * power)
  let near := roundHalfEven (g.num * power) g.den
  let low := g.num * power / g.den
  if inside near then some near
  else if inside low then some low
  else if inside (low + 1) then some (low + 1)
  else none

/-- Tries `count` digits, then one more, and so on; seventeen always suffice. -/
def Grid.search (g : Grid) (i : Magnitude.Interval) : (fuel count : Nat) → Decimal
  | 0, count => ⟨roundHalfEven (g.num * tenTo (count - 1)) g.den, count, g.exponent⟩
  | fuel + 1, count =>
    match g.candidate? i count with
    | some d =>
      if d = tenTo count then ⟨1, 1, g.exponent + 1⟩ else trimZeros count ⟨d, count, g.exponent⟩
    | none => g.search i fuel (count + 1)

def shortest (m : Magnitude) : Decimal := (Grid.of m).search m.interval 17 1

end Decimal

end RedGreen
