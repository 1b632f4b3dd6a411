import RedGreen.Number.Power

/-!
# Binary floating point with 53-bit significands

Durations, delays and clock readings are binary64 numbers.  They are modelled exactly: a
finite number is a significand times a power of two, stored as the offset of its exponent
from the least one, so that the value times `2 ^ 1074` is the natural number
`significand * 2 ^ scale`.  Every operation computes its exact rational result and rounds it
once, to the nearest number, a tie going to the even significand.
-/

namespace RedGreen

/-- A finite magnitude `significand * 2 ^ scale / 2 ^ 1074`, in the one form in which the
significand is as large as 53 bits allow. -/
@[ext] structure Magnitude where
  significand : Nat
  scale : Nat
  significand_lt : significand < twoTo 53
  scale_le : scale ≤ 2045
  normal : twoTo 52 ≤ significand ∨ scale = 0
  deriving DecidableEq

/-- A binary64 number. -/
inductive Binary64 where
  | finite (negative : Bool) (magnitude : Magnitude)
  | infinite (negative : Bool)
  | notANumber
  deriving DecidableEq

/-- The natural number next to `num / den`; a tie goes to the even neighbour. -/
def roundHalfEven (num den : Nat) : Nat :=
  let q := num / den
  let twice := 2 * (num % den)
  if twice < den then q
  else if den < twice then q + 1
  else if q % 2 = 0 then q else q + 1

/-- The natural number next to `num / den`; a tie goes up. -/
def roundHalfUp (num den : Nat) : Nat :=
  let q := num / den
  if 2 * (num % den) < den then q else q + 1

/-- `roundHalfEven` for a numerator of either sign. -/
def Int.roundRatioEven (num : Int) (den : Nat) : Int :=
  match num with
  | .ofNat n => roundHalfEven n den
  | .negSucc n => -(roundHalfEven (n + 1) den : Int)

namespace Magnitude

/-- The value of the least unit is `1 / unitsPerOne`. -/
def unitsPerOne : Nat := twoTo 1074

def zero : Magnitude := ⟨0, 0, by decide, by decide, .inr rfl⟩

/-- The magnitude counted in least units. -/
def units (m : Magnitude) : Nat := m.significand * twoTo m.scale

/-- The magnitude with the given significand and scale, or `none` beyond the largest one.  A
significand of `2 ^ 53` is halved. -/
def ofParts? (significand scale : Nat) : Option Magnitude :=
  if h : significand < twoTo 53 ∧ scale ≤ 2045 ∧ (twoTo 52 ≤ significand ∨ scale = 0) then
    some ⟨significand, scale, h.1, h.2.1, h.2.2⟩
  else if h : significand = twoTo 53 ∧ scale + 1 ≤ 2045 then
    some ⟨twoTo 52, scale + 1, by decide, h.2, .inl (Nat.le_refl _)⟩
  else none

/-- The magnitude nearest to `num / den`, or `none` when that lies beyond the largest one. -/
def ofRatio? (num den : Nat) : Option Magnitude :=
  let scaled := num * unitsPerOne
  let scale := (scaled / den).log2 + 1 - 53
  ofParts? (roundHalfEven scaled (den * twoTo scale)) scale

def isZero (m : Magnitude) : Bool := m.significand == 0

/-- The part before the point. -/
def floor (m : Magnitude) : Nat := m.units / unitsPerOne

def isIntegral (m : Magnitude) : Bool := m.units % unitsPerOne == 0

end Magnitude

namespace Binary64

def zero : Binary64 := .finite false .zero

def ofRatio (negative : Bool) (num den : Nat) : Binary64 :=
  (Magnitude.ofRatio? num den).elim (.infinite negative) (.finite negative)

def ofNat (n : Nat) : Binary64 := ofRatio false n 1

/-- The number nearest to an integer, or `none` when that is infinite. -/
def ofInt? (i : Int) : Option Binary64 :=
  (Magnitude.ofRatio? i.natAbs 1).map (.finite (decide (i < 0)))

def isNaN : Binary64 → Bool
  | .notANumber => true
  | _ => false

def isFinite : Binary64 → Bool
  | .finite .. => true
  | _ => false

/-- Neither zero is true; everything else is. -/
def isTruthy : Binary64 → Bool
  | .finite _ m => !m.isZero
  | _ => true

/-- The value of a finite number counted in least units. -/
def units? : Binary64 → Option Int
  | .finite false m => some m.units
  | .finite true m => some (-(m.units : Int))
  | _ => none

/-- Strict order of the extended reals; false when either side is no number. -/
def lt : Binary64 → Binary64 → Bool
  | .notANumber, _ => false
  | _, .notANumber => false
  | .infinite true, .infinite true => false
  | .infinite true, _ => true
  | _, .infinite true => false
  | .infinite false, _ => false
  | _, .infinite false => true
  | .finite s m, .finite t n =>
    match s, t with
    | false, false => m.units < n.units
    | true, true => n.units < m.units
    | true, false => 0 < m.units + n.units
    | false, true => false

/-- Equality as numbers: both zeros are one, and nothing equals a NaN. -/
def equals (x y : Binary64) : Bool :=
  !x.isNaN && !y.isNaN && !lt x y && !lt y x

def le (x y : Binary64) : Bool := lt x y || equals x y

/-- The number with the given value in least units divided by `den`, a zero taking the sign. -/
def ofUnits (zeroNegative : Bool) (units : Int) (den : Nat) : Binary64 :=
  if units = 0 then .finite zeroNegative .zero
  else ofRatio (decide (units < 0)) units.natAbs (Magnitude.unitsPerOne * den)

def neg : Binary64 → Binary64
  | .finite s m => .finite (!s) m
  | .infinite s => .infinite (!s)
  | .notANumber => .notANumber

def abs : Binary64 → Binary64
  | .finite _ m => .finite false m
  | .infinite _ => .infinite false
  | .notANumber => .notANumber

def add : Binary64 → Binary64 → Binary64
  | .notANumber, _ => .notANumber
  | _, .notANumber => .notANumber
  | .infinite s, .infinite t => if s = t then .infinite s else .notANumber
  | .infinite s, _ => .infinite s
  | _, .infinite t => .infinite t
  | .finite s m, .finite t n =>
    let a : Int := if s then -(m.units : Int) else m.units
    let b : Int := if t then -(n.units : Int) else n.units
    ofUnits (s && t) (a + b) 1

def sub (x y : Binary64) : Binary64 := add x y.neg

def mul : Binary64 → Binary64 → Binary64
  | .notANumber, _ => .notANumber
  | _, .notANumber => .notANumber
  | .infinite s, .infinite t => .infinite (s != t)
  | .infinite s, .finite t n => if n.isZero then .notANumber else .infinite (s != t)
  | .finite s m, .infinite t => if m.isZero then .notANumber else .infinite (s != t)
  | .finite s m, .finite t n =>
    ofRatio (s != t) (m.units * n.units) (Magnitude.unitsPerOne * Magnitude.unitsPerOne)

def divNat (x : Binary64) (d : Nat) : Binary64 :=
  match x with
  | .finite s m => ofRatio s m.units (Magnitude.unitsPerOne * d)
  | x => x

/-- The greatest integer not above a finite number. -/
def floor? : Binary64 → Option Int
  | .finite false m => some m.floor
  | .finite true m => some (Int.fdiv (-(m.units : Int)) (Magnitude.unitsPerOne : Int))
  | _ => none

/-- The integer next to a finite number on the side of zero. -/
def truncate? : Binary64 → Option Int
  | .finite false m => some m.floor
  | .finite true m => some (-(m.floor : Int))
  | _ => none

/-- The part of a finite number behind the point, with the sign of the number. -/
def fraction : Binary64 → Binary64
  | .finite s m => ofRatio s (m.units % Magnitude.unitsPerOne) Magnitude.unitsPerOne
  | .infinite _ => .notANumber
  | .notANumber => .notANumber

/-- The nearest integer of a finite number, a tie going to the even one. -/
def roundEven? : Binary64 → Option Int
  | .finite false m => some (roundHalfEven m.units Magnitude.unitsPerOne)
  | .finite true m => some (-(roundHalfEven m.units Magnitude.unitsPerOne : Int))
  | _ => none

/-- The nearest integer of a finite number, a tie going away from zero. -/
def roundAway? : Binary64 → Option Int
  | .finite false m => some (roundHalfUp m.units Magnitude.unitsPerOne)
  | .finite true m => some (-(roundHalfUp m.units Magnitude.unitsPerOne : Int))
  | _ => none

/-- A finite number with nothing behind the point. -/
def isIntegral : Binary64 → Bool
  | .finite _ m => m.isIntegral
  | _ => false

end Binary64

end RedGreen
