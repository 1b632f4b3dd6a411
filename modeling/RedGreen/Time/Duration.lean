import RedGreen.Number.Binary64
import RedGreen.Text.Basic

/-!
# Durations

A duration is a whole number of microseconds.  It is measured in seconds as a binary64 number,
rounded once; going back rounds to a whole microsecond, a tie to the even one.
-/

namespace RedGreen

/-- A signed duration of less than a thousand million days. -/
@[ext] structure Duration where
  micros : Int
  lower : -86399999913600000000 ≤ micros
  upper : micros ≤ 86399999999999999999
  deriving DecidableEq

namespace Duration

def ofMicros? (micros : Int) : Option Duration :=
  if h : -86399999913600000000 ≤ micros ∧ micros ≤ 86399999999999999999 then
    some ⟨micros, h.1, h.2⟩
  else none

def zero : Duration := ⟨0, by decide, by decide⟩

/-- The longer of two durations. -/
def max (a b : Duration) : Duration := if a.micros ≤ b.micros then b else a

/-- The duration in seconds, rounded to the nearest number. -/
def toSeconds (d : Duration) : Binary64 :=
  .ofRatio (decide (d.micros < 0)) d.micros.natAbs 1000000

/-- The duration of a number of seconds, or `none` when it is too long or not finite.  The part
behind the point is scaled as a number before the sum is rounded. -/
def ofSeconds? (seconds : Binary64) : Option Duration :=
  match seconds.truncate?, (seconds.fraction.mul (.ofNat 1000000)).units? with
  | some whole, some behind =>
    let units := whole * 1000000 * (Magnitude.unitsPerOne : Int) + behind
    ofMicros? (Int.roundRatioEven units Magnitude.unitsPerOne)
  | _, _ => none

/-- A number of seconds as hours, minutes and seconds, without leading parts that are zero. -/
def clockText (total : Int) : Text :=
  let hours := total.fdiv 3600
  let remainder := total - hours * 3600
  let minutes := remainder / 60
  let seconds := remainder % 60
  if hours ≠ 0 then
    Text.ofInt hours ++ ("h " : Text) ++ Text.ofInt minutes ++ ("m " : Text) ++
      Text.ofInt seconds ++ ("s" : Text)
  else if minutes ≠ 0 then
    Text.ofInt minutes ++ ("m " : Text) ++ Text.ofInt seconds ++ ("s" : Text)
  else Text.ofInt seconds ++ ("s" : Text)

/-- The nearest whole second on a clock; a single dash when there is no duration. -/
def format (d : Option Duration) : Text :=
  (d.bind fun d => d.toSeconds.roundEven?).elim "-" clockText

end Duration

end RedGreen
