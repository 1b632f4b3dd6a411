import RedGreen.Time.Calendar
import RedGreen.Time.Duration

/-!
# Points in time

A date and time is a wall-clock reading, kept as microseconds from the start of 1970, and the
offset of that clock from UTC, when it is known.  Readings lie in the years 1 to 9999.
-/

namespace RedGreen

/-- A clock reading.  An offset is a whole number of seconds, as commits and written times give it;
zones that lie a fraction of a second apart have no place here. -/
@[ext] structure DateTime where
  micros : Int
  offset : Option Int
  lower : -62135596800000000 ≤ micros
  upper : micros ≤ 253402300799999999
  deriving DecidableEq

namespace DateTime

def ofMicros? (micros : Int) (offset : Option Int) : Option DateTime :=
  if h : -62135596800000000 ≤ micros ∧ micros ≤ 253402300799999999 then
    some ⟨micros, offset, h.1, h.2⟩
  else none

def microsPerDay : Int := 86400000000

/-- The reading for a date and a number of microseconds since midnight. -/
def ofDate? (date : Date) (sinceMidnight : Int) (offset : Option Int) : Option DateTime :=
  ofMicros? (date.toDays * microsPerDay + sinceMidnight) offset

def date (t : DateTime) : Date := Date.ofDays (t.micros.fdiv microsPerDay)

/-- Microseconds since midnight. -/
def sinceMidnight (t : DateTime) : Nat :=
  (t.micros - t.micros.fdiv microsPerDay * microsPerDay).toNat

/-- Microseconds from the start of 1970 in UTC; a clock without offset is taken to show UTC. -/
def instant (t : DateTime) : Int := t.micros - t.offset.getD 0 * 1000000

/-- The same point in time on a UTC clock, or `none` when that is out of range.  A clock without
offset is taken to show UTC. -/
def toUtc? (t : DateTime) : Option DateTime := ofMicros? t.instant (some 0)

/-- The time from `s` to `t`, on UTC clocks. -/
def since (t s : DateTime) : Duration :=
  ⟨t.micros - s.micros, by
    have h₁ := t.lower; have h₂ := s.upper; omega, by
    have h₁ := t.upper; have h₂ := s.lower; omega⟩

/-- The time that passes from `s` to `t`. -/
def elapsed? (t s : DateTime) : Option Duration := Duration.ofMicros? (t.instant - s.instant)

/-! ## Writing -/

def dateText (d : Date) : Text :=
  Text.padNat 4 d.year.toNat ++ CodePoint.ofChar '-' :: Text.padNat 2 d.month ++
    CodePoint.ofChar '-' :: Text.padNat 2 d.day

/-- Hours, minutes and seconds, and the microseconds when there are any. -/
def timeText (sinceMidnight : Nat) : Text :=
  let seconds := sinceMidnight / 1000000
  let micros := sinceMidnight % 1000000
  Text.padNat 2 (seconds / 3600) ++ CodePoint.ofChar ':' ::
    Text.padNat 2 (seconds / 60 % 60) ++ CodePoint.ofChar ':' ::
    Text.padNat 2 (seconds % 60) ++
    (if micros = 0 then [] else CodePoint.ofChar '.' :: Text.padNat 6 micros)

def offsetSign (offset : Int) : CodePoint := if offset < 0 then '-' else '+'

/-- Sign, hours and minutes of an offset, and the seconds when there are any. -/
def offsetText (offset : Int) : Text :=
  let n := offset.natAbs
  offsetSign offset :: Text.padNat 2 (n / 3600) ++ CodePoint.ofChar ':' ::
    Text.padNat 2 (n / 60 % 60) ++
    (if n % 60 = 0 then [] else CodePoint.ofChar ':' :: Text.padNat 2 (n % 60))

def clockText (t : DateTime) : Text :=
  dateText t.date ++ CodePoint.ofChar 'T' :: timeText t.sinceMidnight

/-- The full form, with a numeric offset. -/
def iso (t : DateTime) : Text :=
  t.clockText ++ (match t.offset with | none => [] | some o => offsetText o)

/-- The form of journals and documents, in which UTC is the letter `Z`. -/
def stamp (t : DateTime) : Text :=
  t.clockText ++
    (match t.offset with
     | none => []
     | some o =>
       if o = 0 then [CodePoint.ofChar 'Z']
       else
         let n := o.natAbs
         offsetSign o :: Text.padNat 2 (n / 3600) ++ CodePoint.ofChar ':' ::
           Text.padNat 2 (n / 60 % 60))

/-- The form of tables: no seconds, and a year without leading zeros. -/
def minuteText (t : DateTime) : Text :=
  let d := t.date
  let seconds := t.sinceMidnight / 1000000
  Text.ofNat d.year.toNat ++ CodePoint.ofChar '-' :: Text.padNat 2 d.month ++
    CodePoint.ofChar '-' :: Text.padNat 2 d.day ++ CodePoint.ofChar ' ' ::
    Text.padNat 2 (seconds / 3600) ++ CodePoint.ofChar ':' :: Text.padNat 2 (seconds / 60 % 60)

end DateTime

end RedGreen
