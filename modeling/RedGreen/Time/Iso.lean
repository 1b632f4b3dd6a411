import RedGreen.Time.Reading

/-!
# The notation of ISO 8601

Author times and clock readings come in ISO 8601: a date of the calendar or of a week, with or
without dashes, then any one character, then a clock time, with or without colons, and perhaps an
offset.  The reader is generous.  A clock time may stop after the hours, its last part may have a
fraction, and in front of an offset whatever follows six digits of a fraction is not looked at.
-/

namespace RedGreen

namespace Date

/-- The day of the week of the first of January, Monday being 0. -/
def firstWeekday (year : Int) : Int := (toDays ⟨year, 1, 1⟩ + 3) % 7

/-- A year has a week 53 when it begins on a Thursday, or on the Wednesday before a leap day. -/
def hasWeek53 (year : Int) : Bool :=
  firstWeekday year == 3 || (firstWeekday year == 2 && isLeapYear year)

/-- The Monday of the week with the first Thursday of a year. -/
def firstMonday (year : Int) : Int :=
  let monday := toDays ⟨year, 1, 1⟩ - firstWeekday year
  if 3 < firstWeekday year then monday + 7 else monday

/-- A day of a week, Monday being 1. -/
def ofWeek? (year week day : Nat) : Option Date :=
  if year = 0 ∨ week = 0 ∨ 53 < week ∨ (week = 53 ∧ !hasWeek53 year) ∨ day = 0 ∨ 7 < day then none
  else some (ofDays (firstMonday year + (week - 1) * 7 + (day - 1)))

end Date

namespace DateTime

/-! ## Dates -/

/-- A number of `n` digits at the start of a text. -/
def readNumber? : (n : Nat) → (value : Nat) → Text → Option (Nat × Text)
  | 0, value, t => some (value, t)
  | _ + 1, _, [] => none
  | n + 1, value, c :: t =>
    match c.digit? with
    | some d => readNumber? n (10 * value + d) t
    | none => none

def hasMark (t : Text) (place : Nat) (mark : CodePoint) : Bool := decide (t[place]? = some mark)

def hasDigit (t : Text) (place : Nat) : Bool := (t[place]?.map CodePoint.isDigit).getD false

/-- How many characters the date takes, for a text that may go on behind it. -/
def dateLength (t : Text) : Nat :=
  if t.length = 7 then 7
  else if hasMark t 4 '-' then
    if hasMark t 5 'W' then
      if hasMark t 8 '-' && !hasDigit t 10 then 10 else 8
    else 10
  else if hasMark t 4 'W' then
    let stop := 7 + ((t.drop 7).takeWhile CodePoint.isDigit).length
    if stop < 9 then stop else if stop % 2 = 0 then 7 else 8
  else 8

/-- A week and perhaps a day, up to the end. -/
def readWeek? (year : Nat) (dashed : Bool) (t : Text) : Option Date := do
  let (week, t) ← readNumber? 2 0 t
  if t.isEmpty then Date.ofWeek? year week 1
  else
    let t ← if dashed then readMark? '-' t else some t
    let (day, t) ← readNumber? 1 0 t
    if t.isEmpty then Date.ofWeek? year week day else none

/-- A month and a day, up to the end. -/
def readMonth? (year : Nat) (dashed : Bool) (t : Text) : Option Date := do
  let (month, t) ← readNumber? 2 0 t
  let t ← if dashed then readMark? '-' t else some t
  let (day, t) ← readNumber? 2 0 t
  let date : Date := ⟨(year : Nat), month, day⟩
  if t.isEmpty && decide date.IsValid && decide (year ≠ 0) then some date else none

def readWholeDate? (t : Text) : Option Date := do
  let (year, t) ← readNumber? 4 0 t
  let dashed := hasMark t 0 '-'
  let t := if dashed then t.drop 1 else t
  match readMark? 'W' t with
  | some t => readWeek? year dashed t
  | none => readMonth? year dashed t

/-! ## Clock times -/

/-- Hours, minutes, seconds and microseconds, and whether nothing was left behind them. -/
structure Clock where
  hour : Nat
  minute : Nat
  second : Nat
  micros : Nat
  whole : Bool

namespace Clock

/-- Sets the first, second or third part. -/
def set (c : Clock) (place value : Nat) : Clock :=
  match place with
  | 0 => { c with hour := value }
  | 1 => { c with minute := value }
  | _ => { c with second := value }

/-- The fraction behind the last part.  Only its first six digits count. -/
def readFraction? (c : Clock) (t : Text) : Option Clock :=
  let front := t.take 6
  if front.all CodePoint.isDigit then
    some { c with
      micros := fractionMicros (Text.spanDigits front).1
      whole := c.whole && ((t.drop 6).dropWhile CodePoint.isDigit).isEmpty }
  else none

/-- Reads the parts from `place` on.  Whether there are colons between them is decided behind the
first one.  One character of ASCII may be left. -/
def readFrom? (colons : Bool) (place : Nat) : (left : Nat) → Clock → Text → Option Clock
  | 0, c, t => c.readFraction? t
  | left + 1, c, t =>
    match read2? t with
    | none => none
    | some (value, rest) =>
      let c := c.set place value
      match rest with
      | [] => some c
      | [mark] => if mark.val < 0x80 then some { c with whole := false } else none
      | mark :: more =>
        let colons := if place = 0 then mark = ':' else colons
        if colons && mark = ':' then readFrom? colons (place + 1) left c more
        else if mark = '.' ∨ mark = ',' then c.readFraction? more
        else if colons then none
        else readFrom? colons (place + 1) left c rest

def read? (t : Text) : Option Clock := readFrom? false 0 3 ⟨0, 0, 0, 0, true⟩ t

def seconds (c : Clock) : Nat := c.hour * 3600 + c.minute * 60 + c.second

/-- Microseconds since midnight. -/
def sinceMidnight? (c : Clock) : Option Nat :=
  if c.hour ≤ 23 ∧ c.minute ≤ 59 ∧ c.second ≤ 59 then some (c.seconds * 1000000 + c.micros)
  else none

end Clock

/-- An offset behind its sign, in seconds.  It stays below one day. -/
def readOffsetClock? (t : Text) : Option Nat := do
  let c ← Clock.read? t
  if c.whole && decide (c.micros = 0) && decide (c.seconds < 86400) then some c.seconds else none

def startsOffset (c : CodePoint) : Bool := c = '+' || c = '-' || c = 'Z'

/-- A clock time and perhaps an offset: microseconds since midnight and seconds of offset. -/
def readTime? (t : Text) : Option (Nat × Option Int) := do
  let c ← Clock.read? (t.takeWhile fun d => !startsOffset d)
  let micros ← c.sinceMidnight?
  match t.dropWhile fun d => !startsOffset d with
  | [] => if c.whole then some (micros, none) else none
  | sign :: rest =>
    if sign = 'Z' then (if rest.isEmpty then some (micros, some 0) else none)
    else
      let offset ← readOffsetClock? rest
      some (micros, some (if sign = '+' then (offset : Int) else -(offset : Int)))

/-! ## Points in time -/

/-- A date, or a date and time with any character between them. -/
def readIso? (t : Text) : Option DateTime :=
  if t.length < 7 then none
  else do
    let date ← readWholeDate? (t.take (dateLength t))
    match t.drop (dateLength t) with
    | [] => ofDate? date 0 none
    | _ :: t =>
      let (micros, offset) ← readTime? t
      ofDate? date micros offset

end DateTime

end RedGreen
