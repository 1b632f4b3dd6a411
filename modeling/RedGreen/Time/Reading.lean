import RedGreen.Time.DateTime
import RedGreen.Number.Numeral

/-!
# Reading dates, times and durations

Three notations are read.  `readStamp?` is the full notation of a date, a separator and a time
with an optional offset.  A number counts seconds from the start of 1970, or milliseconds when
it is large.  A bare date stands for its midnight.  Durations are read from their ISO 8601
notation, from a count of days followed by a clock time, or from a clock time alone.
-/

namespace RedGreen

namespace DateTime

/-- Why something is no date and time. -/
inductive Fault where
  /-- A value of a type that is never read as one. -/
  | type
  /-- A number out of range, or the year zero. -/
  | parsing
  /-- A text in none of the notations. -/
  | fromDate
  deriving DecidableEq

/-- Two decimal digits at the start of a text. -/
def read2? : Text → Option (Nat × Text)
  | a :: b :: t =>
    match a.digit?, b.digit? with
    | some a, some b => some (10 * a + b, t)
    | _, _ => none
  | _ => none

def readMark? (mark : CodePoint) : Text → Option Text
  | c :: t => if c = mark then some t else none
  | [] => none

/-- A year of four digits, a month and a day at the start of a text. -/
def readDate? (t : Text) : Option (Date × Text) := do
  let (century, t) ← read2? t
  let (year, t) ← read2? t
  let t ← readMark? '-' t
  let (month, t) ← read2? t
  let t ← readMark? '-' t
  let (day, t) ← read2? t
  let date : Date := ⟨(century * 100 + year : Nat), month, day⟩
  if date.IsValid then some (date, t) else none

/-- Microseconds from the digits behind a point; digits beyond the sixth are dropped. -/
def fractionMicros (digits : List Nat) : Nat :=
  Text.digitsValue ((digits ++ List.replicate 6 0).take 6)

/-- Microseconds behind the point or comma that may follow whole seconds. -/
def readFraction? : Text → Option (Nat × Text)
  | [] => some (0, [])
  | c :: t =>
    if c = '.' ∨ c = ',' then
      match Text.spanDigits t with
      | ([], _) => none
      | (digits, rest) => some (fractionMicros digits, rest)
    else some (0, c :: t)

/-- A clock time at the start of a text, in microseconds since midnight; seconds may be
missing. -/
def readClock? (t : Text) : Option (Nat × Text) := do
  let (hour, t) ← read2? t
  let t ← readMark? ':' t
  let (minute, t) ← read2? t
  if 23 < hour ∨ 59 < minute then none
  else
    let start := (hour * 3600 + minute * 60) * 1000000
    match readMark? ':' t with
    | none => some (start, t)
    | some t =>
      let (second, t) ← read2? t
      if 59 < second then none
      else
        let (micros, t) ← readFraction? t
        some (start + second * 1000000 + micros, t)

/-- An offset that fills the whole text, in seconds: a `Z`, or a sign, hours and minutes. -/
def readOffset? : Text → Option Int
  | [] => none
  | c :: t =>
    if c = 'Z' ∨ c = 'z' then (if t.isEmpty then some 0 else none)
    else if c = '+' ∨ c = '-' ∨ c.val = 0x2212 then do
      let (hours, t) ← read2? t
      let (minutes, t) ← read2? ((readMark? ':' t).getD t)
      let seconds := hours * 3600 + minutes * 60
      if 59 < minutes ∨ 86400 ≤ seconds ∨ !t.isEmpty then none
      else some (if c = '+' then (seconds : Int) else -(seconds : Int))
    else none

/-- The parts of a date and time in full notation: date, microseconds since midnight and
offset. -/
def readStamp? (t : Text) : Option (Date × Nat × Option Int) := do
  let (date, t) ← readDate? t
  match t with
  | [] => none
  | sep :: t =>
    if sep = 'T' ∨ sep = 't' ∨ sep = ' ' ∨ sep = '_' then do
      let (micros, t) ← readClock? t
      if t.isEmpty then some (date, micros, none)
      else
        let offset ← readOffset? t
        some (date, micros, some offset)
    else none

/-- Counts beyond this one are milliseconds. -/
def millisecondsBeyond : Int := 20000000000

/-- The time `count` seconds, or milliseconds, and some microseconds from the start of 1970;
`none` before the year 1600 and after the year 9999. -/
def ofCount? (count : Int) (micros : Int) : Option DateTime :=
  let (seconds, extra) : Int × Int :=
    if count.natAbs ≤ millisecondsBeyond.natAbs then (count, 0)
    else (count.fdiv 1000, (count - count.fdiv 1000 * 1000) * 1000)
  let total := micros + extra
  let seconds := seconds + total / 1000000
  if seconds < -11676096000 ∨ 253402300799 < seconds then none
  else ofMicros? (seconds * 1000000 + total % 1000000) (some 0)

/-- The time that a number stands for; the part behind the point is taken without its sign. -/
def ofNumber? (x : Binary64) : Option DateTime :=
  match x.floor?, (x.fraction.abs.mul (.ofNat 1000000)).roundAway? with
  | some count, some micros => ofCount? count micros
  | _, _ => none

/-- A count of seconds as a text: decimal digits with a sign, and perhaps a fraction. -/
def ofNumeral? (t : Text) : Option DateTime :=
  let (negative, body) := Numeral.readSign t
  match Text.spanDigits body with
  | (_ :: _, []) =>
    let n : Int := Text.digitsValue (Text.spanDigits body).1
    ofCount? (if negative then -n else n) 0
  | (_, c :: _) =>
    if c = '.' then
      match Numeral.readUnsigned? body with
      | none => none
      | some u =>
        let x := u.value negative
        match x.floor? with
        | none => none
        | some count =>
          let behind := x.sub ((Binary64.ofInt? count).getD .zero)
          match (behind.mul (.ofNat 1000000)).roundAway? with
          | none => none
          | some micros => ofCount? count micros
    else none
  | ([], []) => none

/-- A text in any of the notations. -/
def read (t : Text) : Except Fault DateTime :=
  match readStamp? t with
  | some (date, micros, offset) =>
    if date.year = 0 then .error .parsing
    else match ofDate? date micros offset with
      | some stamp => .ok stamp
      | none => .error .parsing
  | none =>
    match ofNumeral? t with
    | some stamp => .ok stamp
    | none =>
      match readDate? t with
      | some (date, []) =>
        if date.year = 0 then .error .parsing
        else match ofDate? date 0 none with
          | some stamp => .ok stamp
          | none => .error .parsing
      | _ => .error .fromDate

end DateTime

namespace Duration

/-- Microseconds of days, seconds and microseconds below a thousand million days. -/
def ofParts? (negative : Bool) (days seconds micros : Nat) : Option Duration :=
  let total := days * 86400000000 + seconds * 1000000 + micros
  if 999999999 < total / 86400000000 then none
  else ofMicros? (if negative then -(total : Int) else total)

def ofIntSeconds? (seconds : Int) : Option Duration :=
  ofParts? (decide (seconds < 0)) 0 seconds.natAbs 0

/-- The duration of a number of seconds, microseconds being rounded away from zero. -/
def ofNumber? (x : Binary64) : Option Duration :=
  match x.abs.truncate?, (x.abs.fraction.mul (.ofNat 1000000)).roundAway? with
  | some seconds, some micros => ofParts? (x.lt .zero) 0 seconds.natAbs micros.natAbs
  | _, _ => none

/-- Digits and perhaps a fraction at the start of a text. -/
def readAmount? (t : Text) : Option (Nat × Option Binary64 × Text) :=
  match Text.spanDigits t with
  | ([], _) => none
  | (digits, rest) =>
    let whole := Text.digitsValue digits
    match rest with
    | c :: u =>
      if c = '.' ∨ c = ',' then
        match Text.spanDigits u with
        | (behind, v) =>
          let fraction := (Numeral.Unsigned.mk [] behind 0).value false
          some (whole, some fraction, v)
      else some (whole, none, rest)
    | [] => some (whole, none, [])

/-- Days in a unit of the date part. -/
def dateUnit? (c : CodePoint) : Option Nat :=
  if c = 'Y' then some 365 else if c = 'M' then some 30 else if c = 'W' then some 7
  else if c = 'D' then some 1 else none

/-- Seconds in a unit of the time part. -/
def timeUnit? (c : CodePoint) : Option Nat :=
  if c = 'H' then some 3600 else if c = 'M' then some 60 else if c = 'S' then some 1 else none

/-- Seconds and microseconds of a fraction of a unit. -/
def fractionParts (fraction : Binary64) (unitSeconds : Nat) : Nat × Nat :=
  let scaled := fraction.mul (.ofNat unitSeconds)
  match scaled.truncate?, (scaled.fraction.mul (.ofNat 1000000)).roundAway? with
  | some seconds, some micros => (seconds.natAbs, micros.natAbs)
  | _, _ => (0, 0)

/-- The parts of an ISO 8601 duration behind the `P`, as seconds and microseconds.  A fraction
may stand only in the last part. -/
def readIsoParts? : (fuel : Nat) → (inTime fractionSeen : Bool) → Text → Option (Nat × Nat)
  | 0, _, _, _ => none
  | _ + 1, _, _, [] => some (0, 0)
  | fuel + 1, inTime, fractionSeen, c :: t =>
    if c = 'T' then (if inTime then none else readIsoParts? fuel true fractionSeen t)
    else if fractionSeen then none
    else match readAmount? (c :: t) with
      | some (amount, fraction?, unit :: rest) => do
        let unitSeconds ←
          if inTime then timeUnit? unit else (dateUnit? unit).map fun d => d * 86400
        let (moreSeconds, moreMicros) ← readIsoParts? fuel inTime fraction?.isSome rest
        let (seconds, micros) := match fraction? with
          | some f => fractionParts f unitSeconds
          | none => (0, 0)
        some (amount * unitSeconds + seconds + moreSeconds, micros + moreMicros)
      | _ => none

/-- A clock time that fills the whole text; there may be any number of hours. -/
def readClock? (t : Text) : Option (Nat × Nat) :=
  if t.length < 5 then none
  else match Text.spanDigits t with
    | (hours, c :: rest) =>
      if c = ':' ∧ hours.length ≤ 10 then do
        let (minute, rest) ← DateTime.read2? rest
        if 59 < minute then none
        else
          let start := Text.digitsValue hours * 3600 + minute * 60
          match DateTime.readMark? ':' rest with
          | none => if rest.isEmpty then some (start, 0) else none
          | some rest =>
            let (second, rest) ← DateTime.read2? rest
            if 59 < second then none
            else
              let (micros, rest) ← DateTime.readFraction? rest
              if rest.isEmpty then some (start + second, micros) else none
      else none
    | _ => none

/-- What may follow a count of days: the rest of the word, a comma and a clock time. -/
def readAfterDays? (t : Text) : Option (Nat × Nat) := do
  let t := t.toLowerAscii
  let t ← match t with
    | c :: u =>
      if c = 'a' then
        match u with
        | d :: v => if d = 'y' then some ((DateTime.readMark? 's' v).getD v) else none
        | [] => none
      else some t
    | [] => some []
  let t := (DateTime.readMark? ',' t).getD t
  let t := (DateTime.readMark? ' ' t).getD t
  if t.isEmpty then some (0, 0) else readClock? t

/-- A count of days, and perhaps a clock time. -/
def readDays? (t : Text) : Option (Nat × Nat) :=
  match Text.spanDigits t with
  | (d :: ds, rest) => do
    let rest := (DateTime.readMark? ' ' rest).getD rest
    let rest ← (DateTime.readMark? 'd' rest).orElse fun _ => DateTime.readMark? 'D' rest
    let (seconds, micros) ← readAfterDays? rest
    some (Text.digitsValue (d :: ds) * 86400 + seconds, micros)
  | _ => none

/-- A duration in any of the notations, with a sign in front. -/
def read? (t : Text) : Option Duration :=
  let (negative, body) := Numeral.readSign t
  let parts? : Option (Nat × Nat) :=
    match body with
    | c :: rest =>
      if c = 'P' then
        if t.length < 3 then none else readIsoParts? (rest.length + 1) false false rest
      else if body.any (fun d => decide (d = CodePoint.ofChar 'd' ∨ d = CodePoint.ofChar 'D')) ||
          decide (body.length < 5) then readDays? body
      else readClock? body
    | [] => none
  match parts? with
  | some (seconds, micros) => ofParts? negative 0 seconds micros
  | none => none

end Duration

end RedGreen
