import RedGreen.Time.Reading
import RedGreen.Proofs.Text.Digits
import RedGreen.Proofs.Time.Dates

/-!
# Stamps read back

A stamp gives the date, the clock time with its microseconds, and the offset to the minute.  So a
time is read back from its stamp exactly when its offset is a whole number of minutes; the seconds
of any other offset are lost.
-/

namespace RedGreen

namespace DateTime

/-! ## Parts of a stamp -/

theorem read2?_padNat {n : Nat} (h : n < 100) (rest : Text) :
    read2? (Text.padNat 2 n ++ rest) = some (n, rest) := by
  have value : 10 * (n / 10) + n % 10 = n := Nat.div_add_mod n 10
  rw [Text.padNat_two h]
  simp only [List.cons_append, List.nil_append, read2?,
    Text.digit?_digitChar (by omega : n / 10 < 10), Text.digit?_digitChar (by omega : n % 10 < 10),
    value]

theorem readMark?_cons (mark : CodePoint) (t : Text) : readMark? mark (mark :: t) = some t := by
  rw [readMark?, if_pos rfl]

theorem readDate?_dateText {d : Date} (valid : d.IsValid) (rest : Text) :
    readDate? (dateText d ++ rest) = some (d, rest) := by
  obtain ⟨year_pos, year_le, month_pos, month_le, day_pos, day_le⟩ := valid
  have most : Date.daysInMonth d.year d.month ≤ 31 := by
    rw [Date.daysInMonth]
    repeat' split
    all_goals decide
  -- A reader takes a year as two pairs of digits.
  have shape : dateText d ++ rest = Text.padNat 2 (d.year.toNat / 100) ++
      (Text.padNat 2 (d.year.toNat % 100) ++ CodePoint.ofChar '-' :: (Text.padNat 2 d.month ++
        CodePoint.ofChar '-' :: (Text.padNat 2 d.day ++ rest))) := by
    simp [dateText, Text.padNat_four]
  have year : ((d.year.toNat / 100 * 100 + d.year.toNat % 100 : Nat) : Int) = d.year := by omega
  rw [shape, readDate?]
  simp only [read2?_padNat (by omega : d.year.toNat / 100 < 100),
    read2?_padNat (by omega : d.year.toNat % 100 < 100), read2?_padNat (by omega : d.month < 100),
    read2?_padNat (by omega : d.day < 100), readMark?_cons, Option.bind_eq_bind, Option.bind_some,
    year]
  rw [if_pos ⟨year_pos, year_le, month_pos, month_le, day_pos, day_le⟩]

/-- Nothing by which a clock time would go on. -/
def EndsClock (t : Text) : Prop :=
  ∀ c ∈ t.head?, c.digit? = none ∧ c ≠ CodePoint.ofChar '.' ∧ c ≠ CodePoint.ofChar ','

theorem fractionMicros_six {ds : List Nat} (six : ds.length = 6) :
    fractionMicros ds = Text.digitsValue ds := by
  rw [fractionMicros, List.take_append_of_le_length (by omega), List.take_of_length_le (by omega)]

theorem readFraction?_micros {micros : Nat} (small : micros < 1000000) {rest : Text}
    (ends : EndsClock rest) :
    readFraction? ((if micros = 0 then [] else CodePoint.ofChar '.' :: Text.padNat 6 micros) ++
      rest) = some (micros, rest) := by
  by_cases none : micros = 0
  · rw [if_pos none, none]
    cases rest with
    | nil => rfl
    | cons c t =>
      obtain ⟨-, point, comma⟩ := ends c rfl
      rw [List.nil_append, readFraction?, if_neg (by simp [point, comma])]
  · obtain ⟨ds, text, digits, value, length⟩ := Text.padNat_digits 6 micros
    have fits := Text.length_decimalDigits_le (k := 5) small
    have six : ds.length = 6 := by omega
    have span := Text.spanDigits_ofDigits digits fun c mem => (ends c mem).1
    have micros_eq := (fractionMicros_six six).trans value
    -- The point stands there only when something is behind it.
    rw [if_neg none, List.cons_append, readFraction?, if_pos (.inl rfl), text, span]
    cases ds with
    | nil => cases six
    | cons d ds =>
      dsimp only
      rw [micros_eq]

theorem readClock?_timeText {s : Nat} (within : s < 86400000000) {rest : Text}
    (ends : EndsClock rest) : readClock? (timeText s ++ rest) = some (s, rest) := by
  have shape : timeText s ++ rest = Text.padNat 2 (s / 1000000 / 3600) ++ CodePoint.ofChar ':' ::
      (Text.padNat 2 (s / 1000000 / 60 % 60) ++ CodePoint.ofChar ':' ::
        (Text.padNat 2 (s / 1000000 % 60) ++
          ((if s % 1000000 = 0 then [] else CodePoint.ofChar '.' :: Text.padNat 6 (s % 1000000)) ++
            rest))) := by
    simp [timeText]
  have hour : s / 1000000 / 3600 ≤ 23 := by omega
  have minute : s / 1000000 / 60 % 60 ≤ 59 := by omega
  have second : s / 1000000 % 60 ≤ 59 := by omega
  have whole : (s / 1000000 / 3600 * 3600 + s / 1000000 / 60 % 60 * 60) * 1000000 +
      s / 1000000 % 60 * 1000000 + s % 1000000 = s := by omega
  rw [shape, readClock?]
  simp only [read2?_padNat (by omega : s / 1000000 / 3600 < 100),
    read2?_padNat (by omega : s / 1000000 / 60 % 60 < 100),
    read2?_padNat (by omega : s / 1000000 % 60 < 100), readMark?_cons, Option.bind_eq_bind,
    Option.bind_some]
  rw [if_neg (by omega), if_neg (by omega),
    readFraction?_micros (Nat.mod_lt s (by decide)) ends]
  simp only [Option.bind_some, whole]

/-! ## Offsets -/

/-- The offset, when there is one, is a whole number of minutes and less than a day. -/
def OnMinutes (t : DateTime) : Prop := ∀ o ∈ t.offset, o % 60 = 0 ∧ o.natAbs < 86400

/-- An offset as stamps give it. -/
def stampOffset (o : Int) : Text :=
  if o = 0 then [CodePoint.ofChar 'Z']
  else offsetSign o :: Text.padNat 2 (o.natAbs / 3600) ++ CodePoint.ofChar ':' ::
    Text.padNat 2 (o.natAbs / 60 % 60)

theorem readOffset?_stampOffset {o : Int} (minutes : o % 60 = 0) (within : o.natAbs < 86400) :
    readOffset? (stampOffset o) = some o := by
  rw [stampOffset]
  split
  next zero =>
    rw [zero]
    rfl
  next some =>
    have shape : offsetSign o :: Text.padNat 2 (o.natAbs / 3600) ++ CodePoint.ofChar ':' ::
        Text.padNat 2 (o.natAbs / 60 % 60) = offsetSign o :: (Text.padNat 2 (o.natAbs / 3600) ++
          CodePoint.ofChar ':' :: (Text.padNat 2 (o.natAbs / 60 % 60) ++ [])) := by simp
    have hours : o.natAbs / 3600 < 100 := by omega
    have minutes' : o.natAbs / 60 % 60 < 100 := by omega
    -- The minutes are where the seconds of an offset would be lost.
    have whole : o.natAbs / 3600 * 3600 + o.natAbs / 60 % 60 * 60 = o.natAbs := by omega
    have sign : offsetSign o = CodePoint.ofChar '-' ∧ o < 0 ∨
        offsetSign o = CodePoint.ofChar '+' ∧ 0 ≤ o := by
      rw [offsetSign]
      split
      · exact .inl ⟨rfl, by assumption⟩
      · exact .inr ⟨rfl, by omega⟩
    have inRange : ¬(59 < o.natAbs / 60 % 60 ∨ 86400 ≤ o.natAbs ∨
        (!List.isEmpty ([] : Text)) = true) := by
      simp only [List.isEmpty_nil, Bool.not_true, Bool.false_eq_true, or_false]
      omega
    rw [shape]
    rcases sign with ⟨sign, negative⟩ | ⟨sign, positive⟩
    · rw [sign, readOffset?, if_neg (by decide), if_pos (by decide)]
      simp only [read2?_padNat hours, read2?_padNat minutes', readMark?_cons, Option.bind_eq_bind,
        Option.bind_some, Option.getD_some, whole]
      rw [if_neg inRange, if_neg (by decide)]
      congr 1
      omega
    · rw [sign, readOffset?, if_neg (by decide), if_pos (by decide)]
      simp only [read2?_padNat hours, read2?_padNat minutes', readMark?_cons, Option.bind_eq_bind,
        Option.bind_some, Option.getD_some, whole]
      rw [if_neg inRange, if_pos trivial]
      congr 1
      omega

theorem stampOffset_head (o : Int) : ∃ c t, stampOffset o = c :: t ∧ c.digit? = none ∧
    c ≠ CodePoint.ofChar '.' ∧ c ≠ CodePoint.ofChar ',' := by
  rw [stampOffset]
  split
  · exact ⟨_, _, rfl, by decide⟩
  · rw [offsetSign]
    split
    · exact ⟨_, _, rfl, by decide⟩
    · exact ⟨_, _, rfl, by decide⟩

/-! ## Whole stamps -/

theorem stamp_eq (t : DateTime) : t.stamp = dateText t.date ++ CodePoint.ofChar 'T' ::
    (timeText t.sinceMidnight ++ (t.offset.map stampOffset).getD []) := by
  rw [stamp, clockText]
  cases t.offset with
  | none => simp
  | some o =>
    rw [Option.map_some, Option.getD_some, stampOffset]
    split <;> simp_all

theorem fdiv_microsPerDay (t : DateTime) : t.micros.fdiv microsPerDay = t.micros / 86400000000 :=
  Int.fdiv_eq_ediv_of_nonneg _ (by decide)

theorem sinceMidnight_lt (t : DateTime) : t.sinceMidnight < 86400000000 := by
  rw [sinceMidnight, fdiv_microsPerDay]
  simp only [microsPerDay]
  omega

theorem date_valid (t : DateTime) : t.date.IsValid ∧ 1 ≤ t.date.year := by
  have lower := t.lower
  have upper := t.upper
  rw [date, fdiv_microsPerDay]
  exact Date.ofDays_valid (by omega) (by omega)

/-- A time is put together again from its date and its clock time. -/
theorem ofDate?_date (t : DateTime) : ofDate? t.date t.sinceMidnight t.offset = some t := by
  have lower := t.lower
  have upper := t.upper
  have whole : t.micros / 86400000000 * 86400000000 +
      ((t.micros - t.micros / 86400000000 * 86400000000).toNat : Int) = t.micros := by omega
  rw [ofDate?, date, sinceMidnight, Date.toDays_ofDays, fdiv_microsPerDay]
  simp only [microsPerDay, whole, ofMicros?]
  rw [dif_pos ⟨lower, upper⟩]

theorem readStamp?_stamp {t : DateTime} (minutes : t.OnMinutes) :
    readStamp? t.stamp = some (t.date, t.sinceMidnight, t.offset) := by
  have valid := (date_valid t).1
  have clock := sinceMidnight_lt t
  rw [stamp_eq, readStamp?]
  simp only [readDate?_dateText valid, Option.bind_eq_bind, Option.bind_some]
  rw [if_pos (.inl trivial)]
  cases offset : t.offset with
  | none =>
    have ends : EndsClock [] := by
      intro d mem
      cases mem
    simp only [Option.map_none, Option.getD_none, readClock?_timeText clock ends, Option.bind_some,
      List.isEmpty_nil, if_true]
  | some o =>
    obtain ⟨minutes, within⟩ := minutes o offset
    obtain ⟨c, u, shape, mark⟩ := stampOffset_head o
    have reads := readOffset?_stampOffset minutes within
    -- The mark of an offset is what the clock time ends at.
    have ends : EndsClock (stampOffset o) := by
      intro d mem
      rw [shape, List.head?_cons, Option.mem_some_iff] at mem
      rw [← mem]
      exact mark
    have some : (stampOffset o).isEmpty = false := by rw [shape]; rfl
    simp only [Option.map_some, Option.getD_some, readClock?_timeText clock ends, Option.bind_some,
      some, reads, Bool.false_eq_true, if_false]

/-- A time with an offset of whole minutes is read back from its stamp. -/
theorem read_stamp {t : DateTime} (minutes : t.OnMinutes) : read t.stamp = .ok t := by
  have year : t.date.year ≠ 0 := by
    have := (date_valid t).2
    omega
  rw [read, readStamp?_stamp minutes]
  simp only [year, if_false, ofDate?_date]

end DateTime

end RedGreen
