import RedGreen.Proofs.Time.Stamps
import RedGreen.Validation.Field

/-!
# Offsets of times that were read

The notation of stamps has no place for the seconds of an offset, and a number counts from the start
of 1970 in UTC.  So a time that a field accepts can be written as a stamp without loss.
-/

namespace RedGreen

namespace DateTime

/-- A whole number of minutes, and less than a day. -/
def WholeMinutes (o : Int) : Prop := o % 60 = 0 ∧ o.natAbs < 86400

theorem wholeMinutes_zero : WholeMinutes 0 := ⟨rfl, by decide⟩

theorem offset_of_ofMicros? {micros : Int} {offset : Option Int} {t : DateTime}
    (made : ofMicros? micros offset = some t) : t.offset = offset := by
  unfold ofMicros? at made
  split at made
  · cases made
    rfl
  · cases made

theorem onMinutes_of_ofMicros? {micros : Int} {offset : Option Int} {t : DateTime}
    (made : ofMicros? micros offset = some t) (minutes : ∀ o ∈ offset, WholeMinutes o) :
    t.OnMinutes := by
  rw [OnMinutes, offset_of_ofMicros? made]
  exact minutes

theorem readOffset?_wholeMinutes {t : Text} {o : Int} (read : readOffset? t = some o) :
    WholeMinutes o := by
  unfold readOffset? at read
  split at read
  next => cases read
  next c t =>
    split at read
    next =>
      split at read
      · cases read
        exact wholeMinutes_zero
      · cases read
    next =>
      split at read
      next =>
        obtain ⟨⟨hours, afterHours⟩, _, read⟩ := Option.bind_eq_some_iff.mp read
        obtain ⟨⟨minutes, rest⟩, _, read⟩ := Option.bind_eq_some_iff.mp read
        dsimp only at read
        split at read
        next => cases read
        next within =>
          have least : hours * 3600 + minutes * 60 < 86400 := by omega
          rw [Option.some.injEq] at read
          rw [WholeMinutes, ← read]
          split <;> omega
      next => cases read

theorem readStamp?_wholeMinutes {t : Text} {date : Date} {micros : Nat} {offset : Option Int}
    (read : readStamp? t = some (date, micros, offset)) : ∀ o ∈ offset, WholeMinutes o := by
  obtain ⟨⟨first, afterDate⟩, _, read⟩ := Option.bind_eq_some_iff.mp read
  dsimp only at read
  split at read
  next => cases read
  next mark u =>
    split at read
    next =>
      obtain ⟨⟨clock, rest⟩, _, read⟩ := Option.bind_eq_some_iff.mp read
      dsimp only at read
      split at read
      next =>
        cases read
        intro o mem
        cases mem
      next =>
        obtain ⟨o, offset, read⟩ := Option.bind_eq_some_iff.mp read
        cases read
        intro o' mem
        cases mem
        exact readOffset?_wholeMinutes offset
    next => cases read

/-- Counts are counts in UTC. -/
theorem onMinutes_of_ofCount? {count micros : Int} {t : DateTime}
    (made : ofCount? count micros = some t) : t.OnMinutes := by
  have utc : ∀ o ∈ some (0 : Int), WholeMinutes o := by
    intro o mem
    cases mem
    exact wholeMinutes_zero
  unfold ofCount? at made
  dsimp only at made
  split at made
  · split at made
    · cases made
    · exact onMinutes_of_ofMicros? made utc
  · split at made
    · cases made
    · exact onMinutes_of_ofMicros? made utc

theorem onMinutes_of_ofNumber? {x : Binary64} {t : DateTime} (made : ofNumber? x = some t) :
    t.OnMinutes := by
  unfold ofNumber? at made
  split at made
  · exact onMinutes_of_ofCount? made
  · cases made

theorem onMinutes_of_ofNumeral? {text : Text} {t : DateTime} (made : ofNumeral? text = some t) :
    t.OnMinutes := by
  unfold ofNumeral? at made
  dsimp only at made
  repeat' split at made
  all_goals first
    | cases made
    | exact onMinutes_of_ofCount? made

theorem eq_some_of_dated {found : Option DateTime} {t : DateTime}
    (accepted : (match found with
      | some stamp => Except.ok stamp
      | none => Except.error Fault.parsing) = .ok t) : found = some t := by
  cases found <;> cases accepted
  rfl

theorem onMinutes_of_read {text : Text} {t : DateTime} (accepted : read text = .ok t) :
    t.OnMinutes := by
  unfold read at accepted
  split at accepted
  next date micros offset stamp =>
    split at accepted
    next => cases accepted
    next => exact onMinutes_of_ofMicros? (eq_some_of_dated accepted) (readStamp?_wholeMinutes stamp)
  next =>
    split at accepted
    next stamp numeral =>
      cases accepted
      exact onMinutes_of_ofNumeral? numeral
    next =>
      split at accepted
      next =>
        split at accepted
        next => cases accepted
        next => exact onMinutes_of_ofMicros? (eq_some_of_dated accepted) nofun
      next => cases accepted

end DateTime

/-- A time that a field accepts has an offset of whole minutes, if it has one. -/
theorem Field.onMinutes_of_dateTime {v : Json} {t : DateTime}
    (accepted : Field.dateTime v = .ok t) : t.OnMinutes := by
  cases v with
  | str text =>
    rw [Field.dateTime] at accepted
    split at accepted
    next => cases accepted
    next =>
      cases read : DateTime.read text with
      | error fault =>
        rw [read] at accepted
        cases accepted
      | ok stamp =>
        rw [read] at accepted
        cases accepted
        exact DateTime.onMinutes_of_read read
  | int i =>
    rw [Field.dateTime] at accepted
    generalize Binary64.ofInt? i = float at accepted
    cases made : DateTime.ofCount? i 0 with
    | none =>
      rw [made] at accepted
      cases float <;> cases accepted
    | some stamp =>
      rw [made] at accepted
      cases float <;> cases accepted <;> exact DateTime.onMinutes_of_ofCount? made
  | float x =>
    rw [Field.dateTime] at accepted
    cases made : DateTime.ofNumber? x with
    | none =>
      rw [made] at accepted
      cases accepted
    | some stamp =>
      rw [made] at accepted
      cases accepted
      exact DateTime.onMinutes_of_ofNumber? made
  | null | bool _ | arr _ | obj _ => cases accepted

end RedGreen
