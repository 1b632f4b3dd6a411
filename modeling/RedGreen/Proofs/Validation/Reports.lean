import RedGreen.Record

/-!
# Checks that fail with issues alone

A check can also fail with an overflow, when a time is moved to UTC.  No check of a record moves a
time, so whatever does not fit the fields of a record is reported issue by issue.
-/

namespace RedGreen

namespace Checked

/-- A check that accepts or reports issues, and has no other way to fail. -/
def Reports (x : Checked α) : Prop := x ≠ Except.error .overflow

theorem reports_accept (a : α) : (accept a).Reports := nofun

theorem reports_reject (problem : Problem) : (reject problem : Checked α).Reports := nofun

theorem reports_ofOption (problem : Problem) (a : Option α) :
    (ofOption problem a).Reports := by
  cases a <;> nofun

theorem Reports.map {x : Checked α} (reports : x.Reports) (f : α → β) : (f <$> x).Reports := by
  rcases x with (issues | _) | a
  · nofun
  · exact absurd rfl reports
  · nofun

theorem Reports.andThen {x : Checked α} (reports : x.Reports) {f : α → Checked β}
    (more : ∀ a, (f a).Reports) : (x.andThen f).Reports := by
  rcases x with (issues | _) | a
  · nofun
  · exact absurd rfl reports
  · exact more a

theorem Reports.under {x : Checked α} (reports : x.Reports) (step : PathStep) :
    (x.under step).Reports := by
  rcases x with (issues | _) | a
  · nofun
  · exact absurd rfl reports
  · nofun

theorem Reports.seq {f : Checked (α → β)} {x : Checked α} (first : f.Reports)
    (second : x.Reports) : (f <*> x).Reports := by
  rcases f with (issues | _) | g
  · rcases x with (more | _) | a
    · nofun
    · exact absurd rfl second
    · nofun
  · exact absurd rfl first
  · rcases x with (more | _) | a
    · nofun
    · exact absurd rfl second
    · nofun

end Checked

open Checked

namespace Field

theorem reports_text (v : Json) : (text v).Reports := by
  cases v <;> nofun

theorem reports_int (v : Json) : (int v).Reports := by
  cases v with
  | float x =>
    rw [int]
    split
    · nofun
    · split
      · nofun
      · split <;> nofun
  | str t =>
    rw [int]
    split
    · nofun
    · split <;> nofun
  | null | bool | int | arr | obj => nofun

theorem reports_count (v : Json) : (count v).Reports := by
  refine Reports.map (Reports.andThen (reports_int v) fun i => ?_) Int.toNat
  split <;> nofun

theorem reports_number (v : Json) : (number v).Reports := by
  cases v with
  | float x => exact reports_accept x
  | int i => exact reports_ofOption .floatType (Binary64.ofInt? i)
  | bool b => exact reports_accept (if b then Binary64.ofNat 1 else Binary64.zero)
  | str t => exact reports_ofOption .floatParsing (readNumber? t)
  | null | arr | obj => exact reports_reject .floatType

theorem reports_numberFromZero (v : Json) : (numberFromZero v).Reports := by
  refine Reports.andThen (reports_number v) fun x => ?_
  split <;> nofun

theorem reports_boolOfInt (i : Int) : (boolOfInt i).Reports := by
  rw [boolOfInt]
  split
  · nofun
  · split <;> nofun

theorem reports_bool (v : Json) : (bool v).Reports := by
  cases v with
  | str t =>
    rw [bool]
    split
    · nofun
    · split <;> nofun
  | int i =>
    rw [bool]
    split
    · exact reports_boolOfInt i
    · nofun
  | float x =>
    rw [bool]
    split
    · nofun
    · split
      · exact reports_boolOfInt _
      · nofun
  | null | bool | arr | obj => nofun

theorem reports_dateTime (v : Json) : (dateTime v).Reports := by
  cases v with
  | str t =>
    rw [dateTime]
    split
    · nofun
    · split <;> nofun
  | int i =>
    rw [dateTime]
    split <;> nofun
  | float x =>
    rw [dateTime]
    split <;> nofun
  | null | bool | arr | obj => nofun

section

variable {check : Json → Checked α} (reports : ∀ v, (check v).Reports)

include reports

theorem reports_orNull (v : Json) : (orNull check v).Reports := by
  cases v with
  | null => nofun
  | bool | int | float | str | arr | obj => exact (reports _).map some

theorem reports_required (name : Text) (document : Json.Members) :
    (required name check document).Reports := by
  rw [required]
  split
  · exact (reports _).under _
  · exact (reports_reject _).under _

theorem reports_optional (name : Text) (default : α) (document : Json.Members) :
    (optional name default check document).Reports := by
  rw [optional]
  split
  · exact (reports _).under _
  · nofun

end

end Field

theorem Phase.reports_check (v : Json) : (check v).Reports := by
  cases v with
  | str t =>
    rw [check]
    split <;> nofun
  | null | bool | int | float | arr | obj => nofun

theorem CycleStatus.reports_check (v : Json) : (check v).Reports := by
  refine (Field.reports_text v).andThen fun t => ?_
  split
  · nofun
  · split
    · nofun
    · split <;> nofun

/-- The times of a record stay on the clocks they were read from, so nothing overflows. -/
theorem Record.reports_check (now : DateTime) (document : Json.Members) :
    (check now document).Reports := by
  have int := Field.reports_optional Field.reports_int
  have text := Field.reports_optional Field.reports_text
  have count := Field.reports_optional Field.reports_count
  have bool := Field.reports_optional Field.reports_bool
  have time := Field.reports_optional Field.reports_dateTime
  have named := Field.reports_required Field.reports_text
  rw [check]
  refine Reports.seq ?_ (Field.reports_optional CycleStatus.reports_check _ _ _)
  refine Reports.seq ?_ (bool _ _ _)
  refine Reports.seq ?_ (bool _ _ _)
  refine Reports.seq ?_ (bool _ _ _)
  refine Reports.seq ?_
    (Field.reports_optional (Field.reports_orNull Field.reports_dateTime) _ _ _)
  refine Reports.seq ?_
    (Field.reports_optional (Field.reports_orNull Field.reports_numberFromZero) _ _ _)
  refine Reports.seq ?_ (Field.reports_required Field.reports_dateTime _ _)
  refine Reports.seq ?_ (count _ _ _)
  refine Reports.seq ?_ (count _ _ _)
  refine Reports.seq ?_ (count _ _ _)
  refine Reports.seq ?_ (Field.reports_required Phase.reports_check _ _)
  refine Reports.seq ?_ (text _ _ _)
  refine Reports.seq ?_ (text _ _ _)
  refine Reports.seq ?_ (text _ _ _)
  refine Reports.seq ?_ (named _ _)
  refine Reports.seq ?_ (named _ _)
  refine Reports.seq ?_ (time _ _ _)
  exact (int _ _ _).map _

theorem Record.reports_ofJson (now : DateTime) (v : Json) : (ofJson now v).Reports := by
  refine Reports.andThen ?_ (reports_check now)
  cases v with
  | obj document => exact reports_accept document
  | null | bool | int | float | str | arr => exact reports_reject _

end RedGreen
