import RedGreen.Record
import RedGreen.Proofs.Validation.Checked

/-!
# Records at other times

The clock enters a record in one place only: a document that does not say when it was logged
counts as logged now.
-/

namespace RedGreen

namespace Record

/-- The record as it is logged at another time. -/
def loggedBy (now : DateTime) (r : Record) : Record := { r with loggedAt := now }

theorem check_of_present {document : Json.Members} {v : Json}
    (present : document.get? "logged_at" = some v) (now later : DateTime) :
    check later document = check now document := by
  have same : Field.optional "logged_at" later Field.dateTime document =
      Field.optional "logged_at" now Field.dateTime document := by
    rw [Field.optional, Field.optional, present]
  rw [check, check, same]

theorem check_of_absent {document : Json.Members} (absent : document.get? "logged_at" = none)
    (now later : DateTime) : check later document = (check now document).map (loggedBy later) := by
  have default : ∀ t, Field.optional "logged_at" t Field.dateTime document = .accept t := by
    intro t
    rw [Field.optional, absent]
  rw [check, check, default, default]
  simp only [Checked.map_seq]
  -- Whether the time is accepted no longer matters; what came before it may still fail.
  generalize Field.optional "schema_version" currentVersion Field.int document = version
  rcases version with (issues | _) | version <;> rfl

theorem ofJson_clock (v : Json) :
    (∀ now later, ofJson later v = ofJson now v) ∨
      ∀ now later, ofJson later v = (ofJson now v).map (loggedBy later) := by
  cases v with
  | obj document =>
    cases logged : Json.Members.get? "logged_at" document with
    | none => exact .inr fun now later => check_of_absent logged now later
    | some v => exact .inl fun now later => check_of_present logged now later
  | null | bool _ | int _ | float _ | str _ | arr _ => exact .inl fun now later => rfl

/-- A line either says when its record was logged, or its record is logged when it is read. -/
theorem ofLine_clock (line : Text) :
    (∀ now later, ofLine later line = ofLine now line) ∨
      ∀ now later, ofLine later line = (ofLine now line).map (loggedBy later) := by
  cases read : Json.read line with
  | error e =>
    left
    intro now later
    rw [ofLine, ofLine, read]
  | ok v =>
    cases ofJson_clock v with
    | inl said =>
      left
      intro now later
      simp only [ofLine, read, said now later]
    | inr unsaid =>
      right
      intro now later
      simp only [ofLine, read, unsaid now later]
      generalize ofJson now v = checked
      rcases checked with e | r <;> rfl

/-- Two readings of one line, at two times. -/
def SameButClock (now later : DateTime) (r s : Record) : Prop :=
  s = r ∨ r.loggedAt = now ∧ s = r.loggedBy later

theorem ofLine_later {now : DateTime} {line : Text} {r : Record} (later : DateTime)
    (parsed : ofLine now line = .ok r) :
    ∃ s, ofLine later line = .ok s ∧ SameButClock now later r s := by
  cases ofLine_clock line with
  | inl said => exact ⟨r, by rw [said now later, parsed], .inl rfl⟩
  | inr unsaid =>
    refine ⟨r.loggedBy later, by rw [unsaid now later, parsed]; rfl, .inr ⟨?_, rfl⟩⟩
    -- Read at the same time again, the line gives the record with that time.
    have again : ofLine now line = .ok (r.loggedBy now) := by
      rw [unsaid now now, parsed]
      rfl
    rw [parsed] at again
    exact congrArg loggedAt (Except.ok.inj again)

end Record

end RedGreen
