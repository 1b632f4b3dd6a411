import RedGreen.Circuit
import RedGreen.Proofs.Number.Overflow

/-!
# What the circuit breaker passes on

A state that cannot be read does not block a delivery.  Three kinds of content are no state and are
not taken for an unreadable one either: containers nested too deeply, an infinite count of failures,
and an end of the cooldown that is an integer too large for a float.  Each of the three calls fails
on exactly these, an update only where it gets as far as reading.
-/

namespace RedGreen

namespace Circuit

/-! ## The content of a file -/

/-- What stands in place of the count of failures. -/
def countIn (document : Json.Members) : Json :=
  (document.get? "consecutive_failures").getD (.int 0)

/-- What stands in place of the end of the cooldown. -/
def endIn (document : Json.Members) : Json :=
  (document.get? "opened_until").getD (.float .zero)

/-- A file whose document has numbers for a state. -/
inductive Stored (f : Disk.File) : State → Prop where
  | intro {document : Json.Members} {failures : Int} {openedUntil : Binary64}
      (read : Document.read f = .ok document) (count : (countIn document).toInt = .ok failures)
      (ends : (endIn document).toFloat = .ok openedUntil) : Stored f ⟨failures, openedUntil⟩

/-- A content on which reading the state fails with an error that is passed on. -/
inductive Escapes (f : Disk.File) : LoadError → Prop where
  | tooDeep {content : Bytes} {t : Text} (present : f.content? = .ok (some content))
      (decoded : Utf8.decode content = .ok t) (deep : Json.read t = .error .tooDeep) :
      Escapes f (.document .tooDeep)
  | infiniteCount {document : Json.Members} {negative : Bool}
      (read : Document.read f = .ok document)
      (count : countIn document = .float (.infinite negative)) : Escapes f (.conversion .overflow)
  | hugeEnd {document : Json.Members} {failures i : Int} (read : Document.read f = .ok document)
      (count : (countIn document).toInt = .ok failures) (ends : endIn document = .int i)
      (huge : overflowBound ≤ i.natAbs) : Escapes f (.conversion .overflow)

section

variable {f : Disk.File}

theorem stateOf_eq_ok {document : Json.Members} {s : State} :
    stateOf document = .ok s ↔
      (countIn document).toInt = .ok s.failures ∧ (endIn document).toFloat = .ok s.openedUntil := by
  show ((countIn document).toInt >>= fun failures => (endIn document).toFloat >>= fun openedUntil =>
    .ok ⟨failures, openedUntil⟩) = .ok s ↔ _
  cases s
  cases (countIn document).toInt <;> cases (endIn document).toFloat <;> simp [bind, Except.bind]

theorem stateOf_eq_error {document : Json.Members} {e : ConversionError} :
    stateOf document = .error e ↔
      (countIn document).toInt = .error e ∨
        ∃ failures, (countIn document).toInt = .ok failures ∧
          (endIn document).toFloat = .error e := by
  show ((countIn document).toInt >>= fun failures => (endIn document).toFloat >>= fun openedUntil =>
    .ok (⟨failures, openedUntil⟩ : State)) = .error e ↔ _
  cases (countIn document).toInt <;> cases (endIn document).toFloat <;> simp [bind, Except.bind]

theorem ofText_eq_tooDeep {t : Text} :
    Document.ofText t = .error .tooDeep ↔ Json.read t = .error .tooDeep := by
  rw [Document.ofText]
  cases Json.read t with
  | ok v => cases v <;> simp
  | error e => cases e <;> simp

theorem read_eq_tooDeep :
    Document.read f = .error .tooDeep ↔
      ∃ content t, f.content? = .ok (some content) ∧ Utf8.decode content = .ok t ∧
        Json.read t = .error .tooDeep := by
  rw [Document.read]
  cases f.content? with
  | error fault => simp
  | ok content? =>
    cases content? with
    | none => simp
    | some content =>
      cases decoded : Utf8.decode content with
      | error e => simp [decoded]
      | ok t => simp [decoded, ofText_eq_tooDeep]

theorem load_eq_ok_iff {s : State} : load f = .ok s ↔ Stored f s := by
  have stored : Stored f s ↔ ∃ document, Document.read f = .ok document ∧
      stateOf document = .ok s := by
    simp only [stateOf_eq_ok]
    constructor
    · rintro ⟨read, count, ends⟩
      exact ⟨_, read, count, ends⟩
    · rintro ⟨document, read, count, ends⟩
      exact .intro read count ends
  rw [stored, load]
  cases Document.read f with
  | error fault => simp
  | ok document => cases state : stateOf document <;> simp [state]

theorem load_eq_error {e : LoadError} :
    load f = .error e ↔ (∃ fault, Document.read f = .error fault ∧ .document fault = e) ∨
      ∃ document reason, Document.read f = .ok document ∧ stateOf document = .error reason ∧
        .conversion reason = e := by
  rw [load]
  cases Document.read f with
  | error fault => simp
  | ok document => cases state : stateOf document <;> simp [state]

/-- An error is passed on for one of three reasons. -/
theorem escapes_iff {e : LoadError} : Escapes f e ↔ load f = .error e ∧ e.isTolerated = false := by
  rw [load_eq_error]
  constructor
  · intro escapes
    cases escapes with
    | tooDeep present decoded deep =>
      exact ⟨.inl ⟨_, read_eq_tooDeep.mpr ⟨_, _, present, decoded, deep⟩, rfl⟩, rfl⟩
    | infiniteCount read count =>
      have overflow := stateOf_eq_error.mpr (.inl (Json.toInt_eq_overflow_iff.mpr ⟨_, count⟩))
      exact ⟨.inr ⟨_, _, read, overflow, rfl⟩, rfl⟩
    | hugeEnd read count ends huge =>
      have overflow := stateOf_eq_error.mpr
        (.inr ⟨_, count, Json.toFloat_eq_overflow_iff.mpr ⟨_, ends, huge⟩⟩)
      exact ⟨.inr ⟨_, _, read, overflow, rfl⟩, rfl⟩
  · rintro ⟨⟨fault, read, rfl⟩ | ⟨document, reason, read, state, rfl⟩, passed⟩
    · cases fault with
      | tooDeep =>
        obtain ⟨content, t, present, decoded, deep⟩ := read_eq_tooDeep.mp read
        exact .tooDeep present decoded deep
      | lockFile _ _ | lockBusy _ _ | unreadable _ _ | unwritable _ _ | undecodable _
      | tooManyDigits _ => cases passed
    · cases reason with
      | overflow =>
        rcases stateOf_eq_error.mp state with count | ⟨failures, count, ends⟩
        · obtain ⟨negative, infinite⟩ := Json.toInt_eq_overflow_iff.mp count
          exact .infiniteCount read infinite
        · obtain ⟨i, integer, huge⟩ := Json.toFloat_eq_overflow_iff.mp ends
          exact .hugeEnd read count integer huge
      | wrongType _ | unreadable _ | tooManyDigits _ | notANumber => cases passed

end

/-! ## The calls -/

theorem allow_eq_ok {clock : Binary64} {f : Disk.File} {answer : Bool} :
    allow clock f = .ok answer ↔
      (∃ s, Stored f s ∧ Binary64.le s.openedUntil clock = answer) ∨
        answer = true ∧ (∀ s, ¬Stored f s) ∧ ∀ e, ¬Escapes f e := by
  simp only [allow, ← load_eq_ok_iff, escapes_iff]
  cases load f with
  | ok s => simp
  | error e => cases tolerated : e.isTolerated <;> grind

theorem allow_eq_error {clock : Binary64} {f : Disk.File} {e : LoadError} :
    allow clock f = .error e ↔ Escapes f e := by
  rw [allow, escapes_iff]
  cases load f with
  | ok s => simp
  | error other => cases tolerated : other.isTolerated <;> grind

/-- An update fails when it gets the lock and then reads what is passed on. -/
theorem update_eq_error {next : State → State} {f : Disk.File} {e : LoadError} :
    update next f = .error e ↔ f.blocked = false ∧ f.held = false ∧ Escapes f e := by
  rw [update, Document.acquire, escapes_iff]
  cases f.blocked with
  | true => simp
  | false =>
    cases f.held with
    | true => simp
    | false =>
      cases load f with
      | ok s => simp
      | error other => cases tolerated : other.isTolerated <;> grind

/-- What the calls answer, and when they fail. -/
structure Answers (c : Config) (clock : Binary64) (f : Disk.File) : Prop where
  /-- What holds no state does not block a delivery, unless it is passed on. -/
  admits : allow clock f = .ok true ↔
    (∃ s, Stored f s ∧ Binary64.le s.openedUntil clock = true) ∨
      (∀ s, ¬Stored f s) ∧ ∀ e, ¬Escapes f e
  refuses : allow clock f = .ok false ↔
    ∃ s, Stored f s ∧ Binary64.le s.openedUntil clock = false
  fails : ∀ e, allow clock f = .error e ↔ Escapes f e
  failureFails : ∀ e, recordFailure c clock f = .error e ↔
    f.blocked = false ∧ f.held = false ∧ Escapes f e
  successFails : ∀ e, recordSuccess f = .error e ↔
    f.blocked = false ∧ f.held = false ∧ Escapes f e

/-- For every content of the path, every state of the lock and all settings, the calls fail on the
three kinds of content alone, and only a state that was read keeps the circuit open. -/
theorem answers (c : Config) (clock : Binary64) (f : Disk.File) : Answers c clock f where
  admits := by
    rw [allow_eq_ok]
    simp
  refuses := by
    rw [allow_eq_ok]
    simp
  fails _ := allow_eq_error
  failureFails _ := update_eq_error
  successFails _ := update_eq_error

/-- A file in a free place. -/
def fileOf (t : Text) : Disk.File :=
  { Disk.File.fresh "state" "circuit.json" with node := .regular (Utf8.encode t) }

theorem calls_fail_of_load {t : Text} (failed : load (fileOf t) = .error (.conversion .overflow))
    (c : Config) (clock : Binary64) :
    allow clock (fileOf t) = .error (.conversion .overflow) ∧
      recordFailure c clock (fileOf t) = .error (.conversion .overflow) ∧
      recordSuccess (fileOf t) = .error (.conversion .overflow) := by
  have escapes : Escapes (fileOf t) (.conversion .overflow) := escapes_iff.mpr ⟨failed, rfl⟩
  exact ⟨allow_eq_error.mpr escapes, update_eq_error.mpr ⟨rfl, rfl, escapes⟩,
    update_eq_error.mpr ⟨rfl, rfl, escapes⟩⟩

/-- A count of `1e400` is read as infinite, and an end of four hundred zeros as an integer that no
float comes near. -/
theorem calls_fail_on_overflow :
    (allow (.ofNat 1000) (fileOf "\x7b\"consecutive_failures\": 1e400\x7d") =
        .error (.conversion .overflow) ∧
      recordFailure ⟨3, .ofNat 60⟩ (.ofNat 1000)
        (fileOf "\x7b\"consecutive_failures\": 1e400\x7d") = .error (.conversion .overflow) ∧
      recordSuccess (fileOf "\x7b\"consecutive_failures\": 1e400\x7d") =
        .error (.conversion .overflow)) ∧
    allow (.ofNat 1000) (fileOf (Json.document (.obj [("opened_until", .int (tenTo 400))]))) =
      .error (.conversion .overflow) :=
  ⟨calls_fail_of_load (by decide +kernel) _ _, by decide +kernel⟩

end Circuit

end RedGreen
