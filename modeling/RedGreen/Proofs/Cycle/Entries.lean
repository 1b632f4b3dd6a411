import RedGreen.Cycle.State
import RedGreen.Proofs.Json.Written
import RedGreen.Proofs.Record.Fields
import RedGreen.Proofs.Validation.Checked

/-!
# Entries of branches

The entry of a branch with an open cycle is written with its members in the order of their names,
and it is read back as it was.
-/

namespace RedGreen

namespace DateTime

/-- A clock that shows UTC. -/
def IsUtc (t : DateTime) : Prop := t.offset = some 0

theorem IsUtc.onMinutes {t : DateTime} (utc : t.IsUtc) : t.OnMinutes := by
  intro o mem
  rw [utc] at mem
  cases mem
  decide

theorem IsUtc.toUtc? {t : DateTime} (utc : t.IsUtc) : t.toUtc? = some t := by
  have instant : t.instant = t.micros := by
    rw [DateTime.instant, utc]
    exact Int.sub_zero _
  rw [DateTime.toUtc?, instant, ofMicros?, dif_pos ⟨t.lower, t.upper⟩, ← utc]

theorem isUtc_of_toUtc? {t u : DateTime} (shown : t.toUtc? = some u) : u.IsUtc := by
  unfold DateTime.toUtc? ofMicros? at shown
  split at shown
  · cases shown
    rfl
  · cases shown

/-- A minute of the first day of 2024, on a clock that shows UTC. -/
def minute (n : Nat) : DateTime :=
  ⟨1704067200000000 + 60000000 * (n % 1440 : Nat), some 0, by omega, by omega⟩

end DateTime

theorem Field.utc_stamp {t : DateTime} (utc : t.IsUtc) : Field.utc (.str t.stamp) = .ok t := by
  simp only [Field.utc, Field.dateTime_stamp utc.onMinutes, Checked.andThen, utc.toUtc?]
  rfl

theorem Field.isUtc_of_utc {v : Json} {t : DateTime} (accepted : Field.utc v = .ok t) :
    t.IsUtc := by
  obtain ⟨u, _, shown⟩ := Checked.andThen_eq_ok accepted
  cases moved : u.toUtc? with
  | none =>
    rw [moved] at shown
    cases shown
  | some utc =>
    rw [moved] at shown
    cases shown
    exact DateTime.isUtc_of_toUtc? moved

namespace Cycle

/-- An open cycle: the time and the hash of its red commit, and when it was entered. -/
structure Opening where
  redAt : DateTime
  hash : Option Text
  enteredAt : DateTime

namespace Opening

/-- What is kept about the branch of an open cycle. -/
def state (o : Opening) (branch : Text) : State := ⟨branch, some o.redAt, o.hash, o.enteredAt⟩

/-- An opening that its entry keeps. -/
structure Lasts (o : Opening) : Prop where
  redAt : o.redAt.IsUtc
  hash : ∀ t ∈ o.hash, t.Joinless
  enteredAt : o.enteredAt.IsUtc

end Opening

namespace State

theorem ofJson_toJson {o : Opening} (lasts : o.Lasts) {branch : Text} (scalar : branch.IsScalar)
    (nonempty : branch ≠ []) (now : DateTime) : ofJson now (o.state branch).toJson =
      .ok (o.state branch) := by
  obtain ⟨redAt, hash, enteredAt⟩ := o
  have name : Field.nonEmptyText (.str branch) = .ok branch :=
    Field.nonEmptyText_eq_ok_iff.mpr ⟨rfl, scalar, nonempty⟩
  have red : Field.utc (.str redAt.stamp) = .ok redAt := Field.utc_stamp lasts.redAt
  have entered : Field.utc (.str enteredAt.stamp) = .ok enteredAt := Field.utc_stamp lasts.enteredAt
  let members : Json.Members :=
    [("branch", .str branch), ("pending_red_at", .str redAt.stamp),
      ("pending_red_hash", Json.ofText? hash), ("updated_at", .str enteredAt.stamp)]
  -- All four members are there, so no default comes in, not even the clock.
  have branchField : Field.required "branch" Field.nonEmptyText members = .ok branch :=
    Field.required_of_get? rfl name
  have redField : Field.optional "pending_red_at" none (Field.orNull Field.utc) members =
      .ok (some redAt) := by
    refine Field.optional_of_get? rfl ?_
    show Checked.map some (Field.utc (.str redAt.stamp)) = _
    rw [red]
    rfl
  have hashField : Field.optional "pending_red_hash" none (Field.orNull Field.text) members =
      .ok hash := by
    cases hash <;> exact Field.optional_of_get? rfl rfl
  have enteredField : Field.optional "updated_at" now Field.utc members = .ok enteredAt :=
    Field.optional_of_get? rfl entered
  show check now members = _
  rw [check, branchField, redField, hashField, enteredField]
  rfl

/-- The members of an entry stand in the order of their names. -/
theorem sorted_toJson (s : State) : s.toJson.sorted = s.toJson := by
  obtain ⟨branch, redAt, hash, updatedAt⟩ := s
  cases redAt <;> cases hash <;> rfl

theorem kept_toJson {o : Opening} (lasts : o.Lasts) {branch : Text} (scalar : branch.IsScalar) :
    Json.Kept .document (o.state branch).toJson := by
  obtain ⟨redAt, hash, enteredAt⟩ := o
  -- Names and stamps are plain; only the branch and the hash are texts of others.
  have plain : ∀ {t : Text}, t.IsPlain → Json.Style.document.KeepsText t := fun plain =>
    Json.keepsText_document plain.isScalar.joinless
  have kept : Json.Kept .document (Json.ofText? hash) := by
    cases hash with
    | none => trivial
    | some t => exact Json.keepsText_document (lasts.hash t rfl)
  have distinct : List.Nodup (α := Text)
      ["branch", "pending_red_at", "pending_red_hash", "updated_at"] := by
    decide
  refine ⟨distinct, plain (by decide), Json.keepsText_document scalar.joinless, plain (by decide),
    plain (DateTime.isPlain_stamp _), plain (by decide), kept, plain (by decide),
    plain (DateTime.isPlain_stamp _), trivial⟩

theorem nesting_toJson (s : State) : Json.nesting s.toJson ≤ 1 := by
  obtain ⟨branch, redAt, hash, updatedAt⟩ := s
  cases redAt <;> cases hash <;> exact Nat.le_refl _

theorem longNumeral?_toJson (s : State) : Json.longNumeral? s.toJson = none := by
  obtain ⟨branch, redAt, hash, updatedAt⟩ := s
  cases redAt <;> cases hash <;> rfl

end State

end Cycle

end RedGreen
