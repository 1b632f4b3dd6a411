import RedGreen.Proofs.Cycle.Visits
import RedGreen.Proofs.Time.Seconds

/-!
# What a step does to the open cycles

A step either leaves the ledger as it is and reports no cycle, or it opens or closes the cycle of
its branch.  Either way the books balance: a red step that counts adds a cycle, which is still
open, was closed by a green step or was given up for the next red one.
-/

namespace RedGreen

namespace Cycle

/-- All that a step can do. -/
inductive Outcome (l : Ledger) (branch : Text) : Phase → Observation → Ledger → Prop where
  | idle {phase : Phase} (other : isRed? phase = none) : Outcome l branch phase .empty l
  | skipped {phase : Phase} : Outcome l branch phase .passedOver l
  | duplicate {phase : Phase} :
    Outcome l branch phase { Observation.empty with duplicate := true } l
  | red (n : Int) (now time : DateTime) (hash : Option Text) :
    Outcome l branch .red (l.observe branch true time) (l.take n now branch true time hash)
  | green (n : Int) (now time : DateTime) (hash : Option Text) :
    Outcome l branch .green (l.observe branch false time) (l.take n now branch false time hash)

theorem outcome_visit (l : Ledger) (n : Int) (held : Bool) (now : DateTime) (branch : Text)
    (phase : Phase) {time utc : DateTime} (shown : time.toUtc? = some utc) (hash : Option Text) :
    Outcome l branch phase (l.visit n held now branch phase time hash).1
      (l.visit n held now branch phase time hash).2 := by
  rw [Ledger.visit, shown]
  cases kind : isRed? phase with
  | none => exact .idle kind
  | some isRed =>
    dsimp only
    cases held with
    | true => exact .skipped
    | false =>
      cases l.knows hash with
      | true => exact .duplicate
      | false =>
        cases phase with
        | red =>
          cases kind
          exact .red n now utc hash
        | green =>
          cases kind
          exact .green n now utc hash
        | refactor | tidy | other => cases kind

namespace Observation

/-- The step was taken into account. -/
def isTaken (o : Observation) : Bool := !o.duplicate && !o.skipped

end Observation

/-- How many cycles are open on a branch. -/
def openCount (l : Ledger) (branch : Text) : Nat := (l.opened branch).isSome.toNat

section

variable {l l' : Ledger} {branch : Text} {phase : Phase} {o : Observation}

theorem Outcome.elsewhere (outcome : Outcome l branch phase o l') {b : Text} (other : branch ≠ b) :
    l'.opened b = l.opened b := by
  cases outcome with
  | idle | skipped | duplicate => rfl
  | red | green => simp [Ledger.take, other]

theorem Outcome.reds (outcome : Outcome l branch phase o l') :
    (decide (phase = .red) && o.isTaken).toNat + openCount l branch =
      o.duration.isSome.toNat + o.abandonedRedAt.isSome.toNat + openCount l' branch := by
  cases outcome with
  | idle other =>
    -- A step that is neither red nor green is no red step.
    have notRed : phase ≠ .red := by
      rintro rfl
      cases other
    simp [notRed, Observation.empty]
  | skipped => simp [Observation.isTaken, Observation.passedOver, Observation.empty]
  | duplicate => simp [Observation.isTaken, Observation.empty]
  | red =>
    cases opened : l.opened branch <;>
      simp [openCount, Ledger.observe, Ledger.take, opened, Observation.isTaken, Observation.empty]
  | green =>
    cases opened : l.opened branch <;>
      simp [openCount, Ledger.observe, Ledger.take, opened, Observation.empty]

theorem Outcome.greens (outcome : Outcome l branch phase o l') :
    (decide (phase = .green) && o.isTaken).toNat = o.duration.isSome.toNat + o.orphan.toNat := by
  cases outcome with
  | idle other =>
    have notGreen : phase ≠ .green := by
      rintro rfl
      cases other
    simp [notGreen, Observation.empty]
  | skipped => simp [Observation.isTaken, Observation.passedOver, Observation.empty]
  | duplicate => simp [Observation.isTaken, Observation.empty]
  | red => simp [Ledger.observe, Observation.empty]
  | green =>
    cases opened : l.opened branch <;>
      simp [Ledger.observe, opened, Observation.isTaken, Observation.empty]

/-- A step that was passed over is no duplicate. -/
theorem Outcome.passedOver (outcome : Outcome l branch phase o l') (skipped : o.skipped = true) :
    o = .passedOver := by
  cases outcome with
  | skipped => rfl
  | idle | duplicate => cases skipped
  | red => cases skipped
  | green =>
    unfold Ledger.observe at skipped
    cases opened : l.opened branch <;> simp [opened, Observation.empty] at skipped

/-- Only a step that closes a cycle reports when it started and how long it took. -/
theorem Outcome.closes (outcome : Outcome l branch phase o l') :
    (o.duration = none ∧ o.cycleStartedAt = none) ∨ ∃ red time, l.opened branch = some red ∧
      o.duration = some (.max (DateTime.since time red.redAt) .zero) ∧
      o.cycleStartedAt = some red.redAt := by
  cases outcome with
  | idle | skipped | duplicate | red => exact .inl ⟨rfl, rfl⟩
  | green n now time hash =>
    rw [Ledger.observe, if_neg Bool.false_ne_true]
    cases opened : l.opened branch with
    | none => exact .inl ⟨rfl, rfl⟩
    | some red => exact .inr ⟨red, time, rfl, rfl, rfl⟩

theorem Outcome.spans (outcome : Outcome l branch phase o l') :
    ∀ d ∈ o.duration, d.Spans 39 := by
  intro d mem
  rcases outcome.closes with ⟨none, _⟩ | ⟨red, time, _, closed, _⟩
  · rw [none] at mem
    cases mem
  · rw [closed] at mem
    cases mem
    exact Duration.spans_since time red.redAt

theorem Outcome.startedAt (outcome : Outcome l branch phase o l') (lasts : l.Lasts) :
    ∀ t ∈ o.cycleStartedAt, t.IsUtc := by
  intro t mem
  rcases outcome.closes with ⟨_, none⟩ | ⟨red, time, opened, _, started⟩
  · rw [none] at mem
    cases mem
  · rw [started] at mem
    cases mem
    exact (lasts.opened branch red opened).1.redAt

end

end Cycle

end RedGreen
