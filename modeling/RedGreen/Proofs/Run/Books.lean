import RedGreen.Proofs.Run.Stages

/-!
# The books of a branch

The records of a branch account for its cycles: a red commit that counts is closed by a green one,
given up for the next red one, or still open.  One record balances the books of every branch, and
so do the records of any sequence of runs.
-/

namespace RedGreen

namespace Run

/-! ## Sequences of runs -/

/-- What may happen to the files of the pipeline. -/
inductive Event where
  /-- A run for the commit under a reference. -/
  | commit (x : Surroundings) (repository : Repository) (reference : Text)
  /-- A run that finds no commit. -/
  | unread (x : Surroundings) (e : ExtractionError)
  /-- Someone else takes the lock beside the state file, or lets it go. -/
  | lock (held : Bool)
  /-- The directory of the journal becomes unreachable, or reachable again. -/
  | block (blocked : Bool)
  /-- Anything at all takes the place of the journal. -/
  | journal (f : Disk.File)

namespace Event

def perform (files : Files) : Event → Files × List Run
  | .commit x repository reference =>
    let run := Run.perform x files (Extraction.extract x.now repository reference)
    (run.files, [run])
  | .unread x e =>
    let run := Run.perform x files (.error e)
    (run.files, [run])
  | .lock held => ({ files with state := { files.state with held := held } }, [])
  | .block blocked => ({ files with journal := { files.journal with blocked := blocked } }, [])
  | .journal f => ({ files with journal := f }, [])

/-- Runs read a clock that shows UTC. -/
def IsOnUtc : Event → Prop
  | .commit x _ _ => x.now.IsUtc
  | .unread _ _ | .lock _ | .block _ | .journal _ => True

/-- Only runs write to the journal. -/
def SparesJournal : Event → Prop
  | .journal _ => False
  | .commit .. | .unread .. | .lock _ | .block _ => True

end Event

def performAll (files : Files) : List Event → Files × List Run
  | [] => (files, [])
  | e :: es =>
    let (files, runs) := e.perform files
    let (files, more) := performAll files es
    (files, runs ++ more)

/-- The records that runs produced. -/
def recordsOf (runs : List Run) : List Record := runs.filterMap Run.record

/-- The records that runs added to the journal. -/
def loggedOf (runs : List Run) : List Record := recordsOf (runs.filter Run.logged)

end Run

/-! ## Counting records -/

namespace Record

/-- Neither a duplicate nor passed over. -/
def isTaken (r : Record) : Bool := !r.duplicate && decide (r.cycleStatus = .ok)

/-- How many records of a branch have a property. -/
def countOn (branch : Text) (p : Record → Bool) (records : List Record) : Nat :=
  records.countP fun r => decide (r.branch = branch) && p r

section

variable (branch : Text) (p : Record → Bool)

theorem countOn_nil : countOn branch p [] = 0 := rfl

theorem countOn_append (first second : List Record) :
    countOn branch p (first ++ second) = countOn branch p first + countOn branch p second :=
  List.countP_append

theorem countOn_singleton (r : Record) :
    countOn branch p [r] = if r.branch = branch then (p r).toNat else 0 := by
  by_cases same : r.branch = branch <;> cases holds : p r <;> simp [countOn, same, holds]

end

end Record

namespace Run

open RedGreen.Cycle

/-- The books of a branch balance over some records, from one ledger to another. -/
structure Balances (branch : Text) (records : List Record) (l l' : Ledger) : Prop where
  reds : Record.countOn branch (fun r => decide (r.phase = .red) && r.isTaken) records +
      openCount l branch =
    Record.countOn branch (fun r => r.cycleSeconds.isSome) records +
      Record.countOn branch Record.abandonedCycle records + openCount l' branch
  greens : Record.countOn branch (fun r => decide (r.phase = .green) && r.isTaken) records =
    Record.countOn branch (fun r => r.cycleSeconds.isSome) records +
      Record.countOn branch Record.orphanGreen records

theorem Balances.refl (branch : Text) (l : Ledger) : Balances branch [] l l := by
  constructor <;> simp [Record.countOn_nil]

theorem Balances.trans {branch : Text} {first second : List Record} {l l' l'' : Ledger}
    (one : Balances branch first l l') (two : Balances branch second l' l'') :
    Balances branch (first ++ second) l l'' := by
  have reds := one.reds
  have reds' := two.reds
  have greens := one.greens
  have greens' := two.greens
  constructor <;> simp only [Record.countOn_append] <;> omega

theorem isTaken_reports {now : DateTime} {c : Commit} {phase : Phase} {o : Observation}
    {r : Record} (reports : r.Reports now c phase o) : r.isTaken = o.isTaken := by
  rw [Record.isTaken, Observation.isTaken, reports.duplicate, reports.cycleStatus]
  cases o.skipped <;> simp

/-- One record balances the books of every branch. -/
theorem balances_record {now : DateTime} {c : Commit} {phase : Phase} {o : Observation} {r : Record}
    {l l' : Ledger} (reports : r.Reports now c phase o) (outcome : Outcome l c.branch phase o l')
    (branch : Text) : Balances branch [r] l l' := by
  by_cases same : c.branch = branch
  · subst same
    have reds := outcome.reds
    have greens := outcome.greens
    constructor <;> simp only [Record.countOn_singleton, reports.branch, if_true, reports.phase,
      isTaken_reports reports, reports.cycleSeconds, Option.isSome_map, reports.abandonedCycle,
      reports.orphanGreen]
    · exact reds
    · exact greens
  · have other : r.branch ≠ branch := by
      rw [reports.branch]
      exact same
    -- A commit of another branch adds no record here and touches no cycle.
    have elsewhere : openCount l' branch = openCount l branch := by
      rw [openCount, outcome.elsewhere same, openCount]
    constructor <;> simp only [Record.countOn_singleton, if_neg other, elsewhere]

/-! ## Balanced runs -/

theorem recordsOf_append (first second : List Run) :
    recordsOf (first ++ second) = recordsOf first ++ recordsOf second :=
  List.filterMap_append

theorem recordsOf_singleton {run : Run} {r : Record} (made : run.record = some r) :
    recordsOf [run] = [r] := by
  rw [recordsOf, List.filterMap_cons_some made, List.filterMap_nil]

theorem perform_balances {files : Files} {l : Ledger} (holds : Holds files.state l) {e : Event}
    (onUtc : e.IsOnUtc) :
    ∃ l', Holds (e.perform files).1.state l' ∧
      ∀ branch, Balances branch (recordsOf (e.perform files).2) l l' := by
  cases e with
  | commit x repository reference =>
    cases extracted : Extraction.extract x.now repository reference with
    | error fault =>
      rw [Event.perform, extracted]
      exact ⟨l, holds, fun branch => .refl branch l⟩
    | ok c =>
      obtain ⟨phase, o, l', r, handles⟩ :=
        ofCommit_handles holds onUtc (Extraction.isExtracted extracted)
      rw [Event.perform, extracted]
      refine ⟨l', handles.state, fun branch => ?_⟩
      show Balances branch (recordsOf [ofCommit x files c]) l l'
      rw [recordsOf_singleton handles.record]
      exact balances_record handles.reports handles.outcome branch
  | unread x fault => exact ⟨l, holds, fun branch => .refl branch l⟩
  | lock held => exact ⟨l, holds.lock held, fun branch => .refl branch l⟩
  | block blocked => exact ⟨l, holds, fun branch => .refl branch l⟩
  | journal f => exact ⟨l, holds, fun branch => .refl branch l⟩

theorem performAll_balances {files : Files} {l : Ledger} (holds : Holds files.state l)
    {events : List Event} (onUtc : ∀ e ∈ events, e.IsOnUtc) :
    ∃ l', Holds (performAll files events).1.state l' ∧
      ∀ branch, Balances branch (recordsOf (performAll files events).2) l l' := by
  induction events generalizing files l with
  | nil => exact ⟨l, holds, fun branch => .refl branch l⟩
  | cons e events ih =>
    obtain ⟨l', holds', one⟩ := perform_balances holds (onUtc e List.mem_cons_self)
    obtain ⟨l'', holds'', more⟩ := ih holds' fun e mem => onUtc e (List.mem_cons_of_mem _ mem)
    refine ⟨l'', holds'', fun branch => ?_⟩
    show Balances branch (recordsOf ((e.perform files).2 ++
      (performAll (e.perform files).1 events).2)) l l''
    rw [recordsOf_append]
    exact (one branch).trans (more branch)

end Run

end RedGreen
