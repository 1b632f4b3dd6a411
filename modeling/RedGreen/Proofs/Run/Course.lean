import RedGreen.Proofs.Run.Stages

/-!
# The course of a run

A run goes from station to station.  Each of them may fail, by what the run finds in its files or
from outside; a failure behind the reading of the commit becomes a warning, and what is done with a
warning at hand may fail again.  A run that meets no failure from outside is the one that `perform`
describes.
-/

namespace RedGreen

namespace Run

/-- What fails from outside, besides the classifier and the child process. -/
structure Faults where
  extractor : Option ExtractionError
  /-- Why the store of the cycles fails, and the file that it leaves behind. -/
  store : Option (Text × Disk.File)
  /-- Why the journal cannot be opened or takes no byte. -/
  journal : Option Text

def Faults.none : Faults := ⟨.none, .none, .none⟩

/-- A run at one of its stations, with what is known there. -/
inductive Course where
  | start
  | extract
  | classify (c : Commit)
  | cycleUpdate (c : Commit) (warnings : List Warning)
  | log (c : Commit) (o : Cycle.Observation) (warnings : List Warning) (state : Disk.File)
  | dispatch (c : Commit) (o : Cycle.Observation) (record : Option Record) (logged : Bool)
      (warnings : List Warning) (files : Files)
  /-- `offered` is the record that the publisher was given. -/
  | done (exitCode : Int) (offered : Option Record) (run : Run)

namespace Course

section

variable (x : Surroundings) (faults : Faults) (files : Files) (r : Repository) (reference : Text)

def extraction : Except ExtractionError Commit :=
  match faults.extractor with
  | some e => .error e
  | none => Extraction.extract x.now r reference

/-- The commit with the phase of its message, unless the classifier fails. -/
def phased (c : Commit) : Except Text Commit :=
  match x.classifierFault with
  | some reason => .error reason
  | none =>
    (c.withPhase (Classification.classify c.message (some c.changedPaths))).mapError
      CommitError.message

/-- What the commit does to its cycle. -/
def visited (c : Commit) : Cycle.Observation × List Warning × Disk.File :=
  match faults.store with
  | some (reason, left) =>
    (.passedOver, [⟨.cycleUpdate, ("cycle state unavailable: " : Text) ++ reason⟩], left)
  | none => updateCycle x files.state c (c.phase.getD .other)

/-- The record of the commit, and the journal behind it. -/
def logged (c : Commit) (o : Cycle.Observation) : Option Record × List Warning × Disk.File :=
  match faults.journal with
  | none => Run.log x.now files.journal c o
  | some reason =>
    match Record.ofCommit x.now c o with
    | .error e => (none, [lossWarning e.message], files.journal)
    | .ok record => (some record, [lossWarning reason], files.journal)

/-- One station.  An error is one that nothing catches. -/
def step : Course → Except CommitError Course
  | .start => .ok .extract
  | .extract =>
    match extraction x faults r reference with
    | .error e => .ok (.done 0 none (unread x files e))
    | .ok c => .ok (.classify c)
  | .classify c =>
    match phased x c with
    | .ok c => .ok (.cycleUpdate c [])
    | .error reason => do
      -- The phase is set once more, and no handler stands around this.
      let c ← c.withPhase .other
      return .cycleUpdate c [⟨.classify, ("classification failed: " : Text) ++ reason⟩]
  | .cycleUpdate c warnings =>
    let (o, more, state) := visited x faults files c
    match o.duration with
    | none => .ok (.log c o (warnings ++ more) state)
    | some duration => do
      let c ← c.withCycleDuration (some duration)
      return .log c o (warnings ++ more) state
  | .log c o warnings state =>
    let (record, more, journal) := logged x faults files c o
    .ok (.dispatch c o record more.isEmpty (warnings ++ more) ⟨state, journal⟩)
  | .dispatch c o record logged warnings files =>
    .ok (.done 0 record
      { commit := some c
        observation := some o
        record := record
        logged := logged
        handover := Run.dispatch x record
        warnings := warnings
        printed := shownWarnings x.settings warnings ++ announcements x.settings c
        files := files })
  | .done exitCode offered run => .ok (.done exitCode offered run)

/-- The course after a number of stations. -/
def after : Nat → Course → Except CommitError Course
  | 0, k => .ok k
  | n + 1, k => do after n (← step x faults files r reference k)

end

section

variable {x : Surroundings} {faults : Faults} {files : Files} {r : Repository} {reference : Text}

theorem after_succ {k k' : Course} (stepped : step x faults files r reference k = .ok k')
    (n : Nat) :
    after x faults files r reference (n + 1) k = after x faults files r reference n k' := by
  rw [after, stepped]
  rfl

theorem after_done (n : Nat) (exitCode : Int) (offered : Option Record) (run : Run) :
    after x faults files r reference n (.done exitCode offered run) =
      .ok (.done exitCode offered run) := by
  induction n with
  | zero => rfl
  | succ n ih =>
    rw [after_succ rfl]
    exact ih

/-! ## The stations -/

theorem extraction_eq_ok {c : Commit} (read : extraction x faults r reference = .ok c) :
    c.IsExtracted ∧ c.phase = none := by
  unfold extraction at read
  split at read
  next => cases read
  next =>
    have extracted := Extraction.isExtracted read
    exact ⟨extracted, extracted.phase⟩

theorem withPhase_of_unphased {c : Commit} (unphased : c.phase = none) (phase : Phase) :
    c.withPhase phase = .ok { c with phase := some phase } := by
  rw [Commit.withPhase, unphased]

/-- A commit that was just read takes the phase it is given, with a classifier and without. -/
theorem step_classify {c : Commit} (unphased : c.phase = none) :
    step x faults files r reference (.classify c) =
      .ok (.cycleUpdate { c with phase := some (Run.classify x.classifierFault c).1 }
        (Run.classify x.classifierFault c).2) := by
  cases fault : x.classifierFault with
  | none =>
    simp only [step, phased, fault, withPhase_of_unphased unphased, Run.classify, Except.mapError]
  | some reason =>
    simp only [step, phased, fault, withPhase_of_unphased unphased, Run.classify]
    rfl

theorem step_cycleUpdate {c : Commit} {phase : Phase} {o : Cycle.Observation}
    {warnings more : List Warning} {state : Disk.File}
    (visits : visited x faults files { c with phase := some phase } = (o, more, state))
    (closes : ∀ d ∈ o.duration, phase = .green) :
    step x faults files r reference (.cycleUpdate { c with phase := some phase } warnings) =
      .ok (.log (withDuration { c with phase := some phase } o) o (warnings ++ more) state) := by
  rw [step, visits]
  dsimp only
  cases closed : o.duration with
  | none => simp only [withDuration, closed]
  | some d =>
    -- The phase that closed the cycle is the one that may carry its duration.
    cases closes d closed
    simp only [withDuration, closed]
    rfl

/-- What a course comes to for a commit that was read, from what its stages come to. -/
theorem after_eq {c : Commit} {phase : Phase} {o : Cycle.Observation} {record : Option Record}
    {state journal : Disk.File} {classifyWarnings cycleWarnings logWarnings : List Warning}
    (read : extraction x faults r reference = .ok c)
    (classified : Run.classify x.classifierFault c = (phase, classifyWarnings))
    (visits : visited x faults files { c with phase := some phase } = (o, cycleWarnings, state))
    (closes : ∀ d ∈ o.duration, phase = .green)
    (logs : logged x faults files (withDuration { c with phase := some phase } o) o =
      (record, logWarnings, journal)) :
    after x faults files r reference 6 .start = .ok (.done 0 record
      { commit := some (withDuration { c with phase := some phase } o)
        observation := some o
        record := record
        logged := logWarnings.isEmpty
        handover := Run.dispatch x record
        warnings := classifyWarnings ++ cycleWarnings ++ logWarnings
        printed := shownWarnings x.settings (classifyWarnings ++ cycleWarnings ++ logWarnings) ++
          announcements x.settings (withDuration { c with phase := some phase } o)
        files := ⟨state, journal⟩ }) := by
  have extracts : step x faults files r reference .extract = .ok (.classify c) := by
    rw [step, read]
  have classifies : step x faults files r reference (.classify c) =
      .ok (.cycleUpdate { c with phase := some phase } classifyWarnings) := by
    rw [step_classify (extraction_eq_ok read).2, classified]
  have updates : step x faults files r reference
      (.cycleUpdate { c with phase := some phase } classifyWarnings) =
      .ok (.log (withDuration { c with phase := some phase } o) o
        (classifyWarnings ++ cycleWarnings) state) := step_cycleUpdate visits closes
  have writes : step x faults files r reference
      (.log (withDuration { c with phase := some phase } o) o (classifyWarnings ++ cycleWarnings)
        state) =
      .ok (.dispatch (withDuration { c with phase := some phase } o) o record logWarnings.isEmpty
        (classifyWarnings ++ cycleWarnings ++ logWarnings) ⟨state, journal⟩) := by
    rw [step, logs]
  rw [after_succ rfl, after_succ extracts, after_succ classifies, after_succ updates,
    after_succ writes]
  rfl

end

end Course

end Run

end RedGreen
