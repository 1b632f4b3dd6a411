import RedGreen.Run
import RedGreen.Proofs.Cycle.Outcomes
import RedGreen.Proofs.Record.RoundTrip
import RedGreen.Proofs.Run.Extraction

/-!
# The stages of a run

A commit that was read always leaves a record, which reports what the commit did to its cycle.  The
journal takes the record or stays as it is.
-/

namespace RedGreen

/-- A record reports a commit, its phase and what it did. -/
structure Record.Reports (now : DateTime) (c : Commit) (phase : Phase) (o : Cycle.Observation)
    (r : Record) : Prop where
  loggedAt : r.loggedAt = now
  branch : r.branch = c.branch
  phase : r.phase = phase
  occurredAt : r.occurredAt = c.occurredAt
  cycleSeconds : r.cycleSeconds = o.duration.map Duration.toSeconds
  cycleStartedAt : r.cycleStartedAt = o.cycleStartedAt
  abandonedCycle : r.abandonedCycle = o.abandonedRedAt.isSome
  orphanGreen : r.orphanGreen = o.orphan
  duplicate : r.duplicate = o.duplicate
  cycleStatus : r.cycleStatus = if o.skipped then .skipped else .ok

/-- A record carries the texts and the counts of a commit. -/
structure Record.Describes (c : Commit) (r : Record) : Prop where
  texts : r.texts = [c.hash, c.branch, c.repository, c.author, c.subject]
  integers : r.integers = [currentVersion, c.filesChanged, c.linesAdded, c.linesRemoved]

section

variable {now : DateTime} {c : Commit} {phase : Phase} {o : Cycle.Observation} {r : Record}

theorem Record.Reports.atMost (reports : r.Reports now c phase o)
    (spans : ∀ d ∈ o.duration, d.Spans 39) : ∀ x ∈ r.cycleSeconds, x.AtMost 39 := by
  intro x mem
  rw [reports.cycleSeconds] at mem
  obtain ⟨d, closed, rfl⟩ := Option.map_eq_some_iff.mp mem
  exact (spans d closed).toSeconds (by decide)

theorem Record.Reports.onMinutes (reports : r.Reports now c phase o) (clock : now.IsUtc)
    (occurred : c.occurredAt.IsUtc) (began : ∀ t ∈ o.cycleStartedAt, t.IsUtc) : r.OnMinutes := by
  intro t mem
  rw [Record.times, List.mem_cons, List.mem_cons, Option.mem_toList, reports.loggedAt,
    reports.occurredAt, reports.cycleStartedAt] at mem
  rcases mem with rfl | rfl | started
  · exact clock.onMinutes
  · exact occurred.onMinutes
  · exact (began t started).onMinutes

end

namespace Run

/-- Only the duration of the commit is filled in. -/
theorem withDuration_eq (c : Commit) (o : Cycle.Observation) :
    withDuration c o = { c with cycleDuration := o.duration.or c.cycleDuration } := by
  rw [withDuration]
  cases o.duration <;> rfl

theorem durationOf_withDuration {c : Commit} (extracted : c.IsExtracted) (phase : Phase)
    (o : Cycle.Observation) :
    Record.durationOf (withDuration { c with phase := some phase } o) o = o.duration := by
  rw [withDuration]
  cases closed : o.duration with
  | none => rw [Record.durationOf, extracted.cycleDuration, closed]
  | some d =>
    rw [Record.durationOf, closed]
    dsimp only
    exact ite_self _

/-- The record of a commit never fails, because durations are never negative. -/
theorem ofCommit_withDuration {c : Commit} (extracted : c.IsExtracted) (now : DateTime)
    (phase : Phase) {o : Cycle.Observation} (spans : ∀ d ∈ o.duration, d.Spans 39) :
    ∃ r, Record.ofCommit now (withDuration { c with phase := some phase } o) o = .ok r ∧
      r.Reports now c phase o ∧ r.Describes c := by
  have duration := durationOf_withDuration extracted phase o
  rw [withDuration_eq] at duration ⊢
  rw [Record.ofCommit]
  dsimp only
  rw [duration]
  cases closed : o.duration with
  | none =>
    rw [Option.map_none]
    exact ⟨_, rfl, ⟨rfl, rfl, rfl, rfl, by rw [closed]; rfl, rfl, rfl, rfl, rfl, rfl⟩, rfl, rfl⟩
  | some d =>
    -- A record refuses negative durations, and a closed cycle has none.
    have positive := ((spans d closed).toSeconds (by decide)).zero_le
    rw [Option.map_some]
    simp only [positive, if_true]
    exact ⟨_, rfl, ⟨rfl, rfl, rfl, rfl, by rw [closed]; rfl, rfl, rfl, rfl, rfl, rfl⟩, rfl, rfl⟩

/-- A record is of the commit it was made for. -/
theorem fields_of_ofCommit {now : DateTime} {c : Commit} {o : Cycle.Observation}
    {record : Record} (made : Record.ofCommit now c o = .ok record) :
    record.commitHash = c.hash ∧ record.message = c.subject ∧ c.phase = some record.phase := by
  unfold Record.ofCommit at made
  split at made
  next => cases made
  next phase phased =>
    dsimp only at made
    split at made
    next =>
      split at made
      next => cases made; exact ⟨rfl, rfl, phased⟩
      next => cases made
    next => cases made; exact ⟨rfl, rfl, phased⟩

theorem commitHash_of_ofCommit {now : DateTime} {c : Commit} {o : Cycle.Observation}
    {record : Record} (made : Record.ofCommit now c o = .ok record) :
    record.commitHash = c.hash :=
  (fields_of_ofCommit made).1

theorem hash_withDuration (c : Commit) (o : Cycle.Observation) :
    (withDuration c o).hash = c.hash := by
  rw [withDuration_eq]

open RedGreen.Cycle in
theorem updateCycle_outcome {state : Disk.File} {l : Ledger} (holds : Holds state l)
    {x : Surroundings} (clock : x.now.IsUtc) {c : Commit} (extracted : c.IsExtracted)
    (phase : Phase) :
    ∃ l', Outcome l c.branch phase (updateCycle x state c phase).1 l' ∧
      Holds (updateCycle x state c phase).2.2 l' := by
  have shown := extracted.occurredAt.toUtc?
  have spelled : ∀ t ∈ some c.hash, t.Joinless := by
    rintro t ⟨⟩
    exact extracted.hash.joinless
  -- A red commit on a branch that no document can name is passed over, or a duplicate.
  by_cases named : phase = .red → c.branch.IsScalar ∧ c.branch ≠ []
  · obtain ⟨g, recorded, holds', _⟩ := record_eq_visit holds (storeConfig x.settings) clock
      (Option.isSome_of_eq_some shown) named spelled
    rw [updateCycle, recorded]
    exact ⟨_, outcome_visit l _ _ _ _ _ shown _, holds'⟩
  · obtain ⟨rfl, unnamed⟩ := Classical.not_imp.mp named
    obtain ⟨answer, recorded, cases⟩ :=
      record_unnamed_cases holds unnamed (storeConfig x.settings) x.now shown (some c.hash)
    rw [updateCycle, recorded]
    rcases cases with rfl | rfl | ⟨e, rfl⟩
    · exact ⟨l, .skipped, holds⟩
    · exact ⟨l, .duplicate, holds⟩
    · exact ⟨l, .skipped, holds⟩

theorem log_eq {now : DateTime} {c : Commit} {o : Cycle.Observation} {r : Record}
    (made : Record.ofCommit now c o = .ok r) (journal : Disk.File) :
    log now journal c o = match Journal.append journal r with
      | .error e => (some r, [lossWarning e.message], journal)
      | .ok journal => (some r, [], journal) := by
  cases appended : Journal.append journal r <;> simp only [log, made, appended]

theorem ofCommit_of_log {now : DateTime} {journal : Disk.File} {c : Commit} {o : Cycle.Observation}
    {r : Record} (logged : (log now journal c o).1 = some r) : Record.ofCommit now c o = .ok r := by
  cases made : Record.ofCommit now c o with
  | error e =>
    simp only [log, made] at logged
    cases logged
  | ok record =>
    rw [log_eq made] at logged
    split at logged <;> exact congrArg _ (Option.some.inj logged)

/-- A run for a commit that was read, from what its stages come to. -/
theorem ofCommit_eq {x : Surroundings} {files : Files} {c : Commit} {phase : Phase}
    {o : Cycle.Observation} {record : Option Record} {state journal : Disk.File}
    {classifyWarnings cycleWarnings logWarnings : List Warning}
    (classified : classify x.classifierFault c = (phase, classifyWarnings))
    (updated : updateCycle x files.state c phase = (o, cycleWarnings, state))
    (logged : log x.now files.journal (withDuration { c with phase := some phase } o) o =
      (record, logWarnings, journal)) :
    ofCommit x files c =
      { commit := some (withDuration { c with phase := some phase } o)
        observation := some o
        record := record
        logged := logWarnings.isEmpty
        handover := dispatch x record
        warnings := classifyWarnings ++ cycleWarnings ++ logWarnings
        printed := shownWarnings x.settings (classifyWarnings ++ cycleWarnings ++ logWarnings) ++
          announcements x.settings (withDuration { c with phase := some phase } o)
        files := ⟨state, journal⟩ } := by
  rw [ofCommit, classified]
  dsimp only
  rw [updated]
  dsimp only
  rw [logged]

/-- What a run leaves behind for a commit, once it is known what the commit did to its cycle. -/
structure Leaves (now : DateTime) (journal : Disk.File) (c : Commit) (run : Run) (phase : Phase)
    (o : Cycle.Observation) (state : Disk.File) (r : Record) : Prop where
  commit : run.commit.bind Commit.phase = some phase
  observation : run.observation = some o
  state : run.files.state = state
  record : run.record = some r
  reports : r.Reports now c phase o
  describes : r.Describes c
  journal : run.logged = true ∧ Journal.append journal r = .ok run.files.journal ∨
    run.logged = false ∧ run.files.journal = journal ∧ ∃ e, Journal.append journal r = .error e

theorem ofCommit_leaves (x : Surroundings) (files : Files) {c : Commit} (extracted : c.IsExtracted)
    {phase : Phase} (classified : (classify x.classifierFault c).1 = phase)
    {o : Cycle.Observation} {warnings : List Warning} {state : Disk.File}
    (updated : updateCycle x files.state c phase = (o, warnings, state))
    (spans : ∀ d ∈ o.duration, d.Spans 39) :
    ∃ r, Leaves x.now files.journal c (ofCommit x files c) phase o state r := by
  obtain ⟨r, made, reports, describes⟩ := ofCommit_withDuration extracted x.now phase spans
  have phased : (withDuration { c with phase := some phase } o).phase = some phase := by
    rw [withDuration_eq]
  have classified : classify x.classifierFault c = (phase, (classify x.classifierFault c).2) :=
    Prod.ext classified rfl
  -- The record is made whatever the journal does with it.
  have logged := log_eq made files.journal
  cases appended : Journal.append files.journal r with
  | error e =>
    rw [appended] at logged
    rw [ofCommit_eq classified updated logged]
    exact ⟨r, phased, rfl, rfl, rfl, reports, describes, .inr ⟨rfl, rfl, e, appended⟩⟩
  | ok journal =>
    rw [appended] at logged
    rw [ofCommit_eq classified updated logged]
    exact ⟨r, phased, rfl, rfl, rfl, reports, describes, .inl ⟨rfl, appended⟩⟩

/-- What a run does with a commit that was read. -/
structure Handles (now : DateTime) (files : Files) (l : Cycle.Ledger) (c : Commit) (run : Run)
    (phase : Phase) (o : Cycle.Observation) (l' : Cycle.Ledger) (r : Record) : Prop where
  outcome : Cycle.Outcome l c.branch phase o l'
  state : Cycle.Holds run.files.state l'
  record : run.record = some r
  reports : r.Reports now c phase o
  journal : run.logged = true ∧ Journal.append files.journal r = .ok run.files.journal ∨
    run.logged = false ∧ run.files.journal = files.journal

theorem ofCommit_handles {files : Files} {l : Cycle.Ledger} (holds : Cycle.Holds files.state l)
    {x : Surroundings} (clock : x.now.IsUtc) {c : Commit} (extracted : c.IsExtracted) :
    ∃ phase o l' r, Handles x.now files l c (ofCommit x files c) phase o l' r := by
  obtain ⟨l', outcome, holds'⟩ :=
    updateCycle_outcome holds clock extracted (classify x.classifierFault c).1
  obtain ⟨r, leaves⟩ := ofCommit_leaves x files extracted rfl rfl outcome.spans
  refine ⟨_, _, l', r, outcome, leaves.state ▸ holds', leaves.record, leaves.reports, ?_⟩
  exact leaves.journal.imp_right fun lost => ⟨lost.1, lost.2.1⟩

end Run

end RedGreen
