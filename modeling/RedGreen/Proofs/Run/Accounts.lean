import RedGreen.Proofs.Cycle.Plans
import RedGreen.Proofs.Journal.Growth
import RedGreen.Proofs.Run.Course

/-!
# What a run owes

Every course comes to its last station.  A commit that was read is accounted for by a record; the
warnings name the stages that failed, in order, and the record, the journal and what is offered to
the publisher agree with them.
-/

namespace RedGreen

namespace Run

namespace Course

section

variable {x : Surroundings} {faults : Faults} {files : Files} {r : Repository} {reference : Text}

/-! ## What fails -/

/-- The store of the cycles fails for a commit of the given phase. -/
def storeFails (x : Surroundings) (faults : Faults) (files : Files) (c : Commit) (phase : Phase) :
    Bool :=
  faults.store.isSome || !(Cycle.record (storeConfig x.settings) x.now files.state c.branch phase
    c.occurredAt (some c.hash)).1.isOk

def journalFails (faults : Faults) (files : Files) (record : Record) : Bool :=
  faults.journal.isSome || !(Journal.append files.journal record).isOk

variable (x faults files) in
/-- Whatever the store does, the observation that comes of it can be recorded, and says that the
commit was passed over when the store failed or was busy. -/
theorem visited_spec (c : Commit) (phase : Phase) :
    ∃ o more state, visited x faults files { c with phase := some phase } = (o, more, state) ∧
      (∀ d ∈ o.duration, phase = .green ∧ d.Spans 39) ∧
      more.map Warning.stage =
        (if storeFails x faults files c phase then [Stage.cycleUpdate] else []) ∧
      (o.skipped = true ↔ storeFails x faults files c phase = true ∨
        Cycle.isBusy files.state phase c.occurredAt = true) := by
  have closesNothing : ∀ d ∈ Cycle.Observation.passedOver.duration,
      phase = .green ∧ d.Spans 39 := by
    intro d mem
    cases mem
  unfold visited storeFails
  cases faults.store with
  | some fault => exact ⟨_, _, _, rfl, closesNothing, rfl, fun _ => .inl rfl, fun _ => rfl⟩
  | none =>
    obtain ⟨answer, g, recorded⟩ : ∃ answer g, Cycle.record (storeConfig x.settings) x.now
      files.state c.branch phase c.occurredAt (some c.hash) = (answer, g) := ⟨_, _, rfl⟩
    simp only [updateCycle, Option.getD_some, recorded]
    cases answer with
    | error e => exact ⟨_, _, _, rfl, closesNothing, rfl, fun _ => .inl rfl, fun _ => rfl⟩
    | ok o =>
      obtain ⟨p, planned, answer⟩ := Cycle.planned_of_record recorded
      refine ⟨o, [], g, rfl, planned.closes answer, rfl, ?_⟩
      rw [planned.skipped_iff answer]
      simp [Except.isOk, Except.toBool]

variable (faults files) in
/-- The record is there whatever the journal does; the journal takes it or stays as it is. -/
theorem logged_spec {c : Commit} {o : Cycle.Observation} {record : Record}
    (made : Record.ofCommit x.now c o = .ok record) :
    ∃ more journal, logged x faults files c o = (some record, more, journal) ∧
      more.map Warning.stage = (if journalFails faults files record then [Stage.log] else []) ∧
      (more.isEmpty = true → Journal.append files.journal record = .ok journal) ∧
      (more.isEmpty = false → journal = files.journal) := by
  unfold logged journalFails
  cases faults.journal with
  | some reason =>
    dsimp only
    rw [made]
    exact ⟨_, _, rfl, rfl, nofun, fun _ => rfl⟩
  | none =>
    dsimp only
    rw [log_eq made]
    cases answer : Journal.append files.journal record with
    | error e => exact ⟨_, _, rfl, rfl, nofun, fun _ => rfl⟩
    | ok journal => exact ⟨_, _, rfl, rfl, fun _ => rfl, nofun⟩

/-! ## The account -/

/-- Whether a stage fails for a commit that was read, given its record. -/
def raises (x : Surroundings) (faults : Faults) (files : Files) (c : Commit) (record : Record) :
    Stage → Bool
  | .extract => false
  | .classify => x.classifierFault.isSome
  | .cycleUpdate => storeFails x faults files c record.phase
  | .log => journalFails faults files record

/-- What a run owes to a commit that was read. -/
structure Accounts (x : Surroundings) (faults : Faults) (files : Files) (c : Commit)
    (offered : Option Record) (run : Run) (record : Record) : Prop where
  recorded : run.record = some record
  reports : ∃ o, run.observation = some o ∧ record.Reports x.now c record.phase o
  hash : record.commitHash = c.hash
  warnings : run.warnings.map Warning.stage =
    [.classify, .cycleUpdate, .log].filter (raises x faults files c record)
  phase : record.phase = if raises x faults files c record .classify then .other
    else Classification.classify c.message (some c.changedPaths)
  skipped : record.cycleStatus = .skipped ↔
    raises x faults files c record .cycleUpdate = true ∨
      Cycle.isBusy files.state record.phase c.occurredAt = true
  logged : run.logged = true ↔ ∃ line, record.toLine = .ok line ∧
    run.files.journal.bytes = files.journal.bytes ++ Journal.entry files.journal.bytes line
  grown : run.logged = true → ∃ line, record.toLine = .ok line ∧
    run.files.journal = files.journal.extendedBy (Journal.entry files.journal.bytes line)
  kept : run.logged = false → run.files.journal = files.journal
  offered : offered = some record
  handover : run.handover = Run.dispatch x (some record)
  dispatched : run.handover.started = true ↔
    x.settings.delivers = true ∧ x.start = .running ∧ ∃ line, record.toLine = .ok line

/-- What a run owes to a commit that cannot be read. -/
structure Abandons (files : Files) (offered : Option Record) (run : Run) : Prop where
  recorded : run.record = none
  warnings : ∃ message, run.warnings = [⟨.extract, message⟩]
  unchanged : run.files = files
  offered : offered = none
  handover : run.handover = .nothing

theorem stage_classify (fault : Option Text) (c : Commit) :
    (Run.classify fault c).1 = (if fault.isSome then .other
        else Classification.classify c.message (some c.changedPaths)) ∧
      (Run.classify fault c).2.map Warning.stage =
        if fault.isSome then [Stage.classify] else [] := by
  cases fault with
  | none => exact ⟨rfl, rfl⟩
  | some reason => exact ⟨rfl, rfl⟩

/-- A record is dispatched when the child process takes its line. -/
theorem started_dispatch (x : Surroundings) (record : Record) :
    (Run.dispatch x (some record)).started = true ↔
      x.settings.delivers = true ∧ x.start = .running ∧ ∃ line, record.toLine = .ok line := by
  unfold Run.dispatch Delivery.handOver
  cases x.settings.delivers with
  | false => simp [Delivery.Handover.started, Delivery.Handover.nothing]
  | true =>
    cases x.start with
    | refused | deaf | crashed => simp [Delivery.Handover.started, Delivery.Handover.nothing]
    | running => cases taken : record.toLine <;> simp [taken, Delivery.Handover.started]

theorem filter_stages (fails : Stage → Bool) :
    [Stage.classify, .cycleUpdate, .log].filter fails =
      (if fails .classify then [Stage.classify] else []) ++
        (if fails .cycleUpdate then [Stage.cycleUpdate] else []) ++
        (if fails .log then [Stage.log] else []) := by
  simp only [List.filter_cons, List.filter_nil]
  cases fails .classify <;> cases fails .cycleUpdate <;> cases fails .log <;> rfl

/-- A commit that was read goes through all stations, and its account is kept. -/
theorem after_of_read {c : Commit} (read : extraction x faults r reference = .ok c) :
    ∃ offered run record,
      after x faults files r reference 6 .start = .ok (.done 0 offered run) ∧
        Accounts x faults files c offered run record := by
  obtain ⟨phase, classifyWarnings, classified⟩ : ∃ phase warnings,
    Run.classify x.classifierFault c = (phase, warnings) := ⟨_, _, rfl⟩
  obtain ⟨phase_eq, classifyStages⟩ := stage_classify x.classifierFault c
  rw [classified] at phase_eq classifyStages
  obtain ⟨o, cycleWarnings, state, visits, closes, cycleStages, skipped⟩ :=
    visited_spec x faults files c phase
  obtain ⟨record, made, reports, _⟩ := ofCommit_withDuration (extraction_eq_ok read).1 x.now phase
    fun d mem => (closes d mem).2
  obtain ⟨logWarnings, journal, logs, logStages, grown, kept⟩ :=
    logged_spec faults files made
  -- The record has the phase of the commit, so the stages may be read off the record.
  obtain rfl : record.phase = phase := reports.phase
  have appended : logWarnings.isEmpty = true → ∃ line, record.toLine = .ok line ∧
      files.journal.IsWritable ∧
      journal = files.journal.extendedBy (Journal.entry files.journal.bytes line) := by
    intro logged
    obtain ⟨unicode, writable, rfl⟩ := Journal.append_eq_ok_iff.mp (grown logged)
    exact ⟨_, Record.toLine_of_isUnicode unicode, writable, rfl⟩
  have green := fun d mem => (closes d mem).1
  refine ⟨_, _, record, after_eq read classified visits green logs, ?_⟩
  constructor
  case recorded => rfl
  case reports => exact ⟨o, rfl, reports⟩
  case hash => exact (commitHash_of_ofCommit made).trans (hash_withDuration _ o)
  case phase => exact phase_eq
  case warnings =>
    rw [filter_stages, List.map_append, List.map_append, classifyStages, cycleStages, logStages]
    rfl
  case skipped =>
    rw [raises, ← skipped, reports.cycleStatus]
    cases o.skipped <;> decide
  case logged =>
    constructor
    · intro logged
      obtain ⟨line, written, writable, rfl⟩ := appended logged
      exact ⟨line, written, Disk.File.bytes_extendedBy writable _⟩
    · rintro ⟨line, _, grew⟩
      -- A journal that stays as it is has not grown, as an entry is never empty.
      by_contra lost
      rw [kept (Bool.eq_false_iff.mpr lost)] at grew
      exact Journal.append_entry_ne _ line grew.symm
  case grown =>
    intro logged
    obtain ⟨line, written, _, rfl⟩ := appended logged
    exact ⟨line, written, rfl⟩
  case kept => exact kept
  case offered => rfl
  case handover => rfl
  case dispatched => exact started_dispatch x record

/-- A commit that cannot be read ends the run at once. -/
theorem after_of_unread {e : ExtractionError}
    (unreadable : extraction x faults r reference = .error e) :
    after x faults files r reference 6 .start = .ok (.done 0 none (unread x files e)) := by
  have extracts : step x faults files r reference .extract =
      .ok (.done 0 none (unread x files e)) := by
    rw [step, unreadable]
  rw [after_succ rfl, after_succ extracts]
  exact after_done 4 0 none (unread x files e)

/-- Without failures from outside the course is the run that `perform` describes. -/
theorem after_none :
    after x .none files r reference 6 .start = .ok (.done 0
      (perform x files (Extraction.extract x.now r reference)).record
      (perform x files (Extraction.extract x.now r reference))) := by
  cases read : Extraction.extract x.now r reference with
  | error e => exact after_of_unread read
  | ok c =>
    obtain ⟨phase, classifyWarnings, classified⟩ : ∃ phase warnings,
      Run.classify x.classifierFault c = (phase, warnings) := ⟨_, _, rfl⟩
    obtain ⟨o, cycleWarnings, state, visits, closes, _⟩ :=
      visited_spec x .none files c phase
    obtain ⟨record, logWarnings, journal, logs⟩ : ∃ record warnings journal,
      logged x .none files (withDuration { c with phase := some phase } o) o =
        (record, warnings, journal) := ⟨_, _, _, rfl⟩
    have green := fun d mem => (closes d mem).1
    have unhindered : extraction x .none r reference = .ok c := read
    rw [after_eq unhindered classified visits green logs, perform,
      ofCommit_eq classified visits logs]

end

end Course

/-- Whatever fails and whatever the files hold, a run comes to its end.  A commit that cannot be
read leaves one warning and nothing else; every other commit leaves a record, one warning for each
stage that failed, and a journal that has grown by the line of the record or is as it was. -/
theorem faults_are_accounted :
    (∀ (x : Surroundings) (faults : Faults) (files : Files) (r : Repository) (reference : Text),
      ∃ offered run, Course.after x faults files r reference 6 .start =
          .ok (.done 0 offered run) ∧
        match Course.extraction x faults r reference with
        | .error _ => Course.Abandons files offered run
        | .ok c => ∃ record, Course.Accounts x faults files c offered run record) ∧
    (∀ (x : Surroundings) (files : Files) (r : Repository) (reference : Text),
      ∃ offered, Course.after x .none files r reference 6 .start =
        .ok (.done 0 offered (perform x files (Extraction.extract x.now r reference)))) := by
  constructor
  · intro x faults files r reference
    cases read : Course.extraction x faults r reference with
    | error e =>
      exact ⟨none, unread x files e, Course.after_of_unread read,
        ⟨rfl, ⟨_, rfl⟩, rfl, rfl, rfl⟩⟩
    | ok c =>
      obtain ⟨offered, run, record, arrives, accounts⟩ := Course.after_of_read read
      exact ⟨offered, run, arrives, record, accounts⟩
  · intro x files r reference
    exact ⟨_, Course.after_none⟩

end Run

end RedGreen
