import RedGreen.Proofs.Cycle.Frame
import RedGreen.Proofs.Run.Rerun
import RedGreen.Proofs.Time.Conversion

/-!
# The duration of a closed cycle

A red commit leaves its time in the state file, and the green commit that closes its cycle takes the
time between the two.  The journal keeps that as a number of seconds, and whoever reads the line
finds the duration again, to the microsecond.
-/

namespace RedGreen

/-! ## What a line gives back -/

/-- The line of a record is read as that record, or not at all. -/
theorem Record.ofLine_line_iff (now : DateTime) {r s : Record} (valid : r.IsValid)
    (finite : r.IsFinite) (minutes : r.OnMinutes) :
    ofLine now (Json.compact .line r.toJson) = .ok s ↔ r.HasShortIntegers ∧ s = r := by
  constructor
  · intro parsed
    have read : Journal.recordOfLine now (Json.compact .line r.toJson) = .ok (some s) := by
      rw [Journal.recordOfLine, parsed]
    rw [Journal.recordOfLine_line valid finite minutes] at read
    split at read
    next short =>
      cases read
      exact ⟨short, rfl⟩
    next => cases read
  · rintro ⟨short, rfl⟩
    exact ofLine_line now valid finite minutes short

namespace Cycle

/-- A green commit that counts closes the cycle that it finds open. -/
theorem closes_of_planned {c : StoreConfig} {now time utc started : DateTime} {f : Disk.File}
    {branch : Text} {phase : Phase} {hash : Option Text} {document : Json.Members} {o : Observation}
    {s : State} (kind : isRed? phase = some false) (shown : time.toUtc? = some utc)
    (planned : Planned c now f branch phase time hash (.replace document o))
    (found : get now f branch = .ok (some s)) (opened : s.pendingRedAt = some started) :
    o.duration = some (.max (utc.since started) .zero) ∧ o.cycleStartedAt = some started := by
  cases planned with
  | taken kind' shown' _ _ read applied fresh =>
  rw [kind] at kind'
  rw [shown] at shown'
  cases kind'
  cases shown'
  obtain ⟨members, current, _, listed, loaded, paired, _⟩ := applied.entries fresh
  rw [get_of_read read listed, loaded] at found
  cases found
  cases paired with
  | orphan closed =>
    rw [Option.bind_some, opened] at closed
    cases closed
  | closing pending =>
    rw [Option.bind_some, opened] at pending
    cases pending
    exact ⟨rfl, rfl⟩

end Cycle

namespace Run

/-! ## Runs that count -/

/-- A run for a commit that was read is of the given phase and takes the commit into account. -/
structure Takes (x : Surroundings) (files : Files) (c : Commit) (phase : Phase) (run : Run) :
    Prop where
  clock : x.now.IsUtc
  read : ∃ repository reference, Extraction.extract x.now repository reference = .ok c
  ran : Run.perform x files (.ok c) = run
  phase : run.commit.bind Commit.phase = some phase
  counted : ∃ o, run.observation = some o ∧ o.duplicate = false ∧ o.skipped = false

theorem record_of_updateCycle {x : Surroundings} {state state' : Disk.File} {c : Commit}
    {phase : Phase} {o : Cycle.Observation} {warnings : List Warning}
    (updated : updateCycle x state c phase = (o, warnings, state')) (taken : o.skipped = false) :
    Cycle.record (storeConfig x.settings) x.now state c.branch phase c.occurredAt (some c.hash) =
      (.ok o, state') := by
  unfold updateCycle at updated
  split at updated
  next recorded =>
    cases updated
    exact recorded
  next =>
    cases updated
    cases taken

section

variable {x x₀ : Surroundings} {files files₀ : Files} {run run₀ : Run} {c c₀ : Commit}
  {phase : Phase} {isRed : Bool}

/-- What a red or green commit that counts leaves behind. -/
theorem Takes.settles (takes : Takes x files c phase run)
    (kind : Cycle.isRed? phase = some isRed) :
    c.occurredAt.IsUtc ∧ ∃ o document r,
      Cycle.Planned (storeConfig x.settings) x.now files.state c.branch phase c.occurredAt
        (some c.hash) (.replace document o) ∧
      Leaves x.now files.journal c run phase o
        { files.state with node := .regular (Document.bytesOf (.obj document)) } r := by
  obtain ⟨_, ⟨_, _, read⟩, rfl, phased, o, observed, fresh, taken⟩ := takes
  have extracted := Extraction.isExtracted read
  have phased : (withDuration { c with phase := some (classify x.classifierFault c).1 }
      (updateCycle x files.state c (classify x.classifierFault c).1).1).phase = some phase := phased
  rw [withDuration_eq] at phased
  cases phased
  obtain ⟨answer, warnings, state, updated⟩ : ∃ answer warnings state,
    updateCycle x files.state c (classify x.classifierFault c).1 = (answer, warnings, state) :=
      ⟨_, _, _, rfl⟩
  have observed : (updateCycle x files.state c (classify x.classifierFault c).1).1 = o :=
    Option.some.inj observed
  rw [updated] at observed
  cases observed
  obtain ⟨document, planned, rfl⟩ :=
    Cycle.planned_of_taken (record_of_updateCycle updated taken) fresh taken kind
  have spans : ∀ d ∈ answer.duration, d.Spans 39 := fun d mem =>
    (planned.closes (.inr ⟨document, rfl⟩) d mem).2
  obtain ⟨r, leaves⟩ := ofCommit_leaves x files extracted rfl updated spans
  exact ⟨extracted.occurredAt, answer, document, r, planned, leaves⟩

/-- A run closes a cycle of a duration that its record, and whoever reads the line of the record,
reports to the microsecond. -/
structure Closes (files : Files) (run : Run) (d : Duration) (r : Record) : Prop where
  closed : run.observation.bind Cycle.Observation.duration = some d
  record : run.record = some r
  seconds : r.cycleSeconds = some d.toSeconds
  logged : run.logged = true ↔ r.IsUnicode ∧ files.journal.IsWritable
  /-- The line that is added to the journal is read unless an integer in it is too long. -/
  kept : run.logged = true → ∃ line, r.toLine = .ok line ∧
    run.files.journal = files.journal.extendedBy (Journal.entry files.journal.bytes line) ∧
    ∀ later, ((∃ s, Record.ofLine later line = .ok s) ↔ r.HasShortIntegers) ∧
      ∀ s, Record.ofLine later line = .ok s → s.cycleDuration = some (some d)

theorem closes_of_leaves {d : Duration} {started : DateTime} {o : Cycle.Observation}
    {state : Disk.File} {r : Record} (clock : x.now.IsUtc) (utc : c.occurredAt.IsUtc)
    (began : started.IsUtc) (closed : o.duration = some d)
    (startedAt : o.cycleStartedAt = some started) (spans : d.Spans 39)
    (within : d.micros ≤ 2 ^ 33 * 1000000)
    (leaves : Leaves x.now files.journal c run phase o state r) : Closes files run d r := by
  have seconds : r.cycleSeconds = some d.toSeconds := by
    rw [leaves.reports.cycleSeconds, closed]
    rfl
  have atMost : ∀ x ∈ r.cycleSeconds, x.AtMost 39 := by
    refine leaves.reports.atMost fun e mem => ?_
    obtain rfl := Option.some.inj (closed.symm.trans mem)
    exact spans
  have valid : r.IsValid := fun x mem => (atMost x mem).zero_le
  have finite : r.IsFinite := fun x mem => (atMost x mem).isFinite
  have minutes : r.OnMinutes := by
    refine leaves.reports.onMinutes clock utc fun t mem => ?_
    obtain rfl := Option.some.inj (startedAt.symm.trans mem)
    exact began
  have duration : r.cycleDuration = some (some d) := by
    rw [Record.cycleDuration, seconds, Option.map_some,
      Duration.ofSeconds?_toSeconds_of_le spans.1 within]
  refine ⟨?_, leaves.record, seconds, ?_, ?_⟩
  · rw [leaves.observation, Option.bind_some, closed]
  · rcases leaves.journal with ⟨logged, appended⟩ | ⟨lost, _, e, failed⟩
    · obtain ⟨unicode, writable, _⟩ := Journal.append_eq_ok_iff.mp appended
      exact iff_of_true logged ⟨unicode, writable⟩
    · refine iff_of_false (Bool.eq_false_iff.mp lost) ?_
      rintro ⟨unicode, writable⟩
      rw [Journal.append_eq_ok_iff.mpr ⟨unicode, writable, rfl⟩] at failed
      cases failed
  · intro logged
    rcases leaves.journal with ⟨_, appended⟩ | ⟨lost, _⟩
    · obtain ⟨unicode, _, grown⟩ := Journal.append_eq_ok_iff.mp appended
      refine ⟨_, Record.toLine_of_isUnicode unicode, grown, fun later => ⟨⟨?_, ?_⟩, ?_⟩⟩
      · rintro ⟨s, read⟩
        exact ((Record.ofLine_line_iff later valid finite minutes).mp read).1
      · intro short
        exact ⟨r, (Record.ofLine_line_iff later valid finite minutes).mpr ⟨short, rfl⟩⟩
      · intro s read
        rw [((Record.ofLine_line_iff later valid finite minutes).mp read).2, duration]
    · rw [logged] at lost
      cases lost

/-- The duration of a cycle survives the journal: the green commit that finds the cycle of a red one
still open reports the time between them, or zero, and the line of its record gives it back. -/
theorem closing_duration_survives (red : Takes x₀ files₀ c₀ .red run₀)
    (green : Takes x files c .green run) (same : c.branch = c₀.branch)
    (kept : Cycle.get x.now files.state c.branch = Cycle.get x.now run₀.files.state c.branch)
    (within : c.occurredAt.micros - c₀.occurredAt.micros ≤ 2 ^ 33 * 1000000) :
    ∃ d r, d.micros = max (c.occurredAt.micros - c₀.occurredAt.micros) 0 ∧
      Closes files run d r := by
  obtain ⟨began, _, _, _, opens, left⟩ := red.settles rfl
  obtain ⟨utc, o, _, r, closes, leaves⟩ := green.settles rfl
  have found := Cycle.get_of_planned red.clock rfl began.toUtc? opens x.now
  rw [← left.state, ← same, ← kept] at found
  obtain ⟨closed, startedAt⟩ := Cycle.closes_of_planned rfl utc.toUtc? closes found rfl
  have micros : (Duration.max (c.occurredAt.since c₀.occurredAt) .zero).micros =
      max (c.occurredAt.micros - c₀.occurredAt.micros) 0 := Duration.micros_max _ _
  have within : (Duration.max (c.occurredAt.since c₀.occurredAt) .zero).micros ≤
      2 ^ 33 * 1000000 := by
    rw [micros]
    exact max_le within (by decide)
  exact ⟨_, r, micros, closes_of_leaves green.clock utc began closed startedAt
    (Duration.spans_since _ _) within leaves⟩

end

/-- A run that is seen to take its commit into account. -/
theorem exists_takes {x : Surroundings} {files : Files} {run : Run} {phase : Phase}
    {repository : Repository} {reference : Text} (clock : x.now.IsUtc)
    (ran : Run.perform x files (Extraction.extract x.now repository reference) = run)
    (classified : run.commit.bind Commit.phase = some phase)
    (counted : run.observation.map (fun o => (o.duplicate, o.skipped)) = some (false, false)) :
    ∃ c, Extraction.extract x.now repository reference = .ok c ∧ Takes x files c phase run := by
  cases read : Extraction.extract x.now repository reference with
  | error e =>
    rw [read] at ran
    subst ran
    cases classified
  | ok c =>
    rw [read] at ran
    obtain ⟨o, observed, same⟩ := Option.map_eq_some_iff.mp counted
    obtain ⟨fresh, taken⟩ := Prod.mk.inj same
    exact ⟨c, rfl, clock, ⟨_, _, read⟩, ran, classified, o, observed, fresh, taken⟩

/-- The run of a red commit on a fresh state. -/
def redRun : Run :=
  Run.perform sampleSurroundings sampleFiles
    (Extraction.extract (.minute 9) (sampleRepository "a" "test: sorts" 0) "HEAD")

/-- The run of the green commit five minutes later. -/
def greenRun : Run :=
  Run.perform sampleSurroundings redRun.files
    (Extraction.extract (.minute 9) (sampleRepository "b" "feat: sorts" 5) "HEAD")

theorem closing_duration_survives_sample : ∃ c₀ c d r,
    Takes sampleSurroundings sampleFiles c₀ .red redRun ∧
      Takes sampleSurroundings redRun.files c .green greenRun ∧ greenRun.logged = true ∧
      d.micros = 300000000 ∧ Closes redRun.files greenRun d r := by
  obtain ⟨c₀, read₀, red⟩ := @exists_takes sampleSurroundings _ redRun .red _ _ rfl rfl
    (by decide +kernel) (by decide +kernel)
  obtain ⟨c, read, green⟩ := @exists_takes sampleSurroundings _ greenRun .green _ _ rfl rfl
    (by decide +kernel) (by decide +kernel)
  have seen₀ : (Extraction.extract sampleSurroundings.now (sampleRepository "a" "test: sorts" 0)
      "HEAD").toOption.map (fun c => (c.occurredAt, c.branch)) =
      some (.minute 0, Text.ofString "main") := by
    decide +kernel
  have seen : (Extraction.extract sampleSurroundings.now (sampleRepository "b" "feat: sorts" 5)
      "HEAD").toOption.map (fun c => (c.occurredAt, c.branch)) =
      some (.minute 5, Text.ofString "main") := by
    decide +kernel
  rw [read₀] at seen₀
  rw [read] at seen
  obtain ⟨time₀, branch₀⟩ := Prod.mk.inj (Option.some.inj seen₀)
  obtain ⟨time, branch⟩ := Prod.mk.inj (Option.some.inj seen)
  have within : c.occurredAt.micros - c₀.occurredAt.micros ≤ 2 ^ 33 * 1000000 := by
    rw [time, time₀]
    decide
  obtain ⟨d, r, micros, closes⟩ :=
    closing_duration_survives red green (branch.trans branch₀.symm) rfl within
  rw [time, time₀] at micros
  exact ⟨c₀, c, d, r, red, green, by decide +kernel, micros, closes⟩

end Run

end RedGreen
