import RedGreen.Proofs.Journal.Growth
import RedGreen.Proofs.Run.Books
import RedGreen.Proofs.Statistics.Figures

/-!
# No cycle is lost

Whatever order commits come in, on whatever branches, however often and with whatever faults, the
records account for all cycles, and so do the figures over a journal that only runs write to.
-/

namespace RedGreen

/-! ## Records of runs -/

/-- What holds of every record that a run produces. -/
structure Record.IsBooked (r : Record) : Prop where
  seconds : ∀ x ∈ r.cycleSeconds, x.AtMost 39
  minutes : r.OnMinutes
  greens : r.duplicate = false → (decide (r.phase = .green)).toNat =
    r.cycleSeconds.isSome.toNat + r.orphanGreen.toNat +
      (decide (r.phase = .green) && decide (r.cycleStatus = .skipped)).toNat
  skipped : r.cycleStatus = .skipped → r.duplicate = false

theorem Record.IsBooked.valid {r : Record} (booked : r.IsBooked) : r.IsValid :=
  fun x mem => (booked.seconds x mem).zero_le

theorem Record.IsBooked.finite {r : Record} (booked : r.IsBooked) : r.IsFinite :=
  fun x mem => (booked.seconds x mem).isFinite

namespace Run

open RedGreen.Cycle

theorem isBooked {now : DateTime} {c : Commit} {phase : Phase} {o : Observation} {r : Record}
    {l l' : Ledger} (clock : now.IsUtc) (extracted : c.IsExtracted) (lasts : l.Lasts)
    (reports : r.Reports now c phase o) (outcome : Outcome l c.branch phase o l') :
    r.IsBooked where
  seconds := reports.atMost outcome.spans
  minutes := reports.onMinutes clock extracted.occurredAt (outcome.startedAt lasts)
  greens single := by
    have greens := outcome.greens
    rw [reports.duplicate] at single
    rw [reports.phase, reports.cycleSeconds, reports.orphanGreen, reports.cycleStatus,
      Option.isSome_map]
    cases skipped : o.skipped with
    | true =>
      -- A commit that was passed over is counted by its status alone.
      have same := outcome.passedOver skipped
      subst same
      simp [Observation.passedOver, Observation.empty]
    | false =>
      rw [Observation.isTaken, single, skipped] at greens
      simpa using greens
  skipped passed := by
    rw [reports.cycleStatus] at passed
    cases skipped : o.skipped with
    | true =>
      rw [reports.duplicate, outcome.passedOver skipped]
      rfl
    | false =>
      rw [skipped] at passed
      cases passed

/-! ## The journal of runs -/

theorem unblocked_eq_self {f : Disk.File} (reachable : f.blocked = false) :
    { f with blocked := false } = f := by
  obtain ⟨directory, name, node, blocked, held⟩ := f
  cases reachable
  rfl

/-- A journal that holds the entries of some records, and nothing else that is read. -/
structure Logs (journal : Disk.File) (records : List Record) : Prop where
  node : journal.node = .missing ∨ ∃ content, journal.node = .regular content
  read : ∀ now, Journal.recordsIn now (Disk.File.bytes { journal with blocked := false }) =
    .ok (records.filter fun r => decide r.HasShortIntegers)

theorem logs_missing {journal : Disk.File} (missing : journal.node = .missing) :
    Logs journal [] where
  node := .inl missing
  read now := by
    have empty : Disk.File.bytes { journal with blocked := false } = [] := by
      rw [Disk.File.bytes, Disk.File.visibleNode, missing]
      rfl
    rw [empty]
    exact Journal.recordsIn_nil now

theorem Logs.append {journal journal' : Disk.File} {records : List Record}
    (logs : Logs journal records) {r : Record} (booked : r.IsBooked)
    (appended : Journal.append journal r = .ok journal') : Logs journal' (records ++ [r]) := by
  obtain ⟨unicode, writable, rfl⟩ := Journal.append_eq_ok_iff.mp appended
  refine ⟨.inr ⟨_, rfl⟩, fun now => ?_⟩
  have read := logs.read now
  rw [unblocked_eq_self writable.1] at read
  have still : Disk.File.bytes { journal.extendedBy (Journal.entry journal.bytes
      (Json.compact .line r.toJson)) with blocked := false } = journal.bytes ++
        Journal.entry journal.bytes (Json.compact .line r.toJson) := rfl
  rw [still, Journal.recordsIn_entry booked.valid booked.finite booked.minutes unicode, read,
    List.filter_append]
  rfl

theorem Logs.block {journal : Disk.File} {records : List Record} (logs : Logs journal records)
    (blocked : Bool) : Logs { journal with blocked := blocked } records :=
  ⟨logs.node, logs.read⟩

theorem Logs.records {journal : Disk.File} {records : List Record} (logs : Logs journal records)
    (reachable : journal.blocked = false) (now : DateTime) :
    Journal.records now journal = .ok (records.filter fun r => decide r.HasShortIntegers) := by
  -- A journal that only runs write to is a file, if it is there at all.
  have readable : journal.visibleNode ≠ .directory := by
    rw [Disk.File.visibleNode, reachable]
    rcases logs.node with missing | ⟨content, regular⟩
    · rw [missing]
      intro directory
      cases directory
    · rw [regular]
      intro directory
      cases directory
  have read := logs.read now
  rw [unblocked_eq_self reachable] at read
  rw [Journal.records_eq now readable, read]
  rfl

theorem loggedOf_append (first second : List Run) :
    loggedOf (first ++ second) = loggedOf first ++ loggedOf second := by
  rw [loggedOf, List.filter_append, recordsOf_append]
  rfl

theorem mem_loggedOf {runs : List Run} {r : Record} (mem : r ∈ loggedOf runs) :
    r ∈ recordsOf runs :=
  ((List.filter_sublist (p := Run.logged)).filterMap Run.record).subset mem

theorem loggedOf_eq_nil {runs : List Run} (unrecorded : recordsOf runs = []) :
    loggedOf runs = [] := by
  rw [List.eq_nil_iff_forall_not_mem]
  intro r mem
  have recorded := mem_loggedOf mem
  rw [unrecorded] at recorded
  cases recorded

/-- What is known after some runs: the journal holds what they logged, and all their records are
booked. -/
structure Accounts (journal : Disk.File) (runs : List Run) : Prop where
  logs : Logs journal (loggedOf runs)
  booked : ∀ r ∈ recordsOf runs, r.IsBooked

theorem Accounts.unrecorded {journal : Disk.File} {runs more : List Run}
    (accounts : Accounts journal runs) (unrecorded : recordsOf more = []) :
    Accounts journal (runs ++ more) where
  logs := by
    rw [loggedOf_append, loggedOf_eq_nil unrecorded, List.append_nil]
    exact accounts.logs
  booked := by
    rw [recordsOf_append, unrecorded, List.append_nil]
    exact accounts.booked

/-- A run that handles a commit adds its record to the journal, or leaves the journal alone. -/
theorem Accounts.recorded {files : Files} {runs : List Run}
    (accounts : Accounts files.journal runs) {now : DateTime} {l l' : Ledger} {c : Commit}
    {run : Run} {phase : Phase} {o : Observation} {r : Record}
    (handles : Handles now files l c run phase o l' r) (booked : r.IsBooked) :
    Accounts run.files.journal (runs ++ [run]) where
  logs := by
    rw [loggedOf_append]
    rcases handles.journal with ⟨logged, appended⟩ | ⟨lost, same⟩
    · have one : loggedOf [run] = [r] := by
        rw [loggedOf, List.filter_cons_of_pos logged, List.filter_nil,
          recordsOf_singleton handles.record]
      rw [one]
      exact accounts.logs.append booked appended
    · have none : loggedOf [run] = [] := by
        rw [loggedOf, List.filter_cons_of_neg (by simp [lost]), List.filter_nil]
        rfl
      rw [none, List.append_nil, same]
      exact accounts.logs
  booked := by
    rw [recordsOf_append, recordsOf_singleton handles.record]
    exact List.forall_mem_append.mpr ⟨accounts.booked, List.forall_mem_singleton.mpr booked⟩

theorem perform_accounts {files : Files} {l : Ledger} (holds : Holds files.state l)
    {runs : List Run} (accounts : Accounts files.journal runs) {e : Event} (onUtc : e.IsOnUtc)
    (spares : e.SparesJournal) :
    Accounts (e.perform files).1.journal (runs ++ (e.perform files).2) := by
  cases e with
  | commit x repository reference =>
    rw [Event.perform]
    cases extracted : Extraction.extract x.now repository reference with
    | error fault => exact accounts.unrecorded rfl
    | ok c =>
      have read := Extraction.isExtracted extracted
      obtain ⟨phase, o, l', r, handles⟩ := ofCommit_handles holds onUtc read
      exact accounts.recorded handles
        (isBooked onUtc read holds.lasts handles.reports handles.outcome)
  | unread x fault => exact accounts.unrecorded rfl
  | lock held => exact accounts.unrecorded rfl
  | block blocked =>
    have still : Accounts { files.journal with blocked := blocked } runs :=
      ⟨accounts.logs.block blocked, accounts.booked⟩
    exact still.unrecorded rfl
  | journal f => exact spares.elim

theorem performAll_accounts {files : Files} {l : Ledger} (holds : Holds files.state l)
    {runs : List Run} (accounts : Accounts files.journal runs) {events : List Event}
    (onUtc : ∀ e ∈ events, e.IsOnUtc) (spares : ∀ e ∈ events, e.SparesJournal) :
    Accounts (performAll files events).1.journal (runs ++ (performAll files events).2) := by
  induction events generalizing files l runs with
  | nil => exact accounts.unrecorded rfl
  | cons e events ih =>
    obtain ⟨l', holds', _⟩ := perform_balances holds (onUtc e List.mem_cons_self)
    have first := perform_accounts holds accounts (onUtc e List.mem_cons_self)
      (spares e List.mem_cons_self)
    have rest := ih holds' first (fun e mem => onUtc e (List.mem_cons_of_mem _ mem))
      fun e mem => spares e (List.mem_cons_of_mem _ mem)
    rw [List.append_assoc] at rest
    exact rest

/-! ## Figures over the journal -/

theorem countP_greens {records : List Record} (booked : ∀ r ∈ records, r.IsBooked)
    (single : ∀ r ∈ records, r.duplicate = false) :
    records.countP (fun r => decide (r.phase = .green)) =
      records.countP (fun r => r.cycleSeconds.isSome) + records.countP Record.orphanGreen +
        records.countP fun r => decide (r.phase = .green) && decide (r.cycleStatus = .skipped) := by
  induction records with
  | nil => rfl
  | cons r records ih =>
    have rest := ih (fun s mem => booked s (List.mem_cons_of_mem _ mem))
      fun s mem => single s (List.mem_cons_of_mem _ mem)
    have one := (booked r List.mem_cons_self).greens (single r List.mem_cons_self)
    -- Each record adds as much on either side.
    have toNat : ∀ b : Bool, b.toNat = if b then 1 else 0 := by
      intro b
      cases b <;> rfl
    simp only [toNat] at one
    simp only [List.countP_cons, rest]
    omega

/-- The figures over records of runs: every green commit closed a cycle, had none to close, or was
passed over. -/
theorem figures_of_booked {log : List Record} (booked : ∀ r ∈ log, r.IsBooked) :
    ∃ s, Statistics.ofRecords? log = some s ∧
      s.phaseCounts.lookup .green = some (s.closedCycles + s.orphanGreens +
        log.countP fun r => decide (r.phase = .green) && decide (r.cycleStatus = .skipped)) := by
  obtain ⟨s, made, phases, closed, orphans⟩ :=
    Statistics.ofRecords?_eq_some fun r mem => (booked r mem).seconds
  refine ⟨s, made, ?_⟩
  -- A commit that was passed over is no duplicate, so none of them is filtered out.
  have skipped : (log.countP fun r =>
      decide (r.phase = .green) && decide (r.cycleStatus = .skipped)) =
        (log.filter fun r => !r.duplicate).countP fun r =>
          decide (r.phase = .green) && decide (r.cycleStatus = .skipped) := by
    rw [List.countP_filter]
    refine List.countP_congr fun r mem => ?_
    have passed := (booked r mem).skipped
    simp only [Bool.and_eq_true, decide_eq_true_eq, Bool.not_eq_true']
    exact ⟨fun both => ⟨both, passed both.2⟩, fun both => both.1⟩
  have greens := countP_greens
    (fun r (mem : r ∈ log.filter fun r => !r.duplicate) => booked r (List.mem_filter.mp mem).1)
    fun r mem => by simpa using (List.mem_filter.mp mem).2
  rw [phases, closed, orphans, skipped, ← greens]
  rfl

theorem loggedOf_eq_recordsOf {runs : List Run}
    (all : ∀ run ∈ runs, run.record.isSome = true → run.logged = true) :
    loggedOf runs = recordsOf runs := by
  induction runs with
  | nil => rfl
  | cons run runs ih =>
    have rest := ih fun other mem => all other (List.mem_cons_of_mem _ mem)
    have split : run :: runs = [run] ++ runs := rfl
    rw [split, loggedOf_append, recordsOf_append, rest]
    congr 1
    cases logged : run.logged with
    | true => rw [loggedOf, List.filter_cons_of_pos logged, List.filter_nil]
    | false =>
      have none : run.record = none := by
        cases made : run.record with
        | none => rfl
        | some r =>
          have contrary := all run List.mem_cons_self (by rw [made]; rfl)
          rw [logged] at contrary
          cases contrary
      rw [loggedOf, List.filter_cons_of_neg (by simp [logged]), List.filter_nil, recordsOf,
        recordsOf, List.filterMap_cons_none none]

/-! ## Conservation -/

/-- From a missing state file, over any runs and faults, the records of every branch account for
its cycles; and when only runs write to a journal that was missing, too, it can be read, holds what
they logged, and its figures account for all green commits. -/
theorem cycles_conserved {files after : Files} {events : List Event} {runs : List Run}
    (missing : files.state.node = .missing) (reachable : files.state.blocked = false)
    (onUtc : ∀ e ∈ events, e.IsOnUtc) (performed : performAll files events = (after, runs)) :
    (∀ branch later, ∃ s, Cycle.get later after.state branch = .ok s ∧
      Record.countOn branch (fun r => decide (r.phase = .red) && r.isTaken) (recordsOf runs) =
        Record.countOn branch (fun r => r.cycleSeconds.isSome) (recordsOf runs) +
          Record.countOn branch Record.abandonedCycle (recordsOf runs) +
          (s.any State.isOpen).toNat ∧
      Record.countOn branch (fun r => decide (r.phase = .green) && r.isTaken) (recordsOf runs) =
        Record.countOn branch (fun r => r.cycleSeconds.isSome) (recordsOf runs) +
          Record.countOn branch Record.orphanGreen (recordsOf runs)) ∧
    (files.journal.node = .missing → (∀ e ∈ events, e.SparesJournal) →
      after.journal.blocked = false → ∀ later, ∃ log s,
        Journal.records later after.journal = .ok log ∧
        log = (loggedOf runs).filter (fun r => decide r.HasShortIntegers) ∧
        ((∀ run ∈ runs, run.record.isSome = true → run.logged = true) →
          loggedOf runs = recordsOf runs) ∧
        Statistics.ofRecords? log = some s ∧
        s.phaseCounts.lookup .green = some (s.closedCycles + s.orphanGreens +
          log.countP fun r => decide (r.phase = .green) && decide (r.cycleStatus = .skipped))) := by
  have holds := holds_missing reachable missing
  refine ⟨fun branch later => ?_, fun absent spares free later => ?_⟩
  · obtain ⟨l, holds', balances⟩ := performAll_balances holds onUtc
    rw [performed] at holds' balances
    have balance := balances branch
    refine ⟨l.state? branch, get_eq_state? holds' later branch, ?_, balance.greens⟩
    have open' : ((l.state? branch).any State.isOpen).toNat = openCount l branch := by
      rw [Ledger.state?, openCount]
      cases l.opened branch <;> rfl
    rw [open']
    exact balance.reds
  -- The journal is followed beside the state file, from nothing on.
  · have start : Accounts files.journal [] :=
      ⟨logs_missing absent, fun _ mem => absurd mem List.not_mem_nil⟩
    have accounts := performAll_accounts holds start onUtc spares
    rw [performed, List.nil_append] at accounts
    have booked : ∀ r ∈ (loggedOf runs).filter fun r => decide r.HasShortIntegers, r.IsBooked :=
      fun r mem => accounts.booked r (mem_loggedOf (List.mem_filter.mp mem).1)
    obtain ⟨s, made, greens⟩ := figures_of_booked booked
    exact ⟨_, s, accounts.logs.records free later, rfl, loggedOf_eq_recordsOf, made, greens⟩

def sampleSurroundings : Surroundings where
  settings :=
    { appName := "tdd-cycle-metrics"
      version := "1.0.0"
      storage := ⟨.ofText "log", .ofText "state", .ofText "circuit", .ofText "publish", true, 200⟩
      locking := ⟨.zero, .zero⟩
      backend := ⟨none, none, none, "tdd-cycle"⟩
      delivery := ⟨false, 1, .zero, .zero, .zero, 5, .zero⟩
      notices := ⟨true, true⟩
      monitoring := ⟨"INFO"⟩ }
  now := .minute 9
  child := .ofSearchPath [] none
  start := .running
  classifierFault := none

def sampleCommit (hash message : Text) (n : Nat) : Event :=
  .commit sampleSurroundings
    { detached := false
      branch := some (.value (.str "main"))
      workingTree := none
      commit := .ok
        { hash := .ok (.value (.str hash))
          message := some (.value (.str message))
          author := none
          authored := some (.minute n)
          statistics := none } } "HEAD"

/-- Two red commits, a green one that finds the lock taken, and one that comes twice. -/
def sampleEvents : List Event :=
  [sampleCommit "a" "test: sorts" 0, sampleCommit "b" "test: sorts twice" 1, .lock true,
   sampleCommit "c" "feat: sorts" 2, .lock false, sampleCommit "d" "feat: sorts twice" 3,
   sampleCommit "d" "feat: sorts twice" 3]

def sampleFiles : Files := ⟨.fresh "state" "state.json", .fresh "logs" "cycles.jsonl"⟩

theorem cycles_conserved_sample : ∃ after runs,
    performAll sampleFiles sampleEvents = (after, runs) ∧
    Record.countOn "main" (fun r => decide (r.phase = .red) && r.isTaken) (recordsOf runs) = 2 ∧
    Record.countOn "main" (fun r => r.cycleSeconds.isSome) (recordsOf runs) = 1 ∧
    Record.countOn "main" Record.abandonedCycle (recordsOf runs) = 1 ∧
    (∃ s, Cycle.get (.minute 10) after.state "main" = .ok s ∧ (s.any State.isOpen).toNat = 0) ∧
    ∃ log s, Journal.records (.minute 10) after.journal = .ok log ∧
      Statistics.ofRecords? log = some s ∧
      s.phaseCounts.lookup .green = some (s.closedCycles + s.orphanGreens +
        log.countP fun r => decide (r.phase = .green) && decide (r.cycleStatus = .skipped)) := by
  have onUtc : ∀ e ∈ sampleEvents, e.IsOnUtc := by
    simp only [sampleEvents, List.forall_mem_cons]
    exact ⟨rfl, rfl, trivial, rfl, trivial, rfl, rfl, fun _ mem => nomatch mem⟩
  have spares : ∀ e ∈ sampleEvents, e.SparesJournal := by
    simp only [sampleEvents, List.forall_mem_cons]
    exact ⟨trivial, trivial, trivial, trivial, trivial, trivial, trivial, fun _ mem => nomatch mem⟩
  have counts :
      Record.countOn "main" (fun r => decide (r.phase = .red) && r.isTaken)
        (recordsOf (performAll sampleFiles sampleEvents).2) = 2 ∧
      Record.countOn "main" (fun r => r.cycleSeconds.isSome)
        (recordsOf (performAll sampleFiles sampleEvents).2) = 1 ∧
      Record.countOn "main" Record.abandonedCycle
        (recordsOf (performAll sampleFiles sampleEvents).2) = 1 := by
    decide +kernel
  have free : (performAll sampleFiles sampleEvents).1.journal.blocked = false := by
    decide +kernel
  have done : ∃ after runs, performAll sampleFiles sampleEvents = (after, runs) := ⟨_, _, rfl⟩
  obtain ⟨after, runs, performed⟩ := done
  rw [performed] at counts free
  obtain ⟨reds, closed, abandoned⟩ := counts
  obtain ⟨balanced, figures⟩ := cycles_conserved rfl rfl onUtc performed
  obtain ⟨s, got, balance, _⟩ := balanced "main" (.minute 10)
  obtain ⟨log, t, read, _, _, made, greens⟩ := figures rfl spares free (.minute 10)
  refine ⟨after, runs, performed, reds, closed, abandoned, ⟨s, got, ?_⟩, log, t, read, made, greens⟩
  rw [reds, closed, abandoned] at balance
  omega

end Run

end RedGreen
