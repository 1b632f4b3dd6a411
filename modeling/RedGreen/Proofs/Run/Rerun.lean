import RedGreen.Proofs.Run.Conservation
import RedGreen.Proofs.Settings.Accepted

/-!
# Running again on the same commit

A red or green commit that a run took into account is known from then on, so that further runs on
it leave the state alone and add duplicates, which no figure counts.  Commits of other phases are
never remembered: every run on them is one more commit in the figures.
-/

namespace RedGreen

/-- What a commit does when it comes again: a red or green one is a duplicate, and any other does
what it did the first time, which is nothing. -/
def Cycle.Observation.repeated (phase : Phase) : Cycle.Observation :=
  if (Cycle.isRed? phase).isSome then { Cycle.Observation.empty with duplicate := true } else .empty

/-- A record of a run that came again. -/
structure Record.Repeats (c : Commit) (phase : Phase) (r : Record) : Prop where
  describes : r.Describes c
  reports : ∃ now again, r.Reports now again phase (.repeated phase)

namespace Run

open RedGreen.Cycle

/-! ## The first run -/

/-- A red or green commit is known after a run that did not pass it over. -/
theorem updateCycle_settled {state : Disk.File} {l : Ledger} (holds : Holds state l)
    {x : Surroundings} (clock : x.now.IsUtc) (accepted : x.settings.storage.IsAccepted) {c : Commit}
    (extracted : c.IsExtracted) {phase : Phase} (paired : (isRed? phase).isSome = true)
    (unskipped : (updateCycle x state c phase).1.skipped = false) :
    ∃ l', Holds (updateCycle x state c phase).2.2 l' ∧
      (updateCycle x state c phase).2.2.held = false ∧ l'.knows (some c.hash) = true := by
  have shown := extracted.occurredAt.toUtc?
  cases held : state.held with
  | true =>
    rw [updateCycle, record_of_held holds held paired shown] at unskipped
    cases unskipped
  | false =>
    cases known : l.knows (some c.hash) with
    | true =>
      rw [updateCycle, record_of_known holds held paired shown known]
      exact ⟨l, holds, held, known⟩
    | false =>
      by_cases named : phase = .red → c.branch.IsScalar ∧ c.branch ≠ []
      · have spelled : ∀ t ∈ some c.hash, t.Joinless := by
          rintro t ⟨⟩
          exact extracted.hash.joinless
        obtain ⟨g, recorded, holds', same⟩ := record_eq_visit holds (storeConfig x.settings) clock
          (Option.isSome_of_eq_some shown) named spelled
        rw [updateCycle, recorded]
        obtain ⟨isRed, kind⟩ := Option.isSome_iff_exists.mp paired
        refine ⟨_, holds', same.trans held, ?_⟩
        rw [Ledger.visit, kind, shown, held, known]
        exact Ledger.knows_take accepted.rememberedHashes l _ _ _ _ extracted.named
      · -- A red commit on a branch that no document can name is passed over.
        obtain ⟨rfl, unnamed⟩ := Classical.not_imp.mp named
        obtain ⟨e, failed⟩ := record_of_unnamed holds held unnamed (storeConfig x.settings) x.now
          shown known
        rw [updateCycle, failed] at unskipped
        cases unskipped

/-- A state in which a commit that comes again changes nothing. -/
def Settled (state : Disk.File) (c : Commit) (phase : Phase) : Prop :=
  ∃ l, Holds state l ∧
    ((isRed? phase).isSome = true → state.held = false ∧ l.knows (some c.hash) = true)

/-! ## One more run -/

section

variable {x : Surroundings} {c : Commit} {phase : Phase} {repository : Repository}
  {reference : Text}

theorem updateCycle_of_settled {state : Disk.File} (settled : Settled state c phase)
    {again : Commit} (hash : again.hash = c.hash) (utc : again.occurredAt.IsUtc) :
    updateCycle x state again phase = (.repeated phase, [], state) := by
  obtain ⟨l, holds, known⟩ := settled
  rw [updateCycle, Observation.repeated]
  cases kind : isRed? phase with
  | none =>
    rw [Cycle.record, kind]
    rfl
  | some isRed =>
    have paired := Option.isSome_of_eq_some kind
    obtain ⟨free, knows⟩ := known paired
    rw [← hash] at knows
    rw [record_of_known holds free paired utc.toUtc? knows]
    rfl

theorem describes_shift {t : DateTime} {r : Record}
    (describes : r.Describes { c with occurredAt := t }) : r.Describes c :=
  ⟨describes.texts, describes.integers⟩

/-- A run that comes again leaves the state alone, and its record is added to the journal where the
journal takes the texts of the commit. -/
theorem perform_of_settled {files : Files} (settled : Settled files.state c phase)
    (extracted : c.IsExtracted) (classified : (classify x.classifierFault c).1 = phase)
    (reread : ∃ t, t.IsUtc ∧
      Extraction.extract x.now repository reference = .ok { c with occurredAt := t }) :
    ∃ run, Run.perform x files (Extraction.extract x.now repository reference) = run ∧
      run.files.state = files.state ∧ (∃ r, run.record = some r ∧ r.Repeats c phase) ∧
      (files.journal.IsWritable → run.files.journal.IsWritable ∧
        ((∀ t ∈ [c.hash, c.branch, c.repository, c.author, c.subject], t.IsScalar) →
          run.logged = true)) := by
  obtain ⟨t, utc, reread⟩ := reread
  have closes : (Observation.repeated phase).duration = none := by
    rw [Observation.repeated]
    split <;> rfl
  have spans : ∀ d ∈ (Observation.repeated phase).duration, d.Spans 39 := by
    intro d mem
    rw [closes] at mem
    cases mem
  obtain ⟨r, leaves⟩ := ofCommit_leaves x files (extracted.shift utc) classified
    (updateCycle_of_settled settled rfl utc) spans
  rw [reread]
  refine ⟨_, rfl, leaves.state, ⟨r, leaves.record, describes_shift leaves.describes, _, _,
    leaves.reports⟩, fun writable => ?_⟩
  have journal := leaves.journal
  rcases journal with ⟨logged, appended⟩ | ⟨_, same, e, failed⟩
  · obtain ⟨_, _, extended⟩ := Journal.append_eq_ok_iff.mp appended
    have still : (ofCommit x files { c with occurredAt := t }).files.journal.IsWritable := by
      rw [extended]
      exact ⟨writable.1, .inr ⟨_, rfl⟩⟩
    exact ⟨still, fun _ => logged⟩
  · have still : (ofCommit x files { c with occurredAt := t }).files.journal.IsWritable := by
      rw [same]
      exact writable
    refine ⟨still, fun scalar => ?_⟩
    -- Texts that can be encoded are not refused.
    have unicode : r.IsUnicode := by
      rw [Record.IsUnicode, leaves.describes.texts]
      exact scalar
    rw [Journal.append_eq_ok_iff.mpr ⟨unicode, writable, rfl⟩] at failed
    cases failed

/-! ## Any number of runs -/

/-- The surroundings of a run that comes again: another time, but the same classifier. -/
def IsLater (x y : Surroundings) : Prop := y.now.IsUtc ∧ y.classifierFault = x.classifierFault

theorem performAll_of_settled {files : Files} (settled : Settled files.state c phase)
    (extracted : c.IsExtracted) (classified : (classify x.classifierFault c).1 = phase)
    (reread : ∀ later : DateTime, later.IsUtc → ∃ t, t.IsUtc ∧
      Extraction.extract later repository reference = .ok { c with occurredAt := t })
    (writable : files.journal.IsWritable) {again : List Surroundings}
    (later : ∀ y ∈ again, IsLater x y) :
    ∃ last reruns, performAll files (again.map fun y => .commit y repository reference) =
        (last, reruns) ∧
      last.state = files.state ∧ last.journal.IsWritable ∧ reruns.length = again.length ∧
      ∀ run ∈ reruns, (∃ r, run.record = some r ∧ r.Repeats c phase) ∧
        ((∀ t ∈ [c.hash, c.branch, c.repository, c.author, c.subject], t.IsScalar) →
          run.logged = true) := by
  induction again generalizing files with
  | nil => exact ⟨files, [], rfl, rfl, writable, rfl, fun _ mem => nomatch mem⟩
  | cons y again ih =>
    obtain ⟨clock, classifier⟩ := later y List.mem_cons_self
    obtain ⟨run, ran, state, made, logs⟩ := perform_of_settled (x := y) settled extracted
      (classifier ▸ classified) (reread y.now clock)
    obtain ⟨still, logged⟩ := logs writable
    -- The state is what it was, so the next run comes again as well.
    obtain ⟨last, reruns, performed, same, kept, length, each⟩ := ih
      (state.symm ▸ settled : Settled run.files.state c phase) still
      fun z mem => later z (List.mem_cons_of_mem _ mem)
    refine ⟨last, run :: reruns, ?_, same.trans state, kept, congrArg (· + 1) length,
      List.forall_mem_cons.mpr ⟨⟨made, logged⟩, each⟩⟩
    rw [List.map_cons, performAll, Event.perform, ran]
    dsimp only
    rw [performed]
    rfl

end

/-! ## Figures -/

theorem figures_of_repeats {c : Commit} {phase : Phase} {log more : List Record} {s : Statistics}
    (made : Statistics.ofRecords? log = some s) (repeats : ∀ r ∈ more, r.Repeats c phase) :
    Statistics.ofRecords? (log ++ more) =
      some (if phase = .red ∨ phase = .green then s else s.withIdle phase more.length) := by
  by_cases paired : phase = .red ∨ phase = .green
  · have kind : (isRed? phase).isSome = true := by
      rcases paired with rfl | rfl <;> rfl
    have duplicates : ∀ r ∈ more, r.duplicate = true := by
      intro r mem
      obtain ⟨now, again, reports⟩ := (repeats r mem).reports
      rw [reports.duplicate, Observation.repeated, if_pos kind]
    rw [if_pos paired, Statistics.ofRecords?_append_duplicates log duplicates, made]
  · have kind : ¬(isRed? phase).isSome = true := by
      intro some
      cases phase <;> simp_all [isRed?]
    have idle : ∀ r ∈ more, Statistics.IsIdle phase r := by
      intro r mem
      obtain ⟨now, again, reports⟩ := (repeats r mem).reports
      rw [Observation.repeated, if_neg kind] at reports
      exact ⟨reports.phase, reports.duplicate, reports.cycleSeconds, reports.abandonedCycle,
        reports.orphanGreen, reports.cycleStatus⟩
    rw [if_neg paired, Statistics.ofRecords?_append_idle made idle]

theorem mem_recordsOf {runs : List Run} {r : Record} (mem : r ∈ recordsOf runs) :
    ∃ run ∈ runs, run.record = some r :=
  List.mem_filterMap.mp mem

theorem length_recordsOf {runs : List Run} (made : ∀ run ∈ runs, ∃ r, run.record = some r) :
    (recordsOf runs).length = runs.length := by
  induction runs with
  | nil => rfl
  | cons run runs ih =>
    obtain ⟨r, record⟩ := made run List.mem_cons_self
    have rest := ih fun other mem => made other (List.mem_cons_of_mem _ mem)
    rw [recordsOf] at rest
    rw [recordsOf, List.filterMap_cons_some record, List.length_cons, rest, List.length_cons]

theorem Record.Describes.hasShortIntegers {c : Commit} {r r' : Record} (one : r.Describes c)
    (other : r'.Describes c) (short : r.HasShortIntegers) : r'.HasShortIntegers := by
  rw [Record.HasShortIntegers, other.integers, ← one.integers]
  exact short

/-- Where the first record is read back from the journal, so are those of all further runs. -/
theorem length_readable {c : Commit} {phase : Phase} {journal journal' : Disk.File} {r : Record}
    {reruns : List Run} (describes : r.Describes c)
    (appended : Journal.append journal r = .ok journal') (short : r.HasShortIntegers)
    (each : ∀ run ∈ reruns, (∃ r, run.record = some r ∧ r.Repeats c phase) ∧
      ((∀ t ∈ [c.hash, c.branch, c.repository, c.author, c.subject], t.IsScalar) →
        run.logged = true)) :
    ((loggedOf reruns).filter fun r => decide r.HasShortIntegers).length = reruns.length := by
  have scalar : ∀ t ∈ [c.hash, c.branch, c.repository, c.author, c.subject], t.IsScalar :=
    describes.texts ▸ (Journal.append_eq_ok_iff.mp appended).1
  have logged : loggedOf reruns = recordsOf reruns :=
    loggedOf_eq_recordsOf fun run mem _ => (each run mem).2 scalar
  have all : ∀ r' ∈ recordsOf reruns, decide r'.HasShortIntegers = true := by
    intro r' mem
    obtain ⟨run, among, record⟩ := mem_recordsOf mem
    obtain ⟨_, same, repeats⟩ := (each run among).1
    cases record.symm.trans same
    exact decide_eq_true (Record.Describes.hasShortIntegers describes repeats.describes short)
  rw [logged, List.filter_eq_self.mpr all]
  exact length_recordsOf fun run mem => (each run mem).1.imp fun _ => And.left

/-- The blocking of the journal is not for a run to change. -/
theorem Leaves.reachable {now : DateTime} {journal : Disk.File} {c : Commit} {run : Run}
    {phase : Phase} {o : Observation} {state : Disk.File} {r : Record}
    (leaves : Leaves now journal c run phase o state r) (free : journal.blocked = false) :
    run.files.journal.blocked = false := by
  rcases leaves.journal with ⟨_, appended⟩ | ⟨_, same, _⟩
  · obtain ⟨_, _, extended⟩ := Journal.append_eq_ok_iff.mp appended
    rw [extended]
    exact free
  · rw [same]
    exact free

/-- A run that has not passed its commit over has read one, and leaves it settled. -/
theorem perform_settles {files : Files} {l : Ledger} (holds : Holds files.state l)
    {x : Surroundings} (clock : x.now.IsUtc) (accepted : x.settings.storage.IsAccepted)
    {repository : Repository} {reference : Text} {first : Run} {o : Observation}
    (ran : Run.perform x files (Extraction.extract x.now repository reference) = first)
    (observed : first.observation = some o) (unskipped : o.skipped = false) :
    ∃ c phase state r l', Extraction.extract x.now repository reference = .ok c ∧
      (classify x.classifierFault c).1 = phase ∧
      Leaves x.now files.journal c first phase o state r ∧
      Holds first.files.state l' ∧ Settled first.files.state c phase := by
  cases read : Extraction.extract x.now repository reference with
  | error e =>
    rw [read] at ran
    subst ran
    cases observed
  | ok c =>
    have extracted := Extraction.isExtracted read
    rw [read] at ran
    change ofCommit x files c = first at ran
    obtain ⟨phase, classified⟩ : ∃ phase, (classify x.classifierFault c).1 = phase := ⟨_, rfl⟩
    obtain ⟨l', outcome, holds'⟩ := updateCycle_outcome holds clock extracted phase
    obtain ⟨r, leaves⟩ := ofCommit_leaves x files extracted classified rfl outcome.spans
    rw [ran] at leaves
    cases observed.symm.trans leaves.observation
    refine ⟨c, phase, _, r, l', rfl, classified, leaves, leaves.state ▸ holds', ?_⟩
    rw [leaves.state]
    -- Only red and green commits are remembered.
    by_cases paired : (isRed? phase).isSome = true
    · obtain ⟨l', holds', known⟩ :=
        updateCycle_settled holds clock accepted extracted paired unskipped
      exact ⟨l', holds', fun _ => known⟩
    · exact ⟨l', holds', fun some => absurd some paired⟩

/-- After any history, the run on a commit that was not passed over may be repeated any number of
times.  The state file stays as it is, and each time a record is added that can be read wherever the
first one can.  The figures stay the same for a red or green commit; any other commit counts once
more in its phase each time, and nowhere else. -/
theorem rerun_figures {files mid last : Files} {before : List Event} {earlier reruns : List Run}
    {first : Run} {x : Surroundings} {repository : Repository} {reference : Text}
    {again : List Surroundings} {o : Observation}
    (missing : files.state.node = .missing) (reachable : files.state.blocked = false)
    (absent : files.journal.node = .missing) (onUtc : ∀ e ∈ before, e.IsOnUtc)
    (spares : ∀ e ∈ before, e.SparesJournal) (history : performAll files before = (mid, earlier))
    (free : mid.journal.blocked = false) (clock : x.now.IsUtc)
    (accepted : x.settings.storage.IsAccepted)
    (ran : Run.perform x mid (Extraction.extract x.now repository reference) = first)
    (observed : first.observation = some o) (unskipped : o.skipped = false)
    (later : ∀ y ∈ again, IsLater x y)
    (repeated : performAll first.files (again.map fun y => .commit y repository reference) =
      (last, reruns)) :
    last.state = first.files.state ∧
      ∃ phase, first.commit.bind Commit.phase = some phase ∧ ∀ now, ∃ log more s,
        Journal.records now first.files.journal = .ok log ∧
        Journal.records now last.journal = .ok (log ++ more) ∧
        (first.logged = true → (∀ r ∈ first.record, r.HasShortIntegers) →
          more.length = again.length) ∧
        Statistics.ofRecords? log = some s ∧
        Statistics.ofRecords? (log ++ more) =
          some (if phase = .red ∨ phase = .green then s else s.withIdle phase more.length) := by
  -- The history leaves a state that holds a ledger and a journal that only runs wrote to.
  have start := holds_missing reachable missing
  obtain ⟨l, holds, _⟩ := performAll_balances start onUtc
  have empty : Accounts files.journal [] :=
    ⟨logs_missing absent, fun _ mem => absurd mem List.not_mem_nil⟩
  have accounts := performAll_accounts start empty onUtc spares
  rw [history] at holds accounts
  -- So do the first run, and all further runs.
  obtain ⟨c, phase, state, r, l', read, classified, leaves, holds', settled⟩ :=
    perform_settles holds clock accepted ran observed unskipped
  obtain ⟨extracted, reread⟩ := Extraction.extract_eq_ok read
  have accounts := perform_accounts holds accounts (e := .commit x repository reference) clock
    trivial
  rw [Event.perform, ran, List.nil_append] at accounts
  have reachable' := leaves.reachable free
  obtain ⟨last', reruns', performed, same, writable, length, each⟩ :=
    performAll_of_settled settled extracted classified reread ⟨reachable', accounts.logs.node⟩ later
  rw [repeated] at performed
  cases performed
  have onUtc' : ∀ e ∈ again.map fun y => Event.commit y repository reference, e.IsOnUtc :=
    List.forall_mem_map.mpr fun y mem => (later y mem).1
  have accounts' := performAll_accounts holds' accounts onUtc'
    (List.forall_mem_map.mpr fun _ _ => trivial)
  rw [repeated] at accounts'
  refine ⟨same, phase, leaves.commit, fun now => ?_⟩
  -- What the journal holds in the end is what it held after the first run, and more.
  have logged := accounts.logs.records reachable' now
  have logged' := accounts'.logs.records writable.1 now
  rw [loggedOf_append, List.filter_append] at logged'
  have repeats : ∀ r' ∈ (loggedOf reruns).filter fun r => decide r.HasShortIntegers,
      r'.Repeats c phase := by
    intro r' mem
    obtain ⟨run, among, record⟩ := mem_recordsOf (mem_loggedOf (List.mem_filter.mp mem).1)
    obtain ⟨_, made, repeats⟩ := (each run among).1
    cases record.symm.trans made
    exact repeats
  obtain ⟨s, made, _⟩ := figures_of_booked fun r mem =>
    accounts.booked r (mem_loggedOf (List.mem_filter.mp mem).1)
  refine ⟨_, _, s, logged, logged', fun written short => ?_, made, figures_of_repeats made repeats⟩
  rcases leaves.journal with ⟨_, appended⟩ | ⟨lost, _⟩
  · rw [length_readable leaves.describes appended (short r leaves.record) each, length]
  · rw [written] at lost
    cases lost

def sampleRepository (hash message : Text) (n : Nat) : Repository where
  detached := false
  branch := some (.value (.str "main"))
  workingTree := none
  commit := .ok
    { hash := .ok (.value (.str hash))
      message := some (.value (.str message))
      author := none
      authored := some (.minute n)
      statistics := none }

/-- A green commit that closes a cycle and is run again twice: two duplicates, and the same
figures. -/
theorem rerun_figures_sample :
    ∃ first last reruns, Run.perform sampleSurroundings
        (performAll sampleFiles [sampleCommit "a" "test: sorts" 0]).1
        (Extraction.extract (.minute 9) (sampleRepository "b" "feat: sorts" 5) "HEAD") = first ∧
      performAll first.files ([sampleSurroundings, sampleSurroundings].map fun y =>
        .commit y (sampleRepository "b" "feat: sorts" 5) "HEAD") = (last, reruns) ∧
      last.state = first.files.state ∧
      ∃ log more s, Journal.records (.minute 10) first.files.journal = .ok log ∧
        Journal.records (.minute 10) last.journal = .ok (log ++ more) ∧ more.length = 2 ∧
        Statistics.ofRecords? log = some s ∧ Statistics.ofRecords? (log ++ more) = some s := by
  obtain ⟨mid, earlier, history⟩ : ∃ mid earlier,
    performAll sampleFiles [sampleCommit "a" "test: sorts" 0] = (mid, earlier) := ⟨_, _, rfl⟩
  obtain ⟨first, ran⟩ : ∃ first, Run.perform sampleSurroundings
    (performAll sampleFiles [sampleCommit "a" "test: sorts" 0]).1
    (Extraction.extract (.minute 9) (sampleRepository "b" "feat: sorts" 5) "HEAD") = first :=
      ⟨_, rfl⟩
  obtain ⟨last, reruns, repeated⟩ : ∃ last reruns, performAll first.files
    ([sampleSurroundings, sampleSurroundings].map fun y =>
      .commit y (sampleRepository "b" "feat: sorts" 5) "HEAD") = (last, reruns) := ⟨_, _, rfl⟩
  have onUtc : ∀ e ∈ [sampleCommit "a" "test: sorts" 0], e.IsOnUtc :=
    List.forall_mem_singleton.mpr rfl
  have spares : ∀ e ∈ [sampleCommit "a" "test: sorts" 0], e.SparesJournal :=
    List.forall_mem_singleton.mpr trivial
  have free : mid.journal.blocked = false := by
    have evaluated : (performAll sampleFiles [sampleCommit "a" "test: sorts" 0]).1.journal.blocked =
      false := by decide +kernel
    rwa [history] at evaluated
  have seen : first.observation = some { Observation.empty with
      duration := some ⟨300000000, by decide, by decide⟩
      cycleStartedAt := some (.minute 0) } ∧ first.logged = true ∧
      (∀ r ∈ first.record, r.HasShortIntegers) ∧
      first.commit.bind Commit.phase = some .green := by
    rw [← ran]
    decide +kernel
  obtain ⟨observed, logged, short, green⟩ := seen
  have later : ∀ y ∈ [sampleSurroundings, sampleSurroundings], IsLater sampleSurroundings y := by
    simp only [List.forall_mem_cons]
    exact ⟨⟨rfl, rfl⟩, ⟨rfl, rfl⟩, fun _ mem => nomatch mem⟩
  refine ⟨first, last, reruns, ran, repeated, ?_⟩
  rw [history] at ran
  obtain ⟨state, phase, phased, figures⟩ := rerun_figures (x := sampleSurroundings) rfl rfl rfl
    onUtc spares history free rfl ⟨by decide⟩ ran observed rfl later repeated
  cases green.symm.trans phased
  obtain ⟨log, more, s, read, read', length, made, made'⟩ := figures (.minute 10)
  exact ⟨state, log, more, s, read, read', length logged short, made, made'⟩

def figuresAfter (events : List Event) : Option Statistics :=
  match Journal.records (.minute 10) (performAll sampleFiles events).1.journal with
  | .ok log => Statistics.ofRecords? log
  | .error _ => none

/-- A commit that is neither red nor green is not remembered: run again, it is counted again. -/
theorem rerun_of_other_phase_counts :
    ∃ docs : Event,
      (performAll sampleFiles [docs]).2.map Run.observation = [some .empty] ∧
      figuresAfter [docs, docs] ≠ figuresAfter [docs] ∧
      (figuresAfter [docs]).map Statistics.totalCommits = some 1 ∧
      (figuresAfter [docs, docs]).map Statistics.totalCommits = some 2 :=
  ⟨.commit sampleSurroundings (sampleRepository "a" "docs: explains" 0) "HEAD",
    by decide +kernel, by decide +kernel, by decide +kernel, by decide +kernel⟩

end Run

end RedGreen
