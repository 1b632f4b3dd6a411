import RedGreen.Hook
import RedGreen.Proofs.Run.Accounts
import RedGreen.Proofs.Run.Rerun

/-!
# What stays apart

Handing a record over is the last thing that a run does, and nothing comes back from it: whatever
is known of a backend and becomes of the child process, the run does, says and writes the same.  In
the same way nothing comes back from the journal to the cycles.  Two histories that differ on the
far side only are followed station by station; what one of them finds in its files, so does the
other.
-/

namespace RedGreen

/-- Surroundings that differ in nothing but the backend, the delivery to it and what becomes of the
child process. -/
structure Surroundings.AgreesHere (x y : Surroundings) : Prop where
  storage : x.settings.storage = y.settings.storage
  locking : x.settings.locking = y.settings.locking
  notices : x.settings.notices = y.settings.notices
  now : x.now = y.now
  classifierFault : x.classifierFault = y.classifierFault

/-- The same files, as far as one looks: at the journal only where it is `journaled`. -/
structure Files.Alike (journaled : Bool) (files files' : Files) : Prop where
  state : files.state = files'.state
  journal : journaled = true → files.journal = files'.journal

namespace Run

/-- The same failures, where those of the journal count only when it is `journaled`. -/
structure Faults.Alike (journaled : Bool) (faults faults' : Faults) : Prop where
  extractor : faults.extractor = faults'.extractor
  store : faults.store = faults'.store
  journal : journaled = true → faults.journal = faults'.journal

/-- Runs that differ at most in what they handed over and, unless it is `journaled`, in what came of
the journal. -/
structure Alike (journaled : Bool) (run run' : Run) : Prop where
  commit : run.commit = run'.commit
  observation : run.observation = run'.observation
  record : run.record = run'.record
  files : run.files.Alike journaled run'.files
  logged : journaled = true → run.logged = run'.logged
  warnings : journaled = true → run.warnings = run'.warnings
  printed : journaled = true → run.printed = run'.printed

theorem Alike.refl {journaled : Bool} (run : Run) : run.Alike journaled run :=
  ⟨rfl, rfl, rfl, ⟨rfl, fun _ => rfl⟩, fun _ => rfl, fun _ => rfl, fun _ => rfl⟩

namespace Course

/-- Courses at the same station that differ no more than their runs may. -/
inductive Alike (journaled : Bool) : Course → Course → Prop where
  | start : Alike journaled .start .start
  | extract : Alike journaled .extract .extract
  | classify (c : Commit) : Alike journaled (.classify c) (.classify c)
  | cycleUpdate (c : Commit) (warnings : List Warning) :
    Alike journaled (.cycleUpdate c warnings) (.cycleUpdate c warnings)
  | log (c : Commit) (o : Cycle.Observation) (warnings : List Warning) (state : Disk.File) :
    Alike journaled (.log c o warnings state) (.log c o warnings state)
  | dispatch (c : Commit) (o : Cycle.Observation) (record : Option Record) {logged logged' : Bool}
      {warnings warnings' : List Warning} {files files' : Files}
      (alike : files.Alike journaled files') (same : journaled = true → logged = logged')
      (same' : journaled = true → warnings = warnings') :
    Alike journaled (.dispatch c o record logged warnings files)
      (.dispatch c o record logged' warnings' files')
  | done (exitCode : Int) (offered : Option Record) {run run' : Run}
      (alike : run.Alike journaled run') :
    Alike journaled (.done exitCode offered run) (.done exitCode offered run')

section

variable {journaled : Bool} {x y : Surroundings} {faults faults' : Faults} {files files' : Files}
  {r : Repository} {reference : Text}

theorem Alike.refl (k : Course) : Alike journaled k k := by
  cases k with
  | start => exact .start
  | extract => exact .extract
  | classify c => exact .classify c
  | cycleUpdate c warnings => exact .cycleUpdate c warnings
  | log c o warnings state => exact .log c o warnings state
  | dispatch c o record logged warnings files =>
    exact .dispatch c o record ⟨rfl, fun _ => rfl⟩ (fun _ => rfl) fun _ => rfl
  | done exitCode offered run => exact .done exitCode offered (.refl run)

theorem extraction_congr (agrees : x.AgreesHere y) (same : faults.extractor = faults'.extractor) :
    extraction x faults r reference = extraction y faults' r reference := by
  rw [extraction, extraction, same, agrees.now]

theorem phased_congr (agrees : x.AgreesHere y) (c : Commit) : phased x c = phased y c := by
  rw [phased, phased, agrees.classifierFault]

theorem visited_congr (agrees : x.AgreesHere y) (same : faults.store = faults'.store)
    (alike : files.Alike journaled files') (c : Commit) :
    visited x faults files c = visited y faults' files' c := by
  have config : storeConfig x.settings = storeConfig y.settings := by
    rw [storeConfig, storeConfig, agrees.locking, agrees.storage]
  simp only [visited, updateCycle, same, config, agrees.now, alike.state]

/-- The record is made before the journal is touched. -/
theorem logged_congr (agrees : x.AgreesHere y) (same : faults.Alike journaled faults')
    (alike : files.Alike journaled files') (c : Commit) (o : Cycle.Observation) :
    (logged x faults files c o).1 = (logged y faults' files' c o).1 ∧
      (journaled = true → logged x faults files c o = logged y faults' files' c o) := by
  constructor
  · have made (x : Surroundings) (faults : Faults) (files : Files) :
        (logged x faults files c o).1 = (Record.ofCommit x.now c o).toOption := by
      unfold logged Run.log
      cases faults.journal with
      | some reason => cases Record.ofCommit x.now c o <;> rfl
      | none =>
        cases Record.ofCommit x.now c o with
        | error e => rfl
        | ok record => dsimp only; cases Journal.append files.journal record <;> rfl
    rw [made, made, agrees.now]
  · intro watched
    simp only [logged, same.journal watched, alike.journal watched, agrees.now]

theorem shownWarnings_congr (agrees : x.AgreesHere y) (warnings : List Warning) :
    shownWarnings x.settings warnings = shownWarnings y.settings warnings := by
  rw [shownWarnings, shownWarnings, agrees.notices]

theorem announcements_congr (agrees : x.AgreesHere y) (c : Commit) :
    announcements x.settings c = announcements y.settings c := by
  rw [announcements, announcements, agrees.notices]

/-- One station is followed by the other course. -/
theorem Alike.step (agrees : x.AgreesHere y) (same : faults.Alike journaled faults')
    (beside : files.Alike journaled files') {k k' m : Course} (alike : Alike journaled k k')
    (stepped : Course.step x faults files r reference k = .ok m) :
    ∃ m', Course.step y faults' files' r reference k' = .ok m' ∧ Alike journaled m m' := by
  cases alike with
  | start =>
    cases stepped
    exact ⟨.extract, rfl, .extract⟩
  | extract =>
    rw [Course.step, extraction_congr agrees same.extractor] at stepped
    rw [Course.step]
    cases read : extraction y faults' r reference with
    | ok c =>
      rw [read] at stepped
      cases stepped
      exact ⟨.classify c, rfl, .classify c⟩
    | error e =>
      rw [read] at stepped
      cases stepped
      refine ⟨_, rfl, .done 0 none ?_⟩
      exact ⟨rfl, rfl, rfl, beside, fun _ => rfl, fun _ => rfl,
        fun _ => shownWarnings_congr agrees _⟩
  | classify c =>
    rw [Course.step, phased_congr agrees] at stepped
    exact ⟨m, stepped, .refl m⟩
  | cycleUpdate c warnings =>
    rw [Course.step, visited_congr agrees same.store beside] at stepped
    exact ⟨m, stepped, .refl m⟩
  | log c o warnings state =>
    have logs := logged_congr agrees same beside c o
    rw [Course.step] at stepped ⊢
    generalize logged x faults files c o = log at logs stepped
    generalize logged y faults' files' c o = log' at logs ⊢
    obtain ⟨record, more, journal⟩ := log
    obtain ⟨record', more', journal'⟩ := log'
    obtain ⟨made, whole⟩ := logs
    cases made
    cases stepped
    refine ⟨_, rfl, .dispatch c o record ⟨rfl, fun watched => ?_⟩ (fun watched => ?_)
      fun watched => ?_⟩
    all_goals
      cases whole watched
      rfl
  | dispatch c o record alike logs warns =>
    cases stepped
    refine ⟨_, rfl, .done 0 record ⟨rfl, rfl, rfl, alike, logs, warns, fun watched => ?_⟩⟩
    dsimp only
    rw [warns watched, shownWarnings_congr agrees, announcements_congr agrees]
  | done exitCode offered alike =>
    cases stepped
    exact ⟨_, rfl, .done exitCode offered alike⟩

theorem Alike.after (agrees : x.AgreesHere y) (same : faults.Alike journaled faults')
    (beside : files.Alike journaled files') (n : Nat) {k k' m : Course}
    (alike : Alike journaled k k') (reached : Course.after x faults files r reference n k = .ok m) :
    ∃ m', Course.after y faults' files' r reference n k' = .ok m' ∧ Alike journaled m m' := by
  induction n generalizing k k' with
  | zero =>
    cases reached
    exact ⟨k', rfl, alike⟩
  | succ n ih =>
    cases stepped : Course.step x faults files r reference k with
    | error e =>
      rw [Course.after, stepped] at reached
      cases reached
    | ok next =>
      rw [after_succ stepped] at reached
      obtain ⟨next', stepped', alike'⟩ := alike.step agrees same beside stepped
      rw [after_succ stepped']
      exact ih alike' reached

theorem arrives (x : Surroundings) (faults : Faults) (files : Files) (r : Repository)
    (reference : Text) : ∃ offered run,
      after x faults files r reference 6 .start = .ok (.done 0 offered run) := by
  cases read : extraction x faults r reference with
  | error e => exact ⟨_, _, after_of_unread read⟩
  | ok c =>
    obtain ⟨offered, run, _, arrives, _⟩ := after_of_read read
    exact ⟨offered, run, arrives⟩

end

end Course

/-! ## Histories -/

/-- What happens to the files: a run, which may meet failures, or anything else that becomes of the
state file, its lock or the journal. -/
inductive Happening where
  | commit (x : Surroundings) (faults : Faults) (r : Repository) (reference : Text)
  | state (change : Disk.File → Disk.File)
  | journal (change : Disk.File → Disk.File)

namespace Happening

/-- The files afterwards, and the run if there is one. -/
def occur (files : Files) : Happening → Option (Files × List Run)
  | .commit x faults r reference =>
    match Course.after x faults files r reference 6 .start with
    | .ok (.done _ _ run) => some (run.files, [run])
    | _ => none
  | .state change => some ({ files with state := change files.state }, [])
  | .journal change => some ({ files with journal := change files.journal }, [])

/-- The same happens, up to the far side and, unless it is `journaled`, up to the journal. -/
inductive Alike (journaled : Bool) : Happening → Happening → Prop where
  | commit {x y : Surroundings} {faults faults' : Faults} (agrees : x.AgreesHere y)
      (same : faults.Alike journaled faults') (r : Repository) (reference : Text) :
    Alike journaled (.commit x faults r reference) (.commit y faults' r reference)
  | state (change : Disk.File → Disk.File) : Alike journaled (.state change) (.state change)
  | journal {change change' : Disk.File → Disk.File}
      (same : journaled = true → change = change') :
    Alike journaled (.journal change) (.journal change')

end Happening

/-- The files behind a history, and its runs. -/
def follow (files : Files) : List Happening → Option (Files × List Run)
  | [] => some (files, [])
  | h :: hs => do
    let (next, runs) ← h.occur files
    let (last, more) ← follow next hs
    return (last, runs ++ more)

section

variable {journaled : Bool} {files files' : Files} {h h' : Happening} {hs hs' : List Happening}

theorem Happening.Alike.occur (alike : h.Alike journaled h')
    (beside : files.Alike journaled files') : ∃ next next' runs runs',
      h.occur files = some (next, runs) ∧ h'.occur files' = some (next', runs') ∧
      next.Alike journaled next' ∧ List.Forall₂ (Run.Alike journaled) runs runs' := by
  cases alike with
  | @commit x y faults faults' agrees same r reference =>
    obtain ⟨offered, run, reached⟩ := Course.arrives x faults files r reference
    obtain ⟨m, reached', alike⟩ := Course.Alike.start.after agrees same beside 6 reached
    cases alike with
    | @done _ _ _ run' alike =>
    refine ⟨run.files, run'.files, [run], [run'], ?_, ?_, alike.files, .cons alike .nil⟩
    · rw [Happening.occur, reached]
    · rw [Happening.occur, reached']
  | state change =>
    exact ⟨_, _, _, _, rfl, rfl, ⟨congrArg change beside.state, beside.journal⟩, .nil⟩
  | journal same =>
    refine ⟨_, _, _, _, rfl, rfl, ⟨beside.state, fun watched => ?_⟩, .nil⟩
    rw [same watched, beside.journal watched]

theorem follow_alike (alike : List.Forall₂ (Happening.Alike journaled) hs hs')
    (beside : files.Alike journaled files') : ∃ last last' runs runs',
      follow files hs = some (last, runs) ∧ follow files' hs' = some (last', runs') ∧
      last.Alike journaled last' ∧ List.Forall₂ (Run.Alike journaled) runs runs' := by
  induction alike generalizing files files' with
  | nil => exact ⟨files, files', [], [], rfl, rfl, beside, .nil⟩
  | cons one _ ih =>
    obtain ⟨next, next', runs, runs', occurs, occurs', beside, alike⟩ := one.occur beside
    obtain ⟨last, last', more, more', followed, followed', beside, alike'⟩ := ih beside
    refine ⟨last, last', runs ++ more, runs' ++ more', ?_, ?_, beside, List.rel_append alike alike'⟩
    · rw [follow, occurs]
      simp only [Option.bind_eq_bind, Option.bind_some, followed, pure]
    · rw [follow, occurs']
      simp only [Option.bind_eq_bind, Option.bind_some, followed', pure]

end

/-- Two histories of the same commits, clocks, locks and failures on this side come to the same
files by the same runs, up to what was handed over, and print the same; and those that differ in
what becomes of the journal besides come to the same state file by the same observations. -/
theorem far_side_is_apart :
    (∀ (files : Files) (hs hs' : List Happening), List.Forall₂ (Happening.Alike true) hs hs' →
      ∃ last runs runs', follow files hs = some (last, runs) ∧
        follow files hs' = some (last, runs') ∧ List.Forall₂ (Run.Alike true) runs runs' ∧
        ∀ width, runs.map (Hook.printed width) = runs'.map (Hook.printed width)) ∧
    (∀ (files files' : Files) (hs hs' : List Happening), files.state = files'.state →
      List.Forall₂ (Happening.Alike false) hs hs' →
      ∃ last last' runs runs', follow files hs = some (last, runs) ∧
        follow files' hs' = some (last', runs') ∧ List.Forall₂ (Run.Alike false) runs runs' ∧
        last.state = last'.state) := by
  constructor
  · intro files hs hs' alike
    have start : files.Alike true files := ⟨rfl, fun _ => rfl⟩
    obtain ⟨last, last', runs, runs', followed, followed', beside, same⟩ :=
      follow_alike alike start
    obtain rfl : last = last' := by
      obtain ⟨state, journal⟩ := last
      obtain ⟨rfl, journals⟩ := beside
      cases journals rfl
      rfl
    refine ⟨last, runs, runs', followed, followed', same, fun width => ?_⟩
    rw [← List.forall₂_eq_eq_eq, List.forall₂_map_left_iff, List.forall₂_map_right_iff]
    refine same.imp fun run run' alike => ?_
    rw [Hook.printed, Hook.printed, alike.printed rfl]
  · intro files files' hs hs' state alike
    have start : files.Alike false files' := ⟨state, nofun⟩
    obtain ⟨last, last', runs, runs', followed, followed', beside, same⟩ :=
      follow_alike alike start
    exact ⟨last, last', runs, runs', followed, followed', same, beside.state⟩

/-- A backend that is known and delivered to. -/
def connectedSurroundings : Surroundings where
  settings := { sampleSurroundings.settings with
    backend := ⟨some "http://localhost", some "pk", some "sk", "tdd-cycle"⟩
    delivery := ⟨true, 3, .ofNat 10, .ofNat 1, .ofNat 2, 5, .ofNat 300⟩ }
  now := sampleSurroundings.now
  child := sampleSurroundings.child
  start := sampleSurroundings.start
  classifierFault := none

/-- A red commit, a lock that is taken and let go, and a green commit. -/
def sampleHistory (x : Surroundings) (faults : Faults) : List Happening :=
  [.commit x faults (sampleRepository "a" "test: sorts" 0) "HEAD",
   .state fun f => { f with held := true },
   .state fun f => { f with held := false },
   .commit x faults (sampleRepository "b" "feat: sorts" 5) "HEAD"]

theorem sampleHistory_alike {journaled : Bool} {x y : Surroundings} {faults faults' : Faults}
    (agrees : x.AgreesHere y) (same : faults.Alike journaled faults') :
    List.Forall₂ (Happening.Alike journaled) (sampleHistory x faults) (sampleHistory y faults') :=
  .cons (.commit agrees same _ _) <| .cons (.state _) <| .cons (.state _) <|
    .cons (.commit agrees same _ _) .nil

/-- Connected or not, the files and lines are the same; and a journal that fails is all that is
lost. -/
theorem far_side_is_apart_sample :
    (∃ last runs runs',
      follow sampleFiles (sampleHistory sampleSurroundings .none) = some (last, runs) ∧
      follow sampleFiles (sampleHistory connectedSurroundings .none) = some (last, runs') ∧
      runs.map (Hook.printed 80) = runs'.map (Hook.printed 80) ∧
      runs.map (·.handover.started) = [false, false] ∧
      runs'.map (·.handover.started) = [true, true]) ∧
    ∃ last last' runs runs',
      follow sampleFiles (sampleHistory sampleSurroundings .none) = some (last, runs) ∧
      follow sampleFiles (sampleHistory sampleSurroundings ⟨none, none, some "full"⟩) =
        some (last', runs') ∧
      last.state = last'.state ∧
      runs.map Run.logged = [true, true] ∧ runs'.map Run.logged = [false, false] := by
  have agrees : sampleSurroundings.AgreesHere connectedSurroundings := ⟨rfl, rfl, rfl, rfl, rfl⟩
  -- What no comparison of the two tells: that the one hands over and the other does not.
  have apart : (follow sampleFiles (sampleHistory sampleSurroundings .none)).map
        (fun found => found.2.map (·.handover.started)) = some [false, false] ∧
      (follow sampleFiles (sampleHistory connectedSurroundings .none)).map
        (fun found => found.2.map (·.handover.started)) = some [true, true] := by
    decide +kernel
  have lost : (follow sampleFiles (sampleHistory sampleSurroundings .none)).map
        (fun found => found.2.map Run.logged) = some [true, true] ∧
      (follow sampleFiles (sampleHistory sampleSurroundings ⟨none, none, some "full"⟩)).map
        (fun found => found.2.map Run.logged) = some [false, false] := by
    decide +kernel
  constructor
  · obtain ⟨last, runs, runs', followed, followed', -, shown⟩ := far_side_is_apart.1 sampleFiles _ _
      (sampleHistory_alike agrees ⟨rfl, rfl, fun _ => rfl⟩)
    rw [followed, followed'] at apart
    exact ⟨last, runs, runs', followed, followed', shown 80, Option.some.inj apart.1,
      Option.some.inj apart.2⟩
  · have alike : Faults.Alike false .none ⟨none, none, some "full"⟩ := ⟨rfl, rfl, nofun⟩
    obtain ⟨last, last', runs, runs', followed, followed', -, same⟩ :=
      far_side_is_apart.2 sampleFiles sampleFiles _ _ rfl
        (sampleHistory_alike ⟨rfl, rfl, rfl, rfl, rfl⟩ alike)
    rw [followed, followed'] at lost
    exact ⟨last, last', runs, runs', followed, followed', same, Option.some.inj lost.1,
      Option.some.inj lost.2⟩

end Run

end RedGreen
