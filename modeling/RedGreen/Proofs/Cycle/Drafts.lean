import RedGreen.Proofs.Cycle.Plans
import RedGreen.Proofs.Run.Stages

/-!
# Whole documents

A document never stands half written in its file: it is written beside the file, as a draft, and
takes the place of the old one at once.  The disk may refuse each step of this.  A visit that fails,
or that answers without counting its commit, leaves the file as it was; every other visit leaves a
whole JSON object.
-/

namespace RedGreen

namespace Disk

/-- What a disk is asked for while a draft takes the place of a file. -/
inductive Request where
  | directory
  | draft
  | content
  | flush
  | place
  deriving DecidableEq

/-- What a disk refuses of its own accord, and what stands in a draft when filling it breaks off. -/
structure Hazards where
  refuses : Request → Option Fault
  torn : Bytes

/-- A disk that refuses nothing. -/
def Hazards.none : Hazards := ⟨fun _ => .none, []⟩

/-- A watched file and the drafts beside it, the last one first. -/
structure Folder where
  file : File
  drafts : List Bytes

namespace Folder

def addDraft (d : Folder) (content : Bytes) : Folder := { d with drafts := content :: d.drafts }

def dropDraft (d : Folder) : Folder := { d with drafts := d.drafts.tail }

theorem dropDraft_addDraft (d : Folder) (content : Bytes) :
    (d.addDraft content).dropDraft = d := rfl

/-- Why the directory of the file cannot be made, if it cannot. -/
def directoryFault? (h : Hazards) (d : Folder) : Option Fault :=
  if d.file.blocked then some (.fileExists d.file.directory) else h.refuses .directory

/-- Puts the last draft, of the given content, in the place of the file. -/
def place (h : Hazards) (d : Folder) (content : Bytes) : Except Fault Folder :=
  match h.refuses .place with
  | some fault => .error fault
  | none =>
    match d.file.replace content with
    | .error fault => .error fault
    | .ok file => .ok { d.dropDraft with file := file }

end Folder

end Disk

namespace Document

/-- Why a draft does not take the place of a file. -/
inductive DraftError where
  | refused (fault : Disk.Fault)
  /-- The writer gives up on a value that is nested too deeply. -/
  | tooDeep

/-- Replaces the document in a file by way of a draft.  A draft that the disk refuses to complete is
taken away again; the writer, when it gives up, leaves it behind. -/
def writeDraft (deepest : Nat) (h : Disk.Hazards) (d : Disk.Folder) (v : Json) :
    Except DraftError Unit × Disk.Folder :=
  match (d.directoryFault? h).or (h.refuses .draft) with
  | some fault => (.error (.refused fault), d)
  | none =>
    if deepest < Json.nesting v then (.error .tooDeep, d.addDraft h.torn)
    else
      match (h.refuses .content).or (h.refuses .flush) with
      | some fault => (.error (.refused fault), (d.addDraft h.torn).dropDraft)
      | none =>
        let filled := d.addDraft (bytesOf v)
        match filled.place h (bytesOf v) with
        | .error fault => (.error (.refused fault), filled.dropDraft)
        | .ok placed => (.ok (), placed)

end Document

namespace Cycle

/-- Why a visit in a folder fails. -/
inductive FolderError where
  | store (e : StoreError)
  | tooDeep

/-- A visit that writes by way of a draft. -/
def recordIn (deepest : Nat) (h : Disk.Hazards) (c : StoreConfig) (now : DateTime) (d : Disk.Folder)
    (branch : Text) (phase : Phase) (time : DateTime) (hash : Option Text) :
    Except FolderError Observation × Disk.Folder :=
  match plan c now d.file branch phase time hash with
  | .error e => (.error (.store e), d)
  | .ok (.leave observation) => (.ok observation, d)
  | .ok (.replace document observation) =>
    match Document.writeDraft deepest h d (.obj document) with
    | (.error (.refused fault), d') =>
      (.error (.store (.document (.unwritable d.file.path fault))), d')
    | (.error .tooDeep, d') => (.error .tooDeep, d')
    | (.ok (), d') => (.ok observation, d')

end Cycle

/-! ## Writing a draft -/

namespace Document

open Disk

/-- All that can become of a folder. -/
inductive Drafted (deepest : Nat) (h : Hazards) (d : Folder) (v : Json) :
    Except DraftError Unit × Folder → Prop where
  | refused (fault : Disk.Fault) : Drafted deepest h d v (.error (.refused fault), d)
  | tooDeep (deep : deepest < Json.nesting v) :
    Drafted deepest h d v (.error .tooDeep, d.addDraft h.torn)
  | placed : Drafted deepest h d v
      (.ok (), { d with file := { d.file with node := .regular (bytesOf v) } })

theorem drafted (deepest : Nat) (h : Hazards) (d : Folder) (v : Json) :
    Drafted deepest h d v (writeDraft deepest h d v) := by
  rw [writeDraft]
  cases (d.directoryFault? h).or (h.refuses .draft) with
  | some fault => exact .refused fault
  | none =>
  dsimp only
  split
  next deep => exact .tooDeep deep
  next =>
  cases (h.refuses .content).or (h.refuses .flush) with
  | some fault => exact .refused fault
  | none =>
  dsimp only
  cases placed : (d.addDraft (bytesOf v)).place h (bytesOf v) with
  | error fault => exact .refused fault
  | ok d' =>
    -- The draft is no longer beside the file: it stands in its place.
    unfold Folder.place at placed
    split at placed
    next => cases placed
    next =>
      split at placed
      next => cases placed
      next g replaced =>
        cases placed
        rw [Folder.dropDraft_addDraft, File.replace_eq_ok replaced]
        exact .placed

/-- On a disk that refuses nothing it only matters whether the file can be replaced. -/
theorem writeDraft_none {deepest : Nat} {d : Folder} {v : Json} (reachable : d.file.blocked = false)
    (deep : ¬deepest < Json.nesting v) :
    writeDraft deepest .none d v =
      match d.file.replace (bytesOf v) with
      | .error fault => (.error (.refused fault), d)
      | .ok file => (.ok (), { d with file := file }) := by
  have made : (d.directoryFault? .none).or (Hazards.none.refuses .draft) = none := by
    rw [Folder.directoryFault?, reachable]
    rfl
  rw [writeDraft, made]
  simp only [deep, if_false, Hazards.none, Option.or_none, Folder.place, Folder.dropDraft_addDraft]
  have same : (d.addDraft (bytesOf v)).file = d.file := rfl
  rw [same]
  cases d.file.replace (bytesOf v) <;> rfl

end Document

namespace Cycle

/-! ## Visits -/

section

variable {c : StoreConfig} {now : DateTime} {branch : Text} {phase : Phase} {time : DateTime}
  {hash : Option Text}

/-- A file holds a whole JSON object. -/
def HoldsObject (f : Disk.File) : Prop :=
  ∃ bytes t members, f.node = .regular bytes ∧ Utf8.decode bytes = .ok t ∧
    Json.read t = .ok (.obj members)

/-- A visit leaves the file as it was, unless it says that it counted a red or green commit; then
it leaves a whole object, and nothing else about the file has changed. -/
structure LeavesWhole (phase : Phase) (before after : Disk.File) (answer : Option Observation) :
    Prop where
  kept : (∀ o ∈ answer, o.duplicate = true ∨ o.skipped = true ∨ isRed? phase = none) →
    after = before
  whole : ∀ o ∈ answer, o.duplicate = false → o.skipped = false → isRed? phase ≠ none →
    HoldsObject after ∧ after = { before with node := after.node }

theorem leavesWhole_refl (f : Disk.File) {answer : Option Observation}
    (idle : ∀ o ∈ answer, o.duplicate = true ∨ o.skipped = true ∨ isRed? phase = none) :
    LeavesWhole phase f f answer where
  kept _ := rfl
  whole o mem fresh taken kind := by
    rcases idle o mem with duplicate | skipped | other
    · rw [fresh] at duplicate
      cases duplicate
    · rw [taken] at skipped
      cases skipped
    · exact absurd other kind

theorem leavesWhole_failed (f : Disk.File) : LeavesWhole phase f f none where
  kept _ := rfl
  whole o mem := absurd mem (Option.not_mem_none o)

theorem Planned.idle_of_leave {f : Disk.File} {o : Observation}
    (planned : Planned c now f branch phase time hash (.leave o)) :
    o.duplicate = true ∨ o.skipped = true ∨ isRed? phase = none := by
  cases planned with
  | idle other => exact .inr (.inr other)
  | busy => exact .inr (.inl rfl)
  | duplicate => exact .inl rfl

theorem Planned.leavesWhole {f : Disk.File} {document : Json.Members} {o : Observation}
    (planned : Planned c now f branch phase time hash (.replace document o)) :
    LeavesWhole phase f { f with node := .regular (Document.bytesOf (.obj document)) }
      (some o) where
  kept idle := by
    rcases idle o rfl with duplicate | skipped | other
    all_goals
      cases planned with
      | taken kind _ _ _ _ applied fresh => ?_
    · rw [fresh] at duplicate
      cases duplicate
    · rw [applied.skipped] at skipped
      cases skipped
    · rw [kind] at other
      cases other
  whole o _ _ _ _ := by
    obtain ⟨decoded, read⟩ := planned.read_document
    exact ⟨⟨_, _, _, rfl, decoded, read⟩, rfl⟩

theorem record_leavesWhole (c : StoreConfig) (now : DateTime) (f : Disk.File) (branch : Text)
    (phase : Phase) (time : DateTime) (hash : Option Text) :
    LeavesWhole phase f (record c now f branch phase time hash).2
      (record c now f branch phase time hash).1.toOption := by
  rw [record_eq_plan]
  cases planned : plan c now f branch phase time hash with
  | error e => exact leavesWhole_failed f
  | ok p =>
  have planned := planned_of_plan planned
  cases p with
  | leave o =>
    refine leavesWhole_refl f fun o mem => ?_
    cases mem
    exact planned.idle_of_leave
  | replace document o =>
    dsimp only
    cases written : Document.write f (.obj document) with
    | error fault => exact leavesWhole_failed f
    | ok g =>
      rw [Document.write_eq_ok written]
      exact planned.leavesWhole

/-- What a visit in a folder leaves behind: a whole file, and no draft unless the writer gave up. -/
theorem recordIn_leavesWhole (deepest : Nat) (h : Disk.Hazards) (c : StoreConfig) (now : DateTime)
    (d : Disk.Folder) (branch : Text) (phase : Phase) (time : DateTime) (hash : Option Text) :
    LeavesWhole phase d.file (recordIn deepest h c now d branch phase time hash).2.file
        (recordIn deepest h c now d branch phase time hash).1.toOption ∧
      ((∀ document o, plan c now d.file branch phase time hash = .ok (.replace document o) →
          Json.nesting (.obj document) ≤ deepest) →
        (recordIn deepest h c now d branch phase time hash).2.drafts = d.drafts) := by
  unfold recordIn
  cases planned : plan c now d.file branch phase time hash with
  | error e => exact ⟨leavesWhole_failed d.file, fun _ => rfl⟩
  | ok p =>
  have shape := planned_of_plan planned
  cases p with
  | leave o =>
    refine ⟨leavesWhole_refl d.file fun o mem => ?_, fun _ => rfl⟩
    cases mem
    exact shape.idle_of_leave
  | replace document o =>
    dsimp only
    have written := Document.drafted deepest h d (.obj document)
    generalize Document.writeDraft deepest h d (.obj document) = result at written
    cases written with
    | refused fault => exact ⟨leavesWhole_failed d.file, fun _ => rfl⟩
    | tooDeep deep =>
      refine ⟨leavesWhole_failed d.file, fun shallow => ?_⟩
      exact absurd (shallow document o rfl) (Nat.not_le.mpr deep)
    | placed => exact ⟨shape.leavesWhole, fun _ => rfl⟩

/-- On a disk that refuses nothing, and with a writer that goes deep enough, drafts make no
difference. -/
theorem recordIn_eq_record {deepest : Nat} {d : Disk.Folder}
    (shallow : ∀ document o, plan c now d.file branch phase time hash =
      .ok (.replace document o) → Json.nesting (.obj document) ≤ deepest) :
    recordIn deepest .none c now d branch phase time hash =
      ((record c now d.file branch phase time hash).1.mapError .store,
        { d with file := (record c now d.file branch phase time hash).2 }) := by
  rw [recordIn, record_eq_plan]
  cases planned : plan c now d.file branch phase time hash with
  | error e => rfl
  | ok p =>
  cases p with
  | leave o => rfl
  | replace document o =>
    have deep := Nat.not_lt.mpr (shallow document o planned)
    have reachable : d.file.blocked = false := by
      cases planned_of_plan planned with
      | taken _ _ reachable => exact reachable
    dsimp only
    rw [Document.writeDraft_none reachable deep, Document.write]
    cases d.file.replace (Document.bytesOf (.obj document)) <;> rfl

/-- A writer that goes as deep as the reader leaves no draft behind. -/
theorem drafts_recordIn {deepest : Nat} (deep : Json.depthLimit ≤ deepest) (h : Disk.Hazards)
    (c : StoreConfig) (now : DateTime) (d : Disk.Folder) (branch : Text) (phase : Phase)
    (time : DateTime) (hash : Option Text) :
    (recordIn deepest h c now d branch phase time hash).2.drafts = d.drafts := by
  refine (recordIn_leavesWhole deepest h c now d branch phase time hash).2
    fun document o planned => ?_
  exact Nat.le_trans (planned_of_plan planned).received.within.shallow deep

end

end Cycle

/-! ## Runs -/

namespace Run

open RedGreen.Cycle

/-- A cycle that was passed over leaves the state as it was. -/
theorem state_of_passedOver {x : Surroundings} {state state' : Disk.File} {c : Commit}
    {phase : Phase} {o : Observation} {warnings : List Warning}
    (updated : updateCycle x state c phase = (o, warnings, state')) (skipped : o.skipped = true) :
    state' = state := by
  have whole := record_leavesWhole (storeConfig x.settings) x.now state c.branch phase c.occurredAt
    (some c.hash)
  unfold updateCycle at updated
  split at updated
  next observation g recorded =>
    rw [recorded] at whole
    cases updated
    refine whole.kept fun o mem => ?_
    cases mem
    exact .inr (.inl skipped)
  next e g recorded =>
    rw [recorded] at whole
    cases updated
    exact whole.kept fun o mem => absurd mem (Option.not_mem_none o)

theorem cycleStatus_of_ofCommit {now : DateTime} {c : Commit} {o : Observation} {r : Record}
    (made : Record.ofCommit now c o = .ok r) :
    r.cycleStatus = if o.skipped then .skipped else .ok := by
  unfold Record.ofCommit at made
  split at made
  next => cases made
  next =>
    dsimp only at made
    split at made
    next =>
      split at made
      next =>
        cases made
        rfl
      next => cases made
    next =>
      cases made
      rfl

theorem log_record {now : DateTime} {journal : Disk.File} {c : Commit} {o : Observation}
    {r : Record} (recorded : (log now journal c o).1 = some r) :
    Record.ofCommit now c o = .ok r := by
  unfold log at recorded
  split at recorded
  next => cases recorded
  next made =>
    split at recorded
    all_goals
      cases recorded
      exact made

theorem state_of_skipped {x : Surroundings} {files : Files}
    {extracted : Except ExtractionError Commit} {r : Record}
    (recorded : (perform x files extracted).record = some r) (skipped : r.cycleStatus = .skipped) :
    (perform x files extracted).files.state = files.state := by
  cases extracted with
  | error e => cases recorded
  | ok c =>
    obtain ⟨phase, _, classified⟩ : ∃ phase warnings,
        classify x.classifierFault c = (phase, warnings) := ⟨_, _, rfl⟩
    obtain ⟨o, _, state, updated⟩ : ∃ o warnings state,
        updateCycle x files.state c phase = (o, warnings, state) := ⟨_, _, _, rfl⟩
    obtain ⟨record, _, journal, logged⟩ : ∃ record warnings journal,
        log x.now files.journal (withDuration { c with phase := some phase } o) o =
          (record, warnings, journal) := ⟨_, _, _, rfl⟩
    rw [perform, ofCommit_eq classified updated logged] at recorded ⊢
    have made := log_record (by rw [logged]; exact recorded)
    have status := cycleStatus_of_ofCommit made
    refine state_of_passedOver updated ?_
    by_contra taken
    rw [skipped, if_neg taken] at status
    cases status

end Run

namespace Cycle

/-- A visit, in a folder or of a lone file, leaves the file as it was or whole; no draft stays
unless the writer gave up on the document; a run that was passed over leaves the state as it was;
and in a folder whose disk refuses nothing a visit is the visit of the lone file. -/
theorem updates_are_whole :
    (∀ (deepest : Nat) (h : Disk.Hazards) (c : StoreConfig) (now : DateTime) (d : Disk.Folder)
      (branch : Text) (phase : Phase) (time : DateTime) (hash : Option Text),
      LeavesWhole phase d.file (recordIn deepest h c now d branch phase time hash).2.file
          (recordIn deepest h c now d branch phase time hash).1.toOption ∧
        ((∀ document o, plan c now d.file branch phase time hash = .ok (.replace document o) →
            Json.nesting (.obj document) ≤ deepest) →
          (recordIn deepest h c now d branch phase time hash).2.drafts = d.drafts)) ∧
    (∀ (c : StoreConfig) (now : DateTime) (f : Disk.File) (branch : Text) (phase : Phase)
      (time : DateTime) (hash : Option Text),
      LeavesWhole phase f (record c now f branch phase time hash).2
        (record c now f branch phase time hash).1.toOption) ∧
    (∀ (x : Surroundings) (files : Files) (extracted : Except ExtractionError Commit) (r : Record),
      (Run.perform x files extracted).record = some r → r.cycleStatus = .skipped →
        (Run.perform x files extracted).files.state = files.state) ∧
    (∀ (deepest : Nat) (c : StoreConfig) (now : DateTime) (d : Disk.Folder) (branch : Text)
      (phase : Phase) (time : DateTime) (hash : Option Text),
      (∀ document o, plan c now d.file branch phase time hash = .ok (.replace document o) →
          Json.nesting (.obj document) ≤ deepest) →
        recordIn deepest .none c now d branch phase time hash =
          ((record c now d.file branch phase time hash).1.mapError .store,
            { d with file := (record c now d.file branch phase time hash).2 })) :=
  ⟨recordIn_leavesWhole, record_leavesWhole, fun _ _ _ _ => Run.state_of_skipped,
    fun _ _ _ _ _ _ _ _ => recordIn_eq_record⟩

/-- A red commit in a new file leaves an object there, also in a folder; on a disk that refuses to
put the draft in its place, the empty object stays and the draft does not. -/
theorem updates_are_whole_sample :
    HoldsObject (record ⟨.zero, 200⟩ (.minute 1) (.fresh "state" "state.json") "main" .red
      (.minute 0) (some "a")).2 ∧
    (recordIn 985 ⟨fun r => if r = .place then some .noSpace else none, []⟩ ⟨.zero, 200⟩ (.minute 1)
      ⟨{ Disk.File.fresh "state" "state.json" with node := .regular [0x7B, 0x7D] }, []⟩ "main" .red
      (.minute 0) (some "a")).2 =
        ⟨{ Disk.File.fresh "state" "state.json" with node := .regular [0x7B, 0x7D] }, []⟩ ∧
    (recordIn 985 .none ⟨.zero, 200⟩ (.minute 1) ⟨.fresh "state" "state.json", []⟩ "main" .red
      (.minute 0) (some "a")).2.file =
        (record ⟨.zero, 200⟩ (.minute 1) (.fresh "state" "state.json") "main" .red
          (.minute 0) (some "a")).2 := by
  obtain ⟨inFolder, alone, _, same⟩ := updates_are_whole
  refine ⟨?_, ?_, ?_⟩
  · have answered : (record ⟨.zero, 200⟩ (.minute 1) (.fresh "state" "state.json") "main" .red
        (.minute 0) (some "a")).1.toOption = some .empty := by decide +kernel
    exact ((alone _ _ _ _ _ _ _).whole _ answered rfl rfl nofun).1
  · have failed : (recordIn 985 ⟨fun r => if r = .place then some .noSpace else none, []⟩
        ⟨.zero, 200⟩ (.minute 1)
        ⟨{ Disk.File.fresh "state" "state.json" with node := .regular [0x7B, 0x7D] }, []⟩ "main" .red
        (.minute 0) (some "a")).1.toOption = none := by decide +kernel
    obtain ⟨whole, drafts⟩ := inFolder 985
      ⟨fun r => if r = .place then some .noSpace else none, []⟩ ⟨.zero, 200⟩ (.minute 1)
      ⟨{ Disk.File.fresh "state" "state.json" with node := .regular [0x7B, 0x7D] }, []⟩ "main" .red
      (.minute 0) (some "a")
    have file := whole.kept fun o mem => by
      rw [failed] at mem
      exact absurd mem (Option.not_mem_none o)
    have shallow := drafts fun document o planned =>
      (planned_of_plan planned).received.within.shallow
    generalize (recordIn 985 _ _ _ _ _ _ _ _).2 = after at file shallow
    cases after
    cases file
    cases shallow
    rfl
  · rw [same 985 _ _ ⟨.fresh "state" "state.json", []⟩ _ _ _ _ fun document o planned =>
      (planned_of_plan planned).received.within.shallow]

end Cycle

end RedGreen
