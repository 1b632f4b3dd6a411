import RedGreen.Classification
import RedGreen.Console.Markup
import RedGreen.Cycle.Store
import RedGreen.Delivery.Handover
import RedGreen.Extraction
import RedGreen.Journal

/-!
# Runs

A run takes one commit into account: it reads the commit, classifies it, updates the cycle of its
branch, adds a record to the journal and hands the record over for delivery.  A commit that
cannot be read ends the run.  Everything behind that is done as well as possible: what goes wrong
becomes a warning, and the run goes on.
-/

namespace RedGreen

/-- A stage of a run that may leave a warning. -/
inductive Stage where
  | extract
  | classify
  | cycleUpdate
  | log
  deriving DecidableEq

namespace Stage

def name : Stage → Text
  | .extract => "extract"
  | .classify => "classify"
  | .cycleUpdate => "cycle_update"
  | .log => "log"

end Stage

structure Warning where
  stage : Stage
  message : Text
  deriving DecidableEq

namespace Warning

def markup (w : Warning) : Text :=
  ("[yellow]⚠️  tdd-metrics (" : Text) ++ w.stage.name ++ ("): " : Text) ++
    Markup.escape w.message ++ ("[/yellow]" : Text)

end Warning

structure Files where
  state : Disk.File
  journal : Disk.File

/-- What a run depends on besides the commit and the files. -/
structure Surroundings where
  settings : Settings
  now : DateTime
  child : Delivery.Child
  start : Delivery.Start
  /-- Why messages cannot be classified, if they cannot. -/
  classifierFault : Option Text

/-- What a run has done. -/
structure Run where
  commit : Option Commit
  observation : Option Cycle.Observation
  record : Option Record
  logged : Bool
  handover : Delivery.Handover
  warnings : List Warning
  /-- What the run prints, in markup. -/
  printed : List Text
  files : Files

namespace Run

/-! ## Stages -/

/-- The phase of a commit; without a classifier every commit is of the last phase. -/
def classify (fault : Option Text) (c : Commit) : Phase × List Warning :=
  match fault with
  | none => (Classification.classify c.message (some c.changedPaths), [])
  | some reason => (.other, [⟨.classify, ("classification failed: " : Text) ++ reason⟩])

def storeConfig (s : Settings) : Cycle.StoreConfig :=
  ⟨s.locking.timeout, s.storage.rememberedHashes⟩

/-- What a commit does to the cycle of its branch.  It is passed over when the state cannot be
updated. -/
def updateCycle (x : Surroundings) (state : Disk.File) (c : Commit) (phase : Phase) :
    Cycle.Observation × List Warning × Disk.File :=
  match Cycle.record (storeConfig x.settings) x.now state c.branch phase c.occurredAt
      (some c.hash) with
  | (.ok observation, state) => (observation, [], state)
  | (.error e, state) =>
    (.passedOver, [⟨.cycleUpdate, ("cycle state unavailable: " : Text) ++ e.message⟩], state)

/-- The commit with the duration of the cycle that it closes. -/
def withDuration (c : Commit) (o : Cycle.Observation) : Commit :=
  match o.duration with
  | some duration => { c with cycleDuration := some duration }
  | none => c

def lossWarning (reason : Text) : Warning :=
  ⟨.log, ("metric for this commit lost: " : Text) ++ reason⟩

/-- Adds the record of a commit to the journal: the record, what went wrong, and the journal. -/
def log (now : DateTime) (journal : Disk.File) (c : Commit) (o : Cycle.Observation) :
    Option Record × List Warning × Disk.File :=
  match Record.ofCommit now c o with
  | .error e => (none, [lossWarning e.message], journal)
  | .ok record =>
    match Journal.append journal record with
    | .error e => (some record, [lossWarning e.message], journal)
    | .ok journal => (some record, [], journal)

/-- Hands a record over.  Failures are nobody's concern. -/
def dispatch (x : Surroundings) : Option Record → Delivery.Handover
  | none => .nothing
  | some record =>
    match Delivery.handOver x.settings x.child x.start record with
    | .ok handover => handover
    | .error _ => .nothing

def announcement (c : Commit) (duration : Duration) : Text :=
  ("[green]✅ TDD cycle closed on " : Text) ++ Markup.escape c.branch ++ (" in " : Text) ++
    Duration.format (some duration) ++ ("[/green]" : Text)

def announcements (s : Settings) (c : Commit) : List Text :=
  match c.cycleDuration with
  | some duration => if s.notices.announceCycles then [announcement c duration] else []
  | none => []

def shownWarnings (s : Settings) (warnings : List Warning) : List Text :=
  if s.notices.showWarnings then warnings.map Warning.markup else []

/-! ## Whole runs -/

/-- A run that ends because the commit cannot be read. -/
def unread (x : Surroundings) (files : Files) (e : ExtractionError) : Run :=
  let warnings : List Warning := [⟨.extract, ("could not read commit: " : Text) ++ e.message⟩]
  { commit := none
    observation := none
    record := none
    logged := false
    handover := .nothing
    warnings := warnings
    printed := shownWarnings x.settings warnings
    files := files }

/-- A run for a commit that was read. -/
def ofCommit (x : Surroundings) (files : Files) (c : Commit) : Run :=
  let (phase, classifyWarnings) := classify x.classifierFault c
  let (observation, cycleWarnings, state) := updateCycle x files.state c phase
  let c := withDuration { c with phase := some phase } observation
  let (record, logWarnings, journal) := log x.now files.journal c observation
  let warnings := classifyWarnings ++ cycleWarnings ++ logWarnings
  { commit := some c
    observation := some observation
    record := record
    logged := logWarnings.isEmpty
    handover := dispatch x record
    warnings := warnings
    printed := shownWarnings x.settings warnings ++ announcements x.settings c
    files := ⟨state, journal⟩ }

def perform (x : Surroundings) (files : Files) : Except ExtractionError Commit → Run
  | .error e => unread x files e
  | .ok c => ofCommit x files c

end Run

end RedGreen
