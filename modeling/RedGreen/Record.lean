import RedGreen.Commit
import RedGreen.Cycle.State
import RedGreen.Json.Reader
import RedGreen.Json.Printer
import RedGreen.Text.Utf8

/-!
# Journal records

One record is one line of the journal: a JSON object whose members come in a fixed order, with
absent values left out.
-/

namespace RedGreen

/-- Whether the cycle of a record's branch was looked at. -/
inductive CycleStatus where
  | ok
  | skipped
  deriving DecidableEq

namespace CycleStatus

def name : CycleStatus → Text
  | .ok => "ok"
  | .skipped => "skipped"

def check (v : Json) : Checked CycleStatus :=
  (Field.text v).andThen fun t =>
    if ¬ t.IsScalar then .reject .stringUnicode
    else if t = CycleStatus.ok.name then .accept .ok
    else if t = CycleStatus.skipped.name then .accept .skipped
    else .reject .patternMismatch

end CycleStatus

structure Record where
  schemaVersion : Int
  loggedAt : DateTime
  commitHash : Text
  branch : Text
  repository : Text
  author : Text
  message : Text
  phase : Phase
  filesChanged : Nat
  linesAdded : Nat
  linesRemoved : Nat
  occurredAt : DateTime
  cycleSeconds : Option Binary64
  cycleStartedAt : Option DateTime
  abandonedCycle : Bool
  orphanGreen : Bool
  duplicate : Bool
  cycleStatus : CycleStatus
  deriving DecidableEq

/-- Why a line is no record. -/
inductive LineError where
  | json (e : Json.ReadError)
  | rejected (r : Rejection)
  deriving DecidableEq

/-- Why a commit cannot be recorded. -/
inductive RecordError where
  | unclassified
  | rejected (r : Rejection)
  deriving DecidableEq

namespace RecordError

def message : RecordError → Text
  | .unclassified => "Cannot log an unclassified commit event"
  | .rejected r => r.headline "LogRecord"

end RecordError

namespace Record

def currentVersion : Int := 1

def modelName : Text := "LogRecord"

/-- A record from a document; it counts as logged now when the document does not say. -/
def check (now : DateTime) (document : Json.Members) : Checked Record :=
  mk <$> Field.optional "schema_version" currentVersion Field.int document
    <*> Field.optional "logged_at" now Field.dateTime document
    <*> Field.required "commit_hash" Field.text document
    <*> Field.required "branch" Field.text document
    <*> Field.optional "repository" unknownName Field.text document
    <*> Field.optional "author" unknownName Field.text document
    <*> Field.optional "message" [] Field.text document
    <*> Field.required "phase" Phase.check document
    <*> Field.optional "files_changed" 0 Field.count document
    <*> Field.optional "lines_added" 0 Field.count document
    <*> Field.optional "lines_removed" 0 Field.count document
    <*> Field.required "occurred_at" Field.dateTime document
    <*> Field.optional "cycle_duration_seconds" none (Field.orNull Field.numberFromZero) document
    <*> Field.optional "cycle_started_at" none (Field.orNull Field.dateTime) document
    <*> Field.optional "abandoned_cycle" false Field.bool document
    <*> Field.optional "orphan_green" false Field.bool document
    <*> Field.optional "duplicate" false Field.bool document
    <*> Field.optional "cycle_state" .ok CycleStatus.check document

/-- The duration that a record reports: that of the commit, unless it is absent or zero, or
else that of the observation. -/
def durationOf (c : Commit) (o : Cycle.Observation) : Option Duration :=
  match c.cycleDuration with
  | some d => if d.micros = 0 then o.duration else some d
  | none => o.duration

/-- A classified commit together with what it did to its cycle. -/
def ofCommit (now : DateTime) (c : Commit) (o : Cycle.Observation) : Except RecordError Record :=
  match c.phase with
  | none => .error .unclassified
  | some phase =>
    let seconds := (durationOf c o).map Duration.toSeconds
    let record : Record :=
      { schemaVersion := currentVersion
        loggedAt := now
        commitHash := c.hash
        branch := c.branch
        repository := c.repository
        author := c.author
        message := c.subject
        phase := phase
        filesChanged := c.filesChanged
        linesAdded := c.linesAdded
        linesRemoved := c.linesRemoved
        occurredAt := c.occurredAt
        cycleSeconds := seconds
        cycleStartedAt := o.cycleStartedAt
        abandonedCycle := o.abandonedRedAt.isSome
        orphanGreen := o.orphan
        duplicate := o.duplicate
        cycleStatus := if o.skipped then .skipped else .ok }
    match seconds with
    | some x =>
      if Binary64.le .zero x then .ok record
      else .error (.rejected (.issues [⟨.belowLeast 0, [.name "cycle_duration_seconds"]⟩]))
    | none => .ok record

/-- The duration of the closed cycle; the inner `none` is one that cannot be represented. -/
def cycleDuration (r : Record) : Option (Option Duration) := r.cycleSeconds.map Duration.ofSeconds?

/-- A member that is left out when there is no value. -/
def optionalMember (name : Text) : Option Json → List (Text × Json)
  | some v => [(name, v)]
  | none => []

def leadingMembers (r : Record) : Json.Members :=
  [("schema_version", .int r.schemaVersion),
   ("logged_at", .str r.loggedAt.stamp),
   ("commit_hash", .str r.commitHash),
   ("branch", .str r.branch),
   ("repository", .str r.repository),
   ("author", .str r.author),
   ("message", .str r.message),
   ("phase", .str r.phase.name),
   ("files_changed", .int r.filesChanged),
   ("lines_added", .int r.linesAdded),
   ("lines_removed", .int r.linesRemoved),
   ("occurred_at", .str r.occurredAt.stamp)]

/-- The members behind the optional ones. -/
def trailingMembers (r : Record) : Json.Members :=
  [("abandoned_cycle", .bool r.abandonedCycle),
   ("orphan_green", .bool r.orphanGreen),
   ("duplicate", .bool r.duplicate),
   ("cycle_state", .str r.cycleStatus.name)]

def toMembers (r : Record) : Json.Members :=
  r.leadingMembers ++
  optionalMember "cycle_duration_seconds" (r.cycleSeconds.map .float) ++
  optionalMember "cycle_started_at" (r.cycleStartedAt.map fun t => .str t.stamp) ++
  r.trailingMembers

def toJson (r : Record) : Json := .obj r.toMembers

/-- The texts of a record, in the order of its members. -/
def texts (r : Record) : List Text :=
  [r.commitHash, r.branch, r.repository, r.author, r.message]

/-- The record as a line, which fails when a text holds half a surrogate pair. -/
def toLine (r : Record) : Except EncodeError Text :=
  match r.texts.findSome? (Text.surrogateRun? 0) with
  | some e => .error e
  | none => .ok (Json.compact .line r.toJson)

def lineErrorMessage (e : EncodeError) : Text :=
  ("Error serializing to JSON: UnicodeEncodeError: " : Text) ++ e.message

def ofJson (now : DateTime) (v : Json) : Checked Record :=
  (Field.model modelName v).andThen (check now)

def ofLine (now : DateTime) (line : Text) : Except LineError Record :=
  match Json.read line with
  | .error e => .error (.json e)
  | .ok v =>
    match ofJson now v with
    | .ok r => .ok r
    | .error e => .error (.rejected e)

end Record

end RedGreen
