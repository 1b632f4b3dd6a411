import RedGreen.Ingestion.TraceId
import RedGreen.Record

/-!
# Batches of traces

A batch is the document that the observability backend takes in: a list of events and some
metadata.  A record becomes one event that creates a trace.
-/

namespace RedGreen

namespace Ingestion

inductive EventKind where
  | traceCreate
  | eventCreate
  deriving DecidableEq

namespace EventKind

def all : List EventKind := [.traceCreate, .eventCreate]

def name : EventKind → Text
  | .traceCreate => "trace-create"
  | .eventCreate => "event-create"

def ofName? (t : Text) : Option EventKind := all.find? fun k => k.name = t

def check : Json → Checked EventKind
  | .str t =>
    match ofName? t with
    | some k => .accept k
    | none => .reject (.noneOf (all.map name))
  | _ => .reject (.noneOf (all.map name))

end EventKind

structure Event where
  id : Text
  timestamp : DateTime
  kind : EventKind
  body : Json.Members

structure Batch where
  events : List Event
  metadata : Json.Members

/-- Ids for events, in the order in which they are asked for. -/
abbrev IdSource := Nat → Text

/-- Where traces come from, and what they are called. -/
structure TraceSource where
  traceName : Text
  source : Text
  deriving DecidableEq

/-! ## Reading -/

/-- An event whose id is still open when its document gives none. -/
structure Draft where
  id : Option Text
  timestamp : DateTime
  kind : EventKind
  body : Json.Members

namespace Draft

def check (now : DateTime) (document : Json.Members) : Checked Draft :=
  mk <$> Field.optional "id" none (fun v => (Field.text v).map some) document
    <*> Field.optional "timestamp" now Field.dateTime document
    <*> Field.required "type" EventKind.check document
    <*> Field.required "body" Field.members document

def ofJson (now : DateTime) (v : Json) : Checked Draft :=
  (Field.model "IngestionEvent" v).andThen (check now)

/-- Events without an id take the next one of the source; `used` of them are gone. -/
def complete (ids : IdSource) (used : Nat) : List Draft → List Event
  | [] => []
  | d :: ds =>
    match d.id with
    | some id => ⟨id, d.timestamp, d.kind, d.body⟩ :: complete ids used ds
    | none => ⟨ids (used + 1), d.timestamp, d.kind, d.body⟩ :: complete ids (used + 1) ds

end Draft

/-- Why a text is no batch. -/
inductive ReadError where
  | json (e : Json.ReadError)
  | rejected (r : Rejection)
  deriving DecidableEq

/-- Why a batch cannot be written. -/
inductive WriteError where
  | tooDeep
  /-- The name of a member holds half a surrogate pair. -/
  | name (e : EncodeError)
  /-- A text holds half a surrogate pair. -/
  | text (e : EncodeError)
  deriving DecidableEq

namespace WriteError

def message : WriteError → Text
  | .tooDeep => "Circular reference detected (depth exceeded)"
  | .name e => e.message
  | .text e => Record.lineErrorMessage e

end WriteError

namespace Batch

def modelName : Text := "IngestionBatch"

def check (now : DateTime) (ids : IdSource) (document : Json.Members) : Checked Batch :=
  (fun drafts metadata => ⟨Draft.complete ids 0 drafts, metadata⟩)
    <$> Field.optional "batch" [] (Field.list (Draft.ofJson now)) document
    <*> Field.optional "metadata" [] Field.members document

def ofJson (now : DateTime) (ids : IdSource) (v : Json) : Checked Batch :=
  (Field.model modelName v).andThen (check now ids)

def read (now : DateTime) (ids : IdSource) (t : Text) : Except ReadError Batch :=
  match Json.read t with
  | .error e => .error (.json e)
  | .ok v =>
    match ofJson now ids v with
    | .ok b => .ok b
    | .error e => .error (.rejected e)

end Batch

/-! ## Writing -/

namespace Event

def toJson (e : Event) : Json :=
  .obj [("id", .str e.id), ("timestamp", .str e.timestamp.stamp), ("type", .str e.kind.name),
        ("body", .obj e.body)]

end Event

mutual

/-- How many values lie inside one another. -/
def depth : Json → Nat
  | .arr items => 1 + depthOfItems items
  | .obj members => 1 + depthOfMembers members
  | _ => 1

def depthOfItems : List Json → Nat
  | [] => 0
  | v :: vs => max (depth v) (depthOfItems vs)

def depthOfMembers : List (Text × Json) → Nat
  | [] => 0
  | (_, v) :: ms => max (depth v) (depthOfMembers ms)

end

mutual

/-- The names of members and the texts in a value, in the order of writing; names are marked. -/
def texts : Json → List (Bool × Text)
  | .str t => [(false, t)]
  | .arr items => textsOfItems items
  | .obj members => textsOfMembers members
  | _ => []

def textsOfItems : List Json → List (Bool × Text)
  | [] => []
  | v :: vs => texts v ++ textsOfItems vs

def textsOfMembers : List (Text × Json) → List (Bool × Text)
  | [] => []
  | (k, v) :: ms => (true, k) :: texts v ++ textsOfMembers ms

end

mutual

/-- Numbers that are not finite have no JSON notation and become `null`. -/
def finiteOnly : Json → Json
  | .float x => if x.isFinite then .float x else .null
  | .arr items => .arr (finiteItems items)
  | .obj members => .obj (finiteMembers members)
  | v => v

def finiteItems : List Json → List Json
  | [] => []
  | v :: vs => finiteOnly v :: finiteItems vs

def finiteMembers : List (Text × Json) → List (Text × Json)
  | [] => []
  | (k, v) :: ms => (k, finiteOnly v) :: finiteMembers ms

end

namespace Batch

/-- Values in bodies and metadata lie in one another at most this deep. -/
def depthLimit : Nat := 255

def toJson (b : Batch) : Json :=
  .obj [("batch", .arr (b.events.map Event.toJson)), ("metadata", .obj b.metadata)]

/-- The free parts of a batch: the bodies of its events, and its metadata. -/
def documents (b : Batch) : List Json.Members := b.events.map Event.body ++ [b.metadata]

def payload (b : Batch) : Except WriteError Json :=
  if b.documents.any fun d => depthLimit < depthOfMembers d then .error .tooDeep
  else
    let names := (texts b.toJson).filterMap fun p => if p.1 then some p.2 else none
    match names.findSome? (Text.surrogateRun? 0) with
    | some e => .error (.name e)
    | none => .ok (finiteOnly b.toJson)

def write (b : Batch) : Except WriteError Text := do
  let document ← b.payload
  match (texts document).findSome? fun p => Text.surrogateRun? 0 p.2 with
  | some e => .error (.text e)
  | none => .ok (Json.compact .line document)

end Batch

/-! ## Traces of records -/

namespace TraceSource

/-- What is used when nothing else is set. -/
def standard : TraceSource := ⟨"tdd-cycle", "post-commit"⟩

def metadataOf (s : TraceSource) (r : Record) : Json.Members :=
  let always : Json.Members :=
    [("commit_hash", .str r.commitHash),
     ("branch", .str r.branch),
     ("repository", .str r.repository),
     ("phase", .str r.phase.name),
     ("files_changed", .int r.filesChanged),
     ("lines_added", .int r.linesAdded),
     ("lines_removed", .int r.linesRemoved),
     ("occurred_at", .str r.occurredAt.iso),
     ("abandoned_cycle", .bool r.abandonedCycle),
     ("orphan_green", .bool r.orphanGreen),
     ("duplicate", .bool r.duplicate),
     ("cycle_state", .str r.cycleStatus.name),
     ("schema_version", .int r.schemaVersion),
     ("source", .str s.source)]
  always ++
  Record.optionalMember "cycle_duration_seconds" (r.cycleSeconds.map .float) ++
  Record.optionalMember "cycle_started_at" (r.cycleStartedAt.map fun t => .str t.iso)

/-- The phase and the branch of a record, and whether it closed a cycle. -/
def tagsOf (r : Record) : List Text :=
  let closed : List Text := if r.cycleSeconds.isSome then ["cycle:closed"] else []
  (("phase:" : Text) ++ r.phase.name) :: (("branch:" : Text) ++ r.branch) :: closed

def bodyOf (s : TraceSource) (r : Record) : Except EncodeError Json.Members :=
  (TraceId.ofHash r.commitHash).map fun id =>
    [("id", .str id),
     ("name", .str s.traceName),
     ("timestamp", .str r.occurredAt.iso),
     ("userId", .str r.author),
     ("sessionId", .str (r.repository ++ (":" : Text) ++ r.branch)),
     ("input", .str r.message),
     ("output", .str r.phase.name),
     ("metadata", .obj (s.metadataOf r)),
     ("tags", .arr ((tagsOf r).map .str))]

def event (s : TraceSource) (now : DateTime) (id : Text) (r : Record) : Except EncodeError Event :=
  (s.bodyOf r).map fun body => ⟨id, now, .traceCreate, body⟩

/-- The traces of records, with ids from the source after the first `used`. -/
def eventsFrom (s : TraceSource) (now : DateTime) (ids : IdSource) (used : Nat) :
    List Record → Except EncodeError (List Event)
  | [] => .ok []
  | r :: rs => do
    let e ← s.event now (ids (used + 1)) r
    let es ← eventsFrom s now ids (used + 1) rs
    return e :: es

def batch (s : TraceSource) (now : DateTime) (ids : IdSource) (records : List Record) :
    Except EncodeError Batch :=
  (s.eventsFrom now ids 0 records).map fun events => ⟨events, [("source", .str s.source)]⟩

end TraceSource

end Ingestion

end RedGreen
