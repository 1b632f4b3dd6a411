import RedGreen.Delivery.Publish

/-!
# Handing a record over

The hook does not wait for the backend: it starts a child process that delivers the record, and
writes the record to it as one line.  Whatever goes wrong, the hook goes on.
-/

namespace RedGreen

namespace Delivery

inductive Start where
  | running
  /-- The process cannot be started. -/
  | refused
  /-- The process is started, but takes nothing in. -/
  | deaf
  /-- A failure of another kind, which is passed on. -/
  | crashed (message : Text)
  deriving DecidableEq

/-- A child process: its arguments, the directories where its modules are looked for, and
whether it is cut off from the session and the files of its parent. -/
structure Child where
  arguments : List Text
  searchPath : Text
  newSession : Bool
  closesFiles : Bool
  deriving DecidableEq

namespace Child

def ofSearchPath (root : Text) (inherited : Option Text) : Child where
  arguments := ["-m", "services.commit_tracker.publisher"]
  searchPath := Text.join ":" ([root, inherited.getD []].filter fun p => !p.isEmpty)
  newSession := true
  closesFiles := true

end Child

structure Handover where
  child : Option Child
  written : Option Text
  deriving DecidableEq

namespace Handover

def nothing : Handover := ⟨none, none⟩

def started (h : Handover) : Bool := h.written.isSome

end Handover

/-- The failure of another kind, if there is one, and what was handed over. -/
def handOver (s : Settings) (child : Child) (start : Start) (r : Record) :
    Except Text Handover :=
  if !s.delivers then .ok .nothing
  else
    match start with
    | .refused => .ok .nothing
    | .crashed message => .error message
    | .deaf => .ok ⟨some child, none⟩
    | .running =>
      match r.toLine with
      | .ok line => .ok ⟨some child, some (line ++ [CodePoint.ofChar '\n'])⟩
      | .error _ => .ok ⟨some child, none⟩

/-! ## The child process -/

/-- What the child process does with its input, as seen from outside. -/
structure Reception where
  requests : List Request
  delays : List Binary64
  notes : List Note
  circuit : Disk.File

def crashNote (message : Text) : Note :=
  ⟨.error, ("Remote publisher crashed: " : Text) ++ message⟩

def lineFailureText : LineError → Text
  | .json e => e.message
  | .rejected r => r.headline Record.modelName

/-- A note that cannot be encoded is lost. -/
def keepWritable (notes : List Note) : List Note := notes.filter fun n => decide n.message.IsScalar

/-- Delivers the record that the input holds.  Every failure ends in the notes. -/
def receive (s : Settings) (now : DateTime) (id : Text) (clock : Binary64) (circuit : Disk.File)
    (exchange : Nat → Exchange) (input : Bytes) : Reception :=
  let idle (note : Note) : Reception := ⟨[], [], keepWritable [note], circuit⟩
  match Utf8.decode input with
  | .error e => idle (crashNote e.message)
  | .ok t =>
    let line := t.trim
    if line.isEmpty then idle ⟨.warning, "No record received on stdin"⟩
    else
      match Record.ofLine now line with
      | .error e => idle (crashNote (lineFailureText e))
      | .ok r =>
        let run := publish s now id clock circuit exchange r
        let crash := match run.result with
          | .ok _ => []
          | .error failure => [crashNote failure.message]
        ⟨run.requests, run.delays, keepWritable (run.notes ++ crash), run.circuit⟩

end Delivery

end RedGreen
