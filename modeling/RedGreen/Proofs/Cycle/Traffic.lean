import RedGreen.Proofs.Cycle.Plans

/-!
# Calls in one another's way

Hooks run side by side, so calls of the store come in one another's way.  `Traffic` takes them apart
into the steps between which another process may come in: to try the lock, to read the document, to
apply the commit in memory, to replace the file, and to let the lock go.  The lock is exclusive and
a file is replaced at once; readers ask at any time and take no lock.
-/

namespace RedGreen

namespace Cycle

/-! ## Single calls -/

/-- A call of the store. -/
structure Call where
  config : StoreConfig
  now : DateTime
  branch : Text
  phase : Phase
  time : DateTime
  hash : Option Text

namespace Call

/-- The call when no other comes in between. -/
def alone (k : Call) (f : Disk.File) : Except StoreError Observation × Disk.File :=
  record k.config k.now f k.branch k.phase k.time k.hash

/-- What a call says without trying the lock: that its commit is neither red nor green, that its
time cannot be shown in UTC, or that there is no file to lock. -/
def early? (k : Call) (f : Disk.File) : Option (Except StoreError Observation) :=
  match isRed? k.phase with
  | none => some (.ok .empty)
  | some _ =>
    match k.time.toUtc? with
    | none => some (.error (.rejected .overflow))
    | some _ =>
      if f.blocked then
        some (.error (.document (.lockFile f.lockPath (.fileExists f.directory))))
      else none

/-- What a call does to the document in memory. -/
def apply (k : Call) (document : Json.Members) : Except StoreError (Json.Members × Observation) :=
  match isRed? k.phase, k.time.toUtc? with
  | some isRed, some utc =>
    Cycle.apply k.now k.config.remembered document k.branch isRed utc k.hash
  | _, _ => .ok (document, .empty)

end Call

/-- How far a call has come. -/
inductive Progress where
  /-- The lock has not been taken. -/
  | outside
  | locked
  /-- The document was read. -/
  | informed (document : Json.Members)
  /-- The document to be written is there, in memory. -/
  | decided (document : Json.Members) (observation : Observation)
  /-- Nothing is left but to let the lock go. -/
  | closing (answer : Except StoreError Observation)
  | finished (answer : Except StoreError Observation)

def Progress.isFinished : Progress → Bool
  | .finished _ => true
  | _ => false

/-- What is asked without the lock. -/
inductive Question where
  | get (now : DateTime) (branch : Text)
  | pending (now : DateTime)

inductive Reply where
  | state (answer : Except StoreError (Option State))
  | states (answer : Except StoreError (List State))

def Question.ask (f : Disk.File) : Question → Reply
  | .get now branch => .state (Cycle.get now f branch)
  | .pending now => .states (Cycle.pending now f)

/-! ## Calls under way -/

/-- One step of a call, or a question. -/
inductive Turn (Caller : Type) where
  /-- The lock is tried, once. -/
  | attempt (caller : Caller)
  /-- The lock is tried for the last time, in vain. -/
  | giveUp (caller : Caller)
  | read (caller : Caller)
  | apply (caller : Caller)
  | replace (caller : Caller)
  | release (caller : Caller)
  | ask (question : Question)

/-- Calls under way, with the order in which they got the lock and with what was replied to
questions so far. -/
structure Traffic (Caller : Type) where
  file : Disk.File
  holder : Option Caller
  order : List Caller
  progress : Caller → Progress
  replies : List (Question × Reply)

namespace Traffic

variable {Caller : Type} [DecidableEq Caller]

/-- No call has begun, and nobody holds the lock. -/
def start (f : Disk.File) : Traffic Caller :=
  { file := { f with held := false }
    holder := none
    order := []
    progress := fun _ => .outside
    replies := [] }

def advance (s : Traffic Caller) (caller : Caller) (p : Progress) : Traffic Caller :=
  { s with progress := Function.update s.progress caller p }

theorem advance_self (s : Traffic Caller) (caller : Caller) (p : Progress) :
    (s.advance caller p).progress caller = p := Function.update_self ..

theorem advance_of_ne (s : Traffic Caller) {caller other : Caller} (differs : other ≠ caller)
    (p : Progress) : (s.advance caller p).progress other = s.progress other :=
  Function.update_of_ne differs ..

/-- One turn, when it is the turn of its caller to do this. -/
def turn (calls : Caller → Call) (s : Traffic Caller) : Turn Caller → Option (Traffic Caller)
  | .attempt caller =>
    match s.progress caller with
    | .outside =>
      match (calls caller).early? s.file with
      | some answer => some (s.advance caller (.finished answer))
      | none =>
        match s.holder with
        | some _ => some s
        | none =>
          some { s.advance caller .locked with
            holder := some caller
            order := s.order ++ [caller] }
    | _ => none
  | .giveUp caller =>
    match s.progress caller, (calls caller).early? s.file, s.holder with
    | .outside, none, some _ => some (s.advance caller (.finished (.ok .passedOver)))
    | _, _, _ => none
  | .read caller =>
    match s.progress caller with
    | .locked =>
      match Document.read s.file with
      | .error fault => some (s.advance caller (.closing (.error (.document fault))))
      | .ok document => some (s.advance caller (.informed document))
    | _ => none
  | .apply caller =>
    match s.progress caller with
    | .informed document =>
      match (calls caller).apply document with
      | .error e => some (s.advance caller (.closing (.error e)))
      | .ok (document', observation) =>
        if observation.duplicate then some (s.advance caller (.closing (.ok observation)))
        else some (s.advance caller (.decided document' observation))
    | _ => none
  | .replace caller =>
    match s.progress caller with
    | .decided document observation =>
      match Document.write s.file (.obj document) with
      | .error fault => some (s.advance caller (.closing (.error (.document fault))))
      | .ok g => some { s.advance caller (.closing (.ok observation)) with file := g }
    | _ => none
  | .release caller =>
    match s.progress caller with
    | .closing answer => some { s.advance caller (.finished answer) with holder := none }
    | _ => none
  | .ask question => some { s with replies := s.replies ++ [(question, question.ask s.file)] }

def run (calls : Caller → Call) (s : Traffic Caller) : List (Turn Caller) → Option (Traffic Caller)
  | [] => some s
  | t :: ts =>
    match s.turn calls t with
    | none => none
    | some s' => s'.run calls ts

end Traffic

/-- The file after some calls, one after another. -/
def serial {Caller : Type} (calls : Caller → Call) (f : Disk.File) : List Caller → Disk.File
  | [] => f
  | caller :: more => serial calls ((calls caller).alone f).2 more

end Cycle

end RedGreen
