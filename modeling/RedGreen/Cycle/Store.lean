import RedGreen.Cycle.State
import RedGreen.Document

/-!
# The cycle store

The open cycles of all branches live in one document.  A red commit opens the cycle of its
branch or replaces the open one, a green commit closes it; other commits do nothing.  The
document also remembers the last commits that were taken into account, so that a commit counts
once.  Everything in the document that this store did not write is kept as it is.
-/

namespace RedGreen

namespace Cycle

/-- Operations of lists and objects that other values lack. -/
inductive Operation where
  | get
  | append
  deriving DecidableEq

/-- Why the store cannot answer. -/
inductive StoreError where
  | document (fault : Document.Fault)
  /-- What should be a list of hashes cannot be searched. -/
  | notSearchable (kind : Json.Kind)
  /-- What should be an object of branches cannot be listed. -/
  | notListable (kind : Json.Kind)
  /-- What should be a list or an object has not the operations of one. -/
  | lacks (kind : Json.Kind) (operation : Operation)
  | rejected (r : Rejection)
  deriving DecidableEq

namespace StoreError

def message : StoreError → Text
  | .document fault => fault.message
  | .notSearchable kind =>
    ("argument of type '" : Text) ++ kind.name ++ ("' is not iterable" : Text)
  | .notListable kind => ("'" : Text) ++ kind.name ++ ("' object is not iterable" : Text)
  | .lacks kind operation =>
    let name : Text := match operation with
      | .get => "get"
      | .append => "append"
    ("'" : Text) ++ kind.name ++ ("' object has no attribute '" : Text) ++ name ++ ("'" : Text)
  | .rejected r => r.headline State.modelName

end StoreError

structure StoreConfig where
  lockTimeout : Binary64
  remembered : Int

def documentVersion : Int := 1

/-- The last `n` of a list; when `n` is not positive, the list without its first `-n` items. -/
def keepLast (n : Int) (items : List α) : List α :=
  if 0 < n then items.drop (items.length - n.toNat) else items.drop n.natAbs

def occursIn (needle : Text) : Text → Bool
  | [] => needle.isEmpty
  | c :: t => Text.startsWith (c :: t) needle || occursIn needle t

/-- Whether a hash is among those that were taken into account. -/
def isProcessed (hash : Text) : Json → Except StoreError Bool
  | .arr items => .ok (items.any fun v => match v with | .str t => decide (t = hash) | _ => false)
  | .str t => .ok (occursIn hash t)
  | .obj members => .ok (Json.Members.get? hash members).isSome
  | v => .error (.notSearchable v.kind)

/-- The entry of a branch; one that cannot be read counts as absent. -/
def loadBranch (now : DateTime) (branches : Json.Members) (branch : Text) :
    Except StoreError (Option State) :=
  match branches.get? branch with
  | none => .ok none
  | some .null => .ok none
  | some v =>
    match State.ofJson now v with
    | .ok s => .ok (some s)
    | .error .overflow => .error (.rejected .overflow)
    | .error (.issues _) => .ok none

def branchesOf : Json → Except StoreError Json.Members
  | .obj members => .ok members
  | v => .error (.lacks v.kind .get)

def openedState (now : DateTime) (branch : Text) (at' : DateTime) (hash : Option Text) :
    Checked State :=
  (Field.nonEmptyText (.str branch)).under (.name "branch") |>.map fun branch =>
    { branch := branch, pendingRedAt := some at', pendingRedHash := hash, updatedAt := now }

def pair (now : DateTime) (branches : Json.Members) (current : Option State) (branch : Text)
    (isRed : Bool) (at' : DateTime) (hash : Option Text) :
    Except StoreError (Json.Members × Observation) :=
  let pending := current.bind State.pendingRedAt
  if isRed then
    match openedState now branch at' hash with
    | .error r => .error (.rejected r)
    | .ok s =>
      .ok (branches.put branch s.toJson, { Observation.empty with abandonedRedAt := pending })
  else
    match pending with
    | none => .ok (branches, { Observation.empty with orphan := true })
    | some started =>
      .ok (branches.erase branch,
        { Observation.empty with
          duration := some (.max (at'.since started) .zero)
          cycleStartedAt := some started })

/-- A hash that counts: one that is there and not empty. -/
def countedHash (hash : Option Text) : Option Text := hash.filter fun t => !t.isEmpty

def remember (n : Int) (hash : Option Text) (processed : Json) : Except StoreError Json :=
  match countedHash hash with
  | none => .ok processed
  | some hash =>
    match processed with
    | .arr items => .ok (.arr (keepLast n (items ++ [.str hash])))
    | v => .error (.lacks v.kind .append)

/-- Takes one red or green commit into account. -/
def apply (now : DateTime) (n : Int) (document : Json.Members) (branch : Text) (isRed : Bool)
    (at' : DateTime) (hash : Option Text) : Except StoreError (Json.Members × Observation) := do
  let document := document.put "version" (.int documentVersion)
  let processed := (document.get? "processed").getD (.arr [])
  let branches := (document.get? "branches").getD (.obj [])
  let seen ← match countedHash hash with
    | some hash => isProcessed hash processed
    | none => .ok false
  if seen then
    return (document, { Observation.empty with duplicate := true })
  let members ← branchesOf branches
  let current ← loadBranch now members branch
  let (members, observation) ← pair now members current branch isRed at' hash
  let processed ← remember n hash processed
  return ((document.put "processed" processed).put "branches" (.obj members), observation)

def isRed? : Phase → Option Bool
  | .red => some true
  | .green => some false
  | _ => none

/-- Takes a commit into account and says what it did.  A busy lock passes the commit over. -/
def record (c : StoreConfig) (now : DateTime) (f : Disk.File) (branch : Text) (phase : Phase)
    (at' : DateTime) (hash : Option Text) : Except StoreError Observation × Disk.File :=
  match isRed? phase with
  | none => (.ok .empty, f)
  | some isRed =>
    match at'.toUtc? with
    | none => (.error (.rejected .overflow), f)
    | some utc =>
      match Document.acquire f c.lockTimeout with
      | .error (.lockBusy ..) => (.ok .passedOver, f)
      | .error fault => (.error (.document fault), f)
      | .ok () =>
        match Document.read f with
        | .error fault => (.error (.document fault), f)
        | .ok document =>
          match apply now c.remembered document branch isRed utc hash with
          | .error e => (.error e, f)
          | .ok (document', observation) =>
            if observation.duplicate then (.ok observation, f)
            else match Document.write f (.obj document') with
              | .error fault => (.error (.document fault), f)
              | .ok f' => (.ok observation, f')

/-- The document, for readers that take no lock. -/
def look (f : Disk.File) : Except StoreError Json.Members :=
  match Document.read f with
  | .ok document => .ok document
  | .error fault => .error (.document fault)

def get (now : DateTime) (f : Disk.File) (branch : Text) : Except StoreError (Option State) := do
  let document ← look f
  let branches ← branchesOf ((document.get? "branches").getD (.obj []))
  loadBranch now branches branch

/-- Inserts a state behind all states that were opened no later. -/
def insertByTime (s : State) : List State → List State
  | [] => [s]
  | t :: ts =>
    if (s.pendingRedAt.map DateTime.micros).getD 0 < (t.pendingRedAt.map DateTime.micros).getD 0
    then s :: t :: ts
    else t :: insertByTime s ts

/-- The states in the order of their times, in the given order where times agree. -/
def sortByTime (states : List State) : List State :=
  states.foldl (fun sorted s => insertByTime s sorted) []

def loadAll (now : DateTime) (branches : Json.Members) :
    Json.Members → Except StoreError (List State)
  | [] => .ok []
  | (name, _) :: more => do
    let s ← loadBranch now branches name
    let rest ← loadAll now branches more
    return s.toList ++ rest

/-- All branches with an open cycle, the oldest first. -/
def pending (now : DateTime) (f : Disk.File) : Except StoreError (List State) := do
  let document ← look f
  match (document.get? "branches").getD (.obj []) with
  | .obj branches =>
    let states ← loadAll now branches branches
    return sortByTime (states.filter State.isOpen)
  | .arr [] => return []
  | .arr (_ :: _) => .error (.lacks .arr .get)
  | .str [] => return []
  | .str (_ :: _) => .error (.lacks .str .get)
  | v => .error (.notListable v.kind)

end Cycle

end RedGreen
