import RedGreen.Document
import RedGreen.Number.Conversion

/-!
# The circuit breaker

After a number of failed deliveries in a row the circuit opens, and nothing is delivered until
the cooldown is over.  A delivery closes it.  The state lives in a document, so that it
outlives the process; a state that cannot be read never blocks a delivery.
-/

namespace RedGreen

namespace Circuit

structure Config where
  /-- The circuit opens at this many failures in a row. -/
  threshold : Int
  cooldown : Binary64

structure State where
  failures : Int
  openedUntil : Binary64
  deriving DecidableEq

namespace State

/-- No failures, and nothing blocked. -/
def closed : State := ⟨0, .zero⟩

def toJson (s : State) : Json :=
  .obj [("consecutive_failures", .int s.failures), ("opened_until", .float s.openedUntil)]

end State

/-- Why the state cannot be read. -/
inductive LoadError where
  | document (fault : Document.Fault)
  | conversion (e : ConversionError)
  deriving DecidableEq

namespace LoadError

/-- Errors that count as an unreadable state; the others are passed on. -/
def isTolerated : LoadError → Bool
  | .document .tooDeep => false
  | .document _ => true
  | .conversion .overflow => false
  | .conversion _ => true

end LoadError

def stateOf (document : Json.Members) : Except ConversionError State := do
  let failures ← ((document.get? "consecutive_failures").getD (.int 0)).toInt
  let openedUntil ← ((document.get? "opened_until").getD (.float .zero)).toFloat
  return ⟨failures, openedUntil⟩

def load (f : Disk.File) : Except LoadError State :=
  match Document.read f with
  | .error fault => .error (.document fault)
  | .ok document =>
    match stateOf document with
    | .error e => .error (.conversion e)
    | .ok s => .ok s

/-- Whether a delivery may be tried at the given clock reading. -/
def allow (clock : Binary64) (f : Disk.File) : Except LoadError Bool :=
  match load f with
  | .ok s => .ok (Binary64.le s.openedUntil clock)
  | .error e => if e.isTolerated then .ok true else .error e

def afterFailure (c : Config) (clock : Binary64) (s : State) : State :=
  let failures := s.failures + 1
  { failures := failures
    openedUntil := if c.threshold ≤ failures then clock.add c.cooldown else s.openedUntil }

/-- How long an update waits for the lock, in seconds. -/
def lockTimeout : Binary64 := .ofRatio false 1 2

/-- The count of failures when one more of them opens the circuit. -/
def opensAt (c : Config) (f : Disk.File) : Option Int :=
  match Document.acquire f lockTimeout, load f with
  | .ok (), .ok s =>
    if c.threshold ≤ s.failures + 1 ∧ Json.hasNumeral (s.failures + 1) then some (s.failures + 1)
    else none
  | _, _ => none

/-- The file with a state in place of the old one.  A state that cannot be written, because its
count has no numeral or because of the disk, is dropped. -/
def store (f : Disk.File) (s : State) : Disk.File :=
  if s.toJson.hasNumerals then
    match Document.write f s.toJson with
    | .ok f' => f'
    | .error _ => f
  else f

/-- Replaces the state by what `next` makes of it, unless the lock or the state is out of
reach. -/
def update (next : State → State) (f : Disk.File) : Except LoadError Disk.File :=
  match Document.acquire f lockTimeout with
  | .error _ => .ok f
  | .ok () =>
    match load f with
    | .error e => if e.isTolerated then .ok f else .error e
    | .ok s => .ok (store f (next s))

def recordFailure (c : Config) (clock : Binary64) (f : Disk.File) : Except LoadError Disk.File :=
  update (afterFailure c clock) f

def recordSuccess (f : Disk.File) : Except LoadError Disk.File := update (fun _ => .closed) f

end Circuit

end RedGreen
