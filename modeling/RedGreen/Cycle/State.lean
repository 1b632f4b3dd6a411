import RedGreen.Phase

/-!
# Open cycles and observations

A branch has an open cycle from a red commit to the next green one.  `Cycle.State` is what is
kept about a branch; `Cycle.Observation` is what one commit did to its branch.
-/

namespace RedGreen

namespace Cycle

structure State where
  branch : Text
  pendingRedAt : Option DateTime
  pendingRedHash : Option Text
  updatedAt : DateTime

namespace State

def isOpen (s : State) : Bool := s.pendingRedAt.isSome

/-- A state from a document; it counts as updated now when the document does not say. -/
def check (now : DateTime) (document : Json.Members) : Checked State :=
  mk <$> Field.required "branch" Field.nonEmptyText document
    <*> Field.optional "pending_red_at" none (Field.orNull Field.utc) document
    <*> Field.optional "pending_red_hash" none (Field.orNull Field.text) document
    <*> Field.optional "updated_at" now Field.utc document

def modelName : Text := "CycleState"

def ofJson (now : DateTime) (v : Json) : Checked State :=
  (Field.model modelName v).andThen (check now)

def toJson (s : State) : Json :=
  .obj
    [("branch", .str s.branch),
     ("pending_red_at", Json.ofText? (s.pendingRedAt.map DateTime.stamp)),
     ("pending_red_hash", Json.ofText? s.pendingRedHash),
     ("updated_at", .str s.updatedAt.stamp)]

end State

/-- What one commit did to the cycle of its branch. -/
structure Observation where
  duration : Option Duration
  cycleStartedAt : Option DateTime
  abandonedRedAt : Option DateTime
  orphan : Bool
  duplicate : Bool
  skipped : Bool
  deriving DecidableEq

namespace Observation

/-- Nothing happened to the cycle. -/
def empty : Observation := ⟨none, none, none, false, false, false⟩

/-- The cycle could not be looked at. -/
def passedOver : Observation := { empty with skipped := true }

def check (document : Json.Members) : Checked Observation :=
  mk <$> Field.optional "duration" none (Field.orNull Field.duration) document
    <*> Field.optional "cycle_started_at" none (Field.orNull Field.dateTime) document
    <*> Field.optional "abandoned_red_at" none (Field.orNull Field.dateTime) document
    <*> Field.optional "orphan" false Field.bool document
    <*> Field.optional "duplicate" false Field.bool document
    <*> Field.optional "skipped" false Field.bool document

end Observation

end Cycle

end RedGreen
