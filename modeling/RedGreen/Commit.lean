import RedGreen.Phase
import RedGreen.Text.Lines

/-!
# Commits

A commit as the pipeline sees it: what was read from the repository, and later its phase and
the duration of the cycle it closes.  A phase, once set, stays, and only a green commit carries
a duration.
-/

namespace RedGreen

/-- The name that stands for what is not known. -/
def unknownName : Text := "unknown"

/-- A name without blanks around it, `unknown` when nothing is left. -/
def nameOrUnknown (t : Text) : Text := if t.isBlank then unknownName else t.trim

structure Commit where
  hash : Text
  branch : Text
  message : Text
  phase : Option Phase
  filesChanged : Nat
  linesAdded : Nat
  linesRemoved : Nat
  changedPaths : List Text
  author : Text
  repository : Text
  occurredAt : DateTime
  cycleDuration : Option Duration

inductive CommitError where
  | phaseAlreadySet (phase : Phase)
  | durationOutsideGreen
  deriving DecidableEq

namespace CommitError

def message : CommitError → Text
  | .phaseAlreadySet phase => ("Phase already set to " : Text) ++ phase.name
  | .durationOutsideGreen => "Only GREEN events carry a cycle duration"

end CommitError

namespace Commit

/-- A commit from a document with optional members; the time defaults to `now`. -/
def check (now : DateTime) (document : Json.Members) : Checked Commit :=
  let name := fun v => (Field.text v).map nameOrUnknown
  mk <$> Field.required "commit_hash" Field.nonEmptyText document
    <*> Field.optional "branch" unknownName name document
    <*> Field.optional "message" [] Field.text document
    <*> Field.optional "phase" none (Field.orNull Phase.check) document
    <*> Field.optional "files_changed" 0 Field.count document
    <*> Field.optional "lines_added" 0 Field.count document
    <*> Field.optional "lines_removed" 0 Field.count document
    <*> Field.optional "changed_paths" [] (Field.list Field.text) document
    <*> Field.optional "author" unknownName name document
    <*> Field.optional "repository" unknownName name document
    <*> Field.optional "occurred_at" now Field.utc document
    <*> Field.optional "cycle_duration" none (Field.orNull Field.duration) document

/-- The first line of the message. -/
def subject (c : Commit) : Text := c.message.trim.firstProseLine

/-- The commit with its phase set; a phase that is set cannot change. -/
def withPhase (c : Commit) (phase : Phase) : Except CommitError Commit :=
  match c.phase with
  | some old =>
    if old = phase then .ok { c with phase := some phase } else .error (.phaseAlreadySet old)
  | none => .ok { c with phase := some phase }

def withCycleDuration (c : Commit) (duration : Option Duration) : Except CommitError Commit :=
  if duration.isSome && decide (c.phase ≠ some .green) then .error .durationOutsideGreen
  else .ok { c with cycleDuration := duration }

/-- Fields of a commit are never assigned. -/
def assign (_ : Commit) (field : Text) (_ : Json) : Rejection :=
  .issues [⟨.frozen, [.name field]⟩]

end Commit

end RedGreen
