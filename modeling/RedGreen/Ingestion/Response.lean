import RedGreen.Validation.Field

/-!
# Answers of the backend

The backend answers a batch with the events that it took and the events that it refused.
-/

namespace RedGreen

namespace Ingestion

structure Response where
  successes : List Json.Members
  errors : List Json.Members

/-- Why an answer cannot be read. -/
inductive ResponseError where
  /-- What should be a list cannot be listed at all. -/
  | notListable (kind : Json.Kind)
  | rejected (r : Rejection)
  deriving DecidableEq

namespace ResponseError

/-- The sentence on a value that cannot be listed. -/
def notListableMessage (kind : Json.Kind) : Text :=
  ("'" : Text) ++ kind.name ++ ("' object is not iterable" : Text)

end ResponseError

namespace Response

def modelName : Text := "IngestionResponse"

/-- An answer that says nothing. -/
def silent : Response := ⟨[], []⟩

def hasErrors (r : Response) : Bool := !r.errors.isEmpty

/-- A value as a list: a text has its characters as items and an object its names, and whatever
is false stands for no items. -/
def listOf (v : Json) : Except Json.Kind (List Json) :=
  if v.isTruthy then
    match v with
    | .arr items => .ok items
    | .str t => .ok (t.map fun c => .str [c])
    | .obj members => .ok (members.map fun p => .str p.1)
    | v => .error v.kind
  else .ok []

def check (successes errors : List Json) : Checked Response :=
  mk <$> (Field.list Field.members (.arr successes)).under (.name "successes")
    <*> (Field.list Field.members (.arr errors)).under (.name "errors")

/-- Reads an answer; one that is no object says nothing. -/
def ofPayload : Json → Except ResponseError Response
  | .obj document =>
    let member (name : Text) := (listOf ((Json.Members.get? name document).getD .null)).mapError
      ResponseError.notListable
    do
      let successes ← member "successes"
      let errors ← member "errors"
      match check successes errors with
      | .ok r => return r
      | .error e => .error (.rejected e)
  | _ => .ok silent

end Response

end Ingestion

end RedGreen
