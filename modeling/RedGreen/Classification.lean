import RedGreen.Phase
import RedGreen.ChangedPath

/-!
# Classifying commits

The phase of a commit is read off the label at the very start of its message.  A tidy label
stands only while the commit stays out of production code; without paths it is trusted.
-/

namespace RedGreen

namespace Classification

def tidyLabels : List Text := ["tidy:", "test(tidy):"]

/-- The labels of the phases that depend on the message alone. -/
def labels : List (Phase × List Text) :=
  [(.red, ["test:"]), (.green, ["feat:", "impl:"]), (.refactor, ["struct:", "refactor:"])]

def startsWithAny (message : Text) (options : List Text) : Bool :=
  options.any fun label => Text.startsWith message label

/-- The phase of a commit from its message and, when they are known, its changed paths. -/
def classify (message : Text) (paths : Option (List Text)) : Phase :=
  if startsWithAny message tidyLabels then
    match paths with
    | none => .tidy
    | some paths => if ChangedPath.noneIsProduction paths then .tidy else .other
  else
    match labels.find? fun entry => startsWithAny message entry.2 with
    | some entry => entry.1
    | none => .other

/-- A message that is no text belongs to no phase. -/
def classifyValue (message : Json) (paths : Option (List Text)) : Phase :=
  match message with
  | .str t => classify t paths
  | _ => .other

end Classification

end RedGreen
