import RedGreen.Validation.Field

/-!
# Phases of a development cycle

A commit writes a failing test (red), makes it pass (green), reshapes code (refactor), tidies
what is not production code (tidy), or does something else.
-/

namespace RedGreen

inductive Phase where
  | red
  | green
  | refactor
  | tidy
  | other
  deriving DecidableEq

namespace Phase

/-- All phases, in the order of reports. -/
def all : List Phase := [.red, .green, .refactor, .tidy, .other]

def name : Phase → Text
  | .red => "RED"
  | .green => "GREEN"
  | .refactor => "REFACTOR"
  | .tidy => "TIDY"
  | .other => "OTHER"

def ofName? (t : Text) : Option Phase := all.find? fun p => p.name = t

def check : Json → Checked Phase
  | .str t =>
    match ofName? t with
    | some p => .accept p
    | none => .reject (.noneOf (all.map name))
  | _ => .reject (.noneOf (all.map name))

end Phase

end RedGreen
