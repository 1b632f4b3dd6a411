import RedGreen.Text.Printable
import RedGreen.Text.Similar

/-!
# Arguments of commands

An argument that starts with a dash is an option.  An option that takes a value has it behind an
equals sign or in the next argument, whatever that looks like.  Two dashes end the options.
-/

namespace RedGreen

structure CommandOption where
  name : Text
  /-- How its value is called, if it takes one. -/
  value : Option Text
  help : Text

inductive UsageProblem where
  | unknownOption (name : Text) (similar : List Text)
  | needsValue (option : Text)
  | takesNoValue (option : Text)
  | unknownCommand (name : Text) (similar : List Text)
  | noCommand
  | missingOperand (name : Text)
  | unexpected (operands : List Text)
  | notWhole (option value : Text)
  | outOfRange (option : Text) (n least most : Int)
  | notAmong (option value : Text) (choices : List Text)
  deriving DecidableEq

namespace UsageProblem

/-- The hint at names that were perhaps meant. -/
def hint (names : List Text) : Text :=
  match names.mergeSort (fun s t => !Text.less t s) with
  | [] => []
  | [name] => (" Did you mean " : Text) ++ name.quoted ++ ("?" : Text)
  | names =>
    (" (Did you mean one of: " : Text) ++ Text.join ", " (names.map Text.quoted) ++ ("?)" : Text)

def invalid (option reason : Text) : Text :=
  ("Invalid value for " : Text) ++ option.quoted ++ (": " : Text) ++ reason

def message : UsageProblem → Text
  | .unknownOption name similar =>
    ("No such option " : Text) ++ name.quoted ++ ("." : Text) ++ hint similar
  | .needsValue option => ("Option " : Text) ++ option.quoted ++ (" requires an argument." : Text)
  | .takesNoValue option =>
    ("Option " : Text) ++ option.quoted ++ (" does not take a value." : Text)
  | .unknownCommand name similar =>
    ("No such command " : Text) ++ name.quoted ++ ("." : Text) ++ hint similar
  | .noCommand => "Missing command."
  | .missingOperand name => ("Missing argument " : Text) ++ name.quoted ++ ("." : Text)
  | .unexpected [operand] =>
    ("Got unexpected extra argument (" : Text) ++ operand ++ (")" : Text)
  | .unexpected operands =>
    ("Got unexpected extra arguments (" : Text) ++ Text.join " " operands ++ (")" : Text)
  | .notWhole option value =>
    invalid option (value.quoted ++ (" is not a valid integer range." : Text))
  | .outOfRange option n least most =>
    invalid option (Text.ofInt n ++ (" is not in the range " : Text) ++ Text.ofInt least ++
      ("<=x<=" : Text) ++ Text.ofInt most ++ ("." : Text))
  | .notAmong option value choices =>
    invalid option (value.quoted ++ (" is not one of " : Text) ++
      Text.join ", " (choices.map Text.quoted) ++ ("." : Text))

end UsageProblem

/-- Arguments sorted into options, in order and with their values, and operands. -/
structure Arguments where
  options : List (Text × Option Text)
  operands : List Text

namespace Arguments

def dash : CodePoint := CodePoint.ofChar '-'

def isOption : Text → Bool
  | c :: _ :: _ => decide (c = dash)
  | _ => false

/-- The name of an option that is not known: all of it behind two dashes, one character behind
one. -/
def unknown (known : List Text) (argument name : Text) : UsageProblem :=
  match argument with
  | a :: b :: _ =>
    if b = dash then .unknownOption name (Text.similar name known) else .unknownOption [a, b] []
  | _ => .unknownOption name []

/-- An option with the value behind an equals sign. -/
def splitValue (argument : Text) : Text × Option Text :=
  match Text.cut? '=' argument with
  | some (name, value) => (name, some value)
  | none => (argument, none)

/-- Sorts arguments; with `mixed`, options may follow operands. -/
def sort (known : List CommandOption) (mixed : Bool) : List Text → Except UsageProblem Arguments
  | [] => .ok ⟨[], []⟩
  | argument :: more =>
    if argument = "--" then .ok ⟨[], more⟩
    else if isOption argument then
      let (name, value) := splitValue argument
      let add (value : Option Text) (rest : Except UsageProblem Arguments) :=
        rest.map fun a => ({ a with options := (name, value) :: a.options } : Arguments)
      match known.find? fun o => o.name = name with
      | none => .error (unknown (known.map CommandOption.name) argument name)
      | some o =>
        match o.value, value, more with
        | none, none, more => add none (sort known mixed more)
        | none, some _, _ => .error (.takesNoValue name)
        | some _, some value, more => add (some value) (sort known mixed more)
        | some _, none, value :: more => add (some value) (sort known mixed more)
        | some _, none, [] => .error (.needsValue name)
    else if mixed then
      (sort known mixed more).map fun a => { a with operands := argument :: a.operands }
    else .ok ⟨[], argument :: more⟩

/-- The value of an option; of several values the last one counts. -/
def last? (a : Arguments) (name : Text) : Option Text :=
  (a.options.reverse.find? fun o => o.1 = name).bind Prod.snd

def all (a : Arguments) (name : Text) : List Text :=
  a.options.filterMap fun o => if o.1 = name then o.2 else none

/-- Whether the first of two options comes first. -/
def isBefore (a : Arguments) (first second : Text) : Bool :=
  match (a.options.map Prod.fst).find? fun name => name = first || name = second with
  | some name => name = first
  | none => false

def has (a : Arguments) (name : Text) : Bool := a.options.any fun o => o.1 = name

end Arguments

end RedGreen
