import RedGreen.Time.Reading

/-!
# What is wrong with a value

A value that does not fit its field is reported with the problem and the path to it.  One
document can have several issues, and all of them are reported, in the order of the fields.
-/

namespace RedGreen

/-- Why a value does not fit a field. -/
inductive Problem where
  | missing
  | stringType
  | stringUnicode
  | stringTooShort
  | patternMismatch
  | intType
  | intParsing
  | intParsingSize
  | intFromFloat
  | finiteNumber
  | floatType
  | floatParsing
  | boolType
  | boolParsing
  | belowLeast (least : Nat)
  | notAbove (bound : Nat)
  | aboveGreatest (greatest : Nat)
  | noneOf (choices : List Text)
  | listType
  | dictType
  | modelType (model : Text)
  | frozen
  | refused (reason : Text)
  | dateTime (fault : DateTime.Fault)
  | durationType
  | durationParsing
  deriving DecidableEq

inductive PathStep where
  | name (name : Text)
  | index (index : Nat)
  deriving DecidableEq

structure Issue where
  problem : Problem
  path : List PathStep
  deriving DecidableEq

/-- Choices in single quotes, with commas between them and `or` before the last. -/
def listChoices : List Text → Text
  | [] => []
  | [t] => ("'" : Text) ++ t ++ ("'" : Text)
  | [t, u] => ("'" : Text) ++ t ++ ("' or '" : Text) ++ u ++ ("'" : Text)
  | t :: ts => ("'" : Text) ++ t ++ ("', " : Text) ++ listChoices ts

namespace Problem

def code : Problem → Text
  | .missing => "missing"
  | .stringType => "string_type"
  | .stringUnicode => "string_unicode"
  | .stringTooShort => "string_too_short"
  | .patternMismatch => "string_pattern_mismatch"
  | .intType => "int_type"
  | .intParsing => "int_parsing"
  | .intParsingSize => "int_parsing_size"
  | .intFromFloat => "int_from_float"
  | .finiteNumber => "finite_number"
  | .floatType => "float_type"
  | .floatParsing => "float_parsing"
  | .boolType => "bool_type"
  | .boolParsing => "bool_parsing"
  | .belowLeast _ => "greater_than_equal"
  | .notAbove _ => "greater_than"
  | .aboveGreatest _ => "less_than_equal"
  | .noneOf _ => "enum"
  | .listType => "list_type"
  | .dictType => "dict_type"
  | .modelType _ => "model_type"
  | .frozen => "frozen_instance"
  | .refused _ => "value_error"
  | .dateTime .type => "datetime_type"
  | .dateTime .parsing => "datetime_parsing"
  | .dateTime .fromDate => "datetime_from_date_parsing"
  | .durationType => "time_delta_type"
  | .durationParsing => "time_delta_parsing"

/-- The sentence that reports a problem; problems of dates and durations have none. -/
def message? : Problem → Option Text
  | .missing => some "Field required"
  | .stringType => some "Input should be a valid string"
  | .stringUnicode =>
    some "Input should be a valid string, unable to parse raw data as a unicode string"
  | .stringTooShort => some "String should have at least 1 character"
  | .patternMismatch => some "String should match pattern '^(ok|skipped)$'"
  | .intType => some "Input should be a valid integer"
  | .intParsing =>
    some "Input should be a valid integer, unable to parse string as an integer"
  | .intParsingSize =>
    some "Unable to parse input string as an integer, exceeded maximum size"
  | .intFromFloat =>
    some "Input should be a valid integer, got a number with a fractional part"
  | .finiteNumber => some "Input should be a finite number"
  | .floatType => some "Input should be a valid number"
  | .floatParsing =>
    some "Input should be a valid number, unable to parse string as a number"
  | .boolType => some "Input should be a valid boolean"
  | .boolParsing => some "Input should be a valid boolean, unable to interpret input"
  | .belowLeast n =>
    some (("Input should be greater than or equal to " : Text) ++ Text.ofNat n)
  | .notAbove n => some (("Input should be greater than " : Text) ++ Text.ofNat n)
  | .aboveGreatest n => some (("Input should be less than or equal to " : Text) ++ Text.ofNat n)
  | .noneOf choices => some (("Input should be " : Text) ++ listChoices choices)
  | .listType => some "Input should be a valid list"
  | .dictType => some "Input should be a valid dictionary"
  | .modelType model =>
    some (("Input should be a valid dictionary or instance of " : Text) ++ model)
  | .frozen => some "Instance is frozen"
  | .refused reason => some (("Value error, " : Text) ++ reason)
  | .dateTime _ => none
  | .durationType => none
  | .durationParsing => none

end Problem

/-- Why a document was rejected. -/
inductive Rejection where
  /-- Some values do not fit their fields. -/
  | issues (issues : List Issue)
  /-- A time cannot be moved to UTC, because that is out of range. -/
  | overflow
  deriving DecidableEq

/-- A checked value, or what is wrong with it. -/
def Checked (α : Type) := Except Rejection α

namespace Rejection

/-- The first line of the report on a document of the named model. -/
def headline (model : Text) : Rejection → Text
  | .overflow => "date value out of range"
  | .issues found =>
    Text.ofNat found.length ++ (if found.length = 1 then (" validation error for " : Text)
      else (" validation errors for " : Text)) ++ model

end Rejection

namespace Checked

def accept (a : α) : Checked α := Except.ok a

def reject (problem : Problem) : Checked α := Except.error (.issues [⟨problem, []⟩])

def overflow : Checked α := Except.error .overflow

/-- A value that may be missing, with the problem that its absence is. -/
def ofOption (problem : Problem) : Option α → Checked α
  | some a => .accept a
  | none => .reject problem

def map (f : α → β) : Checked α → Checked β
  | .ok a => .ok (f a)
  | .error e => .error e

def andThen (x : Checked α) (f : α → Checked β) : Checked β :=
  match x with
  | .ok a => f a
  | .error e => .error e

/-- Both checks are made; the issues of the first come first, and an overflow hides them. -/
def both (x : Checked α) (y : Unit → Checked β) : Checked (α × β) :=
  match x with
  | .ok a => (y ()).map fun b => (a, b)
  | .error .overflow => .error .overflow
  | .error (.issues first) =>
    match y () with
    | .ok _ => .error (.issues first)
    | .error .overflow => .error .overflow
    | .error (.issues more) => .error (.issues (first ++ more))

instance : Functor Checked := ⟨fun f x => map f x, fun a x => map (fun _ => a) x⟩

instance : Pure Checked := ⟨accept⟩

instance : Seq Checked := ⟨fun f x => (both f x).map fun p => p.1 p.2⟩

/-- Puts a step in front of the paths of all issues. -/
def under (step : PathStep) : Checked α → Checked α
  | .ok a => .ok a
  | .error .overflow => .error .overflow
  | .error (.issues issues) =>
    .error (.issues (issues.map fun i => { i with path := step :: i.path }))

end Checked

end RedGreen
