import RedGreen.Settings.Dotenv
import RedGreen.PathName
import RedGreen.Json.Reader

/-!
# Where settings come from

A setting is given directly, by a variable of the environment, or by a variable of a file, in
this order of precedence.  Names of variables are matched without regard to case.  The variable
of a whole group holds a JSON document, and variables with two underscores in their names reach
into the group.
-/

namespace RedGreen

namespace Settings

/-- Variables under their names in small letters; one of a file may lack a value. -/
abbrev Variables := List (Text × Option Text)

namespace Variables

/-- ASCII capitals and the Kelvin sign have a small letter. -/
def lowerName (name : Text) : Text :=
  name.map fun c => if c.val = 0x212A then 'k' else c.toLowerAscii

/-- The last of several variables of one name counts. -/
def put (name : Text) (value : Option Text) : Variables → Variables
  | [] => [(name, value)]
  | v :: vs => if v.1 = name then (name, value) :: vs else v :: put name value vs

def ofList (bindings : List (Text × Option Text)) : Variables :=
  bindings.foldl (fun vs b => put (lowerName b.1) b.2 vs) []

def get? (name : Text) (vs : Variables) : Option Text := (vs.lookup name).bind id

end Variables

inductive Origin where
  | environment
  | file
  deriving DecidableEq

namespace Origin

def name : Origin → Text
  | .environment => "EnvSettingsSource"
  | .file => "DotEnvSettingsSource"

end Origin

/-- All that settings are made from. -/
structure Sources where
  homes : PathName.Homes
  environment : Variables
  file : Variables

namespace Sources

/-- The sources with the variables of the environment and the content of a file of variables. -/
def ofEnvironment (given : List (Text × Text)) (accounts : List (Text × Text))
    (content : Option Text) : Sources where
  homes := ⟨(given.lookup (Text.ofString "HOME")).getD [], accounts⟩
  environment := .ofList (given.map fun v => (v.1, some v.2))
  file := match content with
    | some content => .ofList (Dotenv.read given content)
    | none => []

/-- The given members of a group, and behind them what variables say about its other fields. -/
def complete (s : Sources) (lead : Text) (fields : List Text) (given : Json.Members) :
    Json.Members :=
  fields.filterMap fun field =>
    let ofVariables (vs : Variables) : Option Json := (vs.get? (lead ++ field)).map .str
    let value := (given.get? field).orElse fun _ =>
      (ofVariables s.environment).orElse fun _ => ofVariables s.file
    value.map fun v => (field, v)

end Sources

/-! ## Documents over documents -/

def splitName (fuel : Nat) (name : Text) : List Text :=
  match fuel with
  | 0 => [name]
  | fuel + 1 =>
    match Text.cutAt? "__" name with
    | some (piece, rest) => piece :: splitName fuel rest
    | none => [name]

mutual

/-- Puts every member of the second document over the first; objects are joined. -/
def joinValues : Json → Json → Json
  | .obj base, .obj upper => .obj (joinMembers base upper)
  | _, v => v

def joinMembers (base : Json.Members) : List (Text × Json) → Json.Members
  | [] => base
  | (name, v) :: upper =>
    let value := match base.get? name with
      | some b => joinValues b v
      | none => v
    joinMembers (base.put name value) upper

end

/-- Puts a value at the end of a path of names; a value in the way stays. -/
def putAt (last : Text) (value : Json) : List Text → Json.Members → Json.Members
  | [], document => document.put last value
  | name :: names, document =>
    match document.get? name with
    | none => document.put name (.obj (putAt last value names []))
    | some (.obj inner) => document.put name (.obj (putAt last value names inner))
    | some _ => document

/-- What the variables of one origin say about a group beyond its own variable. -/
def reachInto (lead : Text) (vs : Variables) : Json.Members :=
  vs.foldl (fun document v =>
    match Text.dropLead? (lead ++ ("__" : Text)) v.1 with
    | some rest =>
      let names := splitName rest.length rest
      putAt (names.getLast?.getD []) (Json.ofText? v.2) names.dropLast document
    | none => document) []

/-- Members named like a field without regard to case take the name of the field. -/
def matchNames (fields : List Text) (document : Json.Members) : Json.Members :=
  Json.Members.ofList (document.map fun m =>
    let folded := Variables.lowerName m.1
    (if folded.isOneOf fields then folded else m.1, m.2))

/-- Why the variable of a group cannot be used. -/
inductive VariableError where
  | unreadable
  | tooDeep
  deriving DecidableEq

def groupValue (lead : Text) (fields : List Text) (vs : Variables) :
    Except VariableError (Option Json) :=
  let reached := reachInto lead vs
  match vs.get? lead with
  | none =>
    .ok (if reached.isEmpty then none else some (.obj (matchNames fields reached)))
  | some t =>
    match Json.read t with
    | .error .tooDeep => .error .tooDeep
    | .error _ => .error .unreadable
    | .ok .null => .ok none
    | .ok (.obj document) => .ok (some (.obj (matchNames fields (joinMembers document reached))))
    | .ok v => .ok (some v)

end Settings

end RedGreen
