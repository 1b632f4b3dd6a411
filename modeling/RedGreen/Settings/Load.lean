import RedGreen.Settings.Group

/-!
# Settings as a whole

The settings are read from values that are given directly and from variables.  A group that
nothing is said about is read on its own, and what is wrong with it is then reported as an issue
of that group; otherwise all issues of all groups are reported together.
-/

namespace RedGreen

structure Settings where
  appName : Text
  version : Text
  storage : Settings.Storage
  locking : Settings.Locking
  backend : Settings.Backend
  delivery : Settings.Delivery
  notices : Settings.Notices
  monitoring : Settings.Monitoring
  deriving DecidableEq

namespace Settings

/-- Why there are no settings. -/
inductive LoadError where
  /-- The variable of a group holds no JSON document. -/
  | unreadable (field : Text) (origin : Origin)
  /-- The document in the variable of a group is nested too deeply. -/
  | tooDeep
  /-- A path name lies below a home directory that is not known. -/
  | homeless
  | rejected (model : Text) (r : Rejection)
  deriving DecidableEq

namespace LoadError

def message : LoadError → Text
  | .unreadable field origin =>
    ("error parsing value for field \"" : Text) ++ field ++ ("\" from source \"" : Text) ++
      origin.name ++ ("\"" : Text)
  | .homeless => "Could not determine home directory."
  | .tooDeep => Json.ReadError.tooDeep.message
  | .rejected model r => r.headline model

end LoadError

def modelName : Text := "Settings"

/-- How a group is read: its model, its place among the settings, the start of the names of its
own variables, its fields, the test that escapes the report of issues, and the check. -/
structure GroupKind (α : Type) where
  model : Text
  field : Text
  lead : Text
  fields : List Text
  homeless : Json.Members → Bool
  check : Json.Members → Checked α

namespace GroupKind

def storage (homes : PathName.Homes) : GroupKind Storage where
  model := Storage.modelName
  field := "storage"
  lead := "tdd_metrics_storage__"
  fields := Storage.fields
  homeless := Storage.isHomeless homes
  check := Storage.check homes

def locking : GroupKind Locking where
  model := Locking.modelName
  field := "cycle"
  lead := "tdd_metrics_cycle__"
  fields := Locking.fields
  homeless := fun _ => false
  check := Locking.check

def backend : GroupKind Backend where
  model := Backend.modelName
  field := "langfuse"
  lead := "langfuse_"
  fields := Backend.fields
  homeless := fun _ => false
  check := Backend.check

def delivery : GroupKind Delivery where
  model := Delivery.modelName
  field := "publisher"
  lead := "tdd_metrics_publisher__"
  fields := Delivery.fields
  homeless := fun _ => false
  check := Delivery.check

def notices : GroupKind Notices where
  model := Notices.modelName
  field := "hook"
  lead := "tdd_metrics_hook__"
  fields := Notices.fields
  homeless := fun _ => false
  check := Notices.check

def monitoring : GroupKind Monitoring where
  model := Monitoring.modelName
  field := "monitoring"
  lead := "tdd_metrics_monitoring__"
  fields := Monitoring.fields
  homeless := fun _ => false
  check := Monitoring.check

/-- Checks a group with the given members in front of its variables. -/
def checkGiven (k : GroupKind α) (s : Sources) (given : Json.Members) :
    Except LoadError (Checked α) :=
  let document := s.complete k.lead k.fields given
  if k.homeless document then .error .homeless else .ok (k.check document)

/-- A group of its own. -/
def load (k : GroupKind α) (s : Sources) (given : Json.Members) : Except LoadError α := do
  match ← k.checkGiven s given with
  | .ok group => return group
  | .error r => .error (.rejected k.model r)

/-- A group as a part of the settings: read on its own when nothing is said about it. -/
def part (k : GroupKind α) (s : Sources) (document : Json.Members) :
    Except LoadError (Checked α) := do
  match document.get? k.field with
  | none => return .accept (← k.load s [])
  | some (.obj given) =>
    return (← k.checkGiven s given).under (.name k.field)
  | some _ =>
    return (Checked.reject (.modelType k.model) : Checked α).under (.name k.field)

end GroupKind

/-- The start of the names of the variables for settings outside of groups. -/
def lead : Text := "tdd_metrics_"

/-- The groups by name, with the names of their fields. -/
def groups : List (Text × List Text) :=
  [("storage", Storage.fields), ("cycle", Locking.fields), ("langfuse", Backend.fields),
   ("publisher", Delivery.fields), ("hook", Notices.fields),
   ("monitoring", Monitoring.fields)]

/-- The names of all variables that say something about the settings, in capitals. -/
def variableNames : List Text :=
  let single : List Text := (["app_name", "version"] : List Text).map fun name => lead ++ name
  let grouped := groups.flatMap fun (name, fields) =>
    (lead ++ name) :: fields.map fun field => lead ++ name ++ ("__" : Text) ++ field
  let backend := Backend.fields.map fun field => ("langfuse_" : Text) ++ field
  (single ++ grouped ++ backend).map Text.toUpperAscii

/-- What the variables of one origin say about the settings. -/
def ofVariables (origin : Origin) (vs : Variables) : Except LoadError Json.Members := do
  let plain : Json.Members := (["app_name", "version"] : List Text).filterMap fun name =>
    (vs.get? (lead ++ name)).map fun t => (name, .str t)
  let grouped ← groups.mapM fun (name, fields) =>
    match groupValue (lead ++ name) fields vs with
    | .ok value => .ok (value.map fun v => (name, v))
    | .error .unreadable => .error (.unreadable name origin)
    | .error .tooDeep => .error .tooDeep
  return plain ++ grouped.filterMap id

/-- Reads the settings; what is given comes before variables of the environment, and those
before variables of a file. -/
def load (s : Sources) (given : Json.Members) : Except LoadError Settings := do
  let ofEnvironment ← ofVariables .environment s.environment
  let ofFile ← ofVariables .file s.file
  let document := joinMembers (joinMembers ofFile ofEnvironment) given
  let storage ← (GroupKind.storage s.homes).part s document
  let locking ← GroupKind.locking.part s document
  let backend ← GroupKind.backend.part s document
  let delivery ← GroupKind.delivery.part s document
  let notices ← GroupKind.notices.part s document
  let monitoring ← GroupKind.monitoring.part s document
  let settings : Checked Settings :=
    mk <$> Field.optional "app_name" "tdd-cycle-metrics" Field.text document
      <*> Field.optional "version" "1.0.0" Field.text document
      <*> storage <*> locking <*> backend <*> delivery <*> notices <*> monitoring
  match settings with
  | .ok settings => return settings
  | .error r => .error (.rejected modelName r)

/-- Records are delivered: delivery is not switched off, and the backend is known. -/
def delivers (s : Settings) : Bool := s.delivery.enabled && s.backend.isConfigured

/-- The settings for display, without credentials. -/
def summary (s : Settings) : Json :=
  .obj
    [("app_name", .str s.appName),
     ("version", .str s.version),
     ("storage", .obj
       [("log_file", .str s.storage.logFile.toText),
        ("state_file", .str s.storage.stateFile.toText),
        ("circuit_file", .str s.storage.circuitFile.toText),
        ("diagnostics_file", .str s.storage.diagnosticsFile.toText),
        ("fsync", .bool s.storage.fsync)]),
     ("cycle", .obj [("lock_timeout_seconds", .float s.locking.timeout)]),
     ("langfuse", .obj
       [("host", Json.ofText? s.backend.host),
        ("public_key_set", .bool (!(s.backend.publicKey.getD []).isEmpty)),
        ("secret_key_set", .bool s.backend.secretKey.isSome),
        ("configured", .bool s.backend.isConfigured)]),
     ("publisher", .obj
       [("enabled", .bool s.delivery.enabled),
        ("remote_enabled", .bool s.delivers),
        ("max_attempts", .int s.delivery.maxAttempts),
        ("timeout_seconds", .float s.delivery.timeout),
        ("backoff_base_seconds", .float s.delivery.backoffBase),
        ("failure_threshold", .int s.delivery.failureThreshold),
        ("cooldown_seconds", .float s.delivery.cooldown)]),
     ("monitoring", .obj [("log_level", .str s.monitoring.logLevel)])]

end Settings

end RedGreen
