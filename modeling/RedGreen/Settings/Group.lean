import RedGreen.Settings.Variables
import RedGreen.Validation.Field
import RedGreen.Circuit
import RedGreen.Cycle.Store

/-!
# Groups of settings

The settings come in six groups.  Each group is read from a document in which every member may
be missing; defaults go through the same checks as values that are given.
-/

namespace RedGreen

namespace Settings

structure Storage where
  logFile : PathName
  stateFile : PathName
  circuitFile : PathName
  diagnosticsFile : PathName
  fsync : Bool
  rememberedHashes : Int
  deriving DecidableEq

structure Locking where
  timeout : Binary64
  pollInterval : Binary64
  deriving DecidableEq

/-- The observability backend and the credentials for it. -/
structure Backend where
  host : Option Text
  publicKey : Option Text
  secretKey : Option Text
  traceName : Text
  deriving DecidableEq

structure Delivery where
  enabled : Bool
  maxAttempts : Int
  timeout : Binary64
  backoffBase : Binary64
  backoffMax : Binary64
  failureThreshold : Int
  cooldown : Binary64
  deriving DecidableEq

structure Notices where
  showWarnings : Bool
  announceCycles : Bool
  deriving DecidableEq

structure Monitoring where
  logLevel : Text
  deriving DecidableEq

/-! ## Checks of single values -/

/-- A path name that is not blank, with the home directory put in.  Where the home directory is
not known the path stays; such a group is refused as a whole. -/
def pathField (homes : PathName.Homes) (v : Json) : Checked PathName :=
  (Field.text v).andThen fun t =>
    if t.isBlank then .reject (.refused "Path cannot be empty")
    else
      let path := PathName.ofText t
      .accept ((path.expand? homes).getD path)

/-- A value that is a path below an unknown home directory. -/
def isHomeless (homes : PathName.Homes) : Json → Bool
  | .str t => !t.isBlank && ((PathName.ofText t).expand? homes).isNone
  | _ => false

/-- The base address of the backend: blank and unusable ones count as missing, and slashes at
the end are dropped. -/
def hostOf (t : Text) : Option Text :=
  let t := t.trim
  if t.startsWith "http://" ∨ t.startsWith "https://" then some (Text.dropTrailing '/' t) else none

/-- A key without blanks around it; a blank one counts as missing. -/
def keyOf (t : Text) : Option Text := if t.isBlank then none else some t.trim

/-- A text or `null`, of which a text may count as missing too. -/
def optionalText (f : Text → Option Text) (v : Json) : Checked (Option Text) :=
  (Field.orNull Field.text v).map fun t => t.bind f

def logLevels : List Text := ["DEBUG", "INFO", "WARNING", "ERROR", "CRITICAL"]

/-- ASCII letters and the dotless i as capitals. -/
def capitals (t : Text) : Text :=
  t.map fun c => if c.val = 0x131 then 'I' else c.toUpperAscii

def logLevelField (v : Json) : Checked Text :=
  (Field.text v).andThen fun t =>
    if (capitals t).isOneOf logLevels then .accept (capitals t)
    else
      let choices := Text.join ", " (logLevels.map fun l => ("'" : Text) ++ l ++ ("'" : Text))
      .reject (.refused (("Log level must be one of: [" : Text) ++ choices ++ ("]" : Text)))

/-! ## Checks of groups -/

namespace Storage

def modelName : Text := "StorageSettings"

def defaultPaths : List (Text × Text) :=
  [("log_file", "~/.claude/logs/tdd-cycle.jsonl"),
   ("state_file", "~/.claude/state/tdd-cycle-state.json"),
   ("circuit_file", "~/.claude/state/tdd-publish-circuit.json"),
   ("diagnostics_file", "~/.claude/logs/tdd-cycle-publish.log")]

def fields : List Text :=
  ["log_file", "state_file", "circuit_file", "diagnostics_file", "fsync", "remembered_hashes"]

def withDefaults (document : Json.Members) : Json.Members :=
  defaultPaths.foldl (fun d p =>
    if (d.get? p.1).isSome then d else d.put p.1 (.str p.2)) document

/-- Whether a path name lies below a home directory that is not known. -/
def isHomeless (homes : PathName.Homes) (document : Json.Members) : Bool :=
  let full := withDefaults document
  defaultPaths.any fun p => Settings.isHomeless homes ((full.get? p.1).getD .null)

def check (homes : PathName.Homes) (document : Json.Members) : Checked Storage :=
  let full := withDefaults document
  mk <$> Field.required "log_file" (pathField homes) full
    <*> Field.required "state_file" (pathField homes) full
    <*> Field.required "circuit_file" (pathField homes) full
    <*> Field.required "diagnostics_file" (pathField homes) full
    <*> Field.optional "fsync" true Field.bool full
    <*> Field.optional "remembered_hashes" 200 (Field.intFrom 1) full

end Storage

namespace Locking

def modelName : Text := "CycleSettings"

def fields : List Text := ["lock_timeout_seconds", "lock_poll_interval"]

def check (document : Json.Members) : Checked Locking :=
  mk <$> Field.optional "lock_timeout_seconds" (.ofNat 2) Field.numberFromZero document
    <*> Field.optional "lock_poll_interval" (.ofRatio false 5 100) Field.numberAboveZero document

end Locking

namespace Backend

def modelName : Text := "LangfuseSettings"

def fields : List Text := ["host", "public_key", "secret_key", "trace_name"]

def check (document : Json.Members) : Checked Backend :=
  mk <$> Field.optional "host" none (optionalText hostOf) document
    <*> Field.optional "public_key" none (optionalText keyOf) document
    <*> Field.optional "secret_key" none (Field.orNull Field.text) document
    <*> Field.optional "trace_name" "tdd-cycle" Field.text document

/-- The host and both keys are there and none of them is empty. -/
def isConfigured (b : Backend) : Bool :=
  [b.host, b.publicKey, b.secretKey].all fun t => !(t.getD []).isEmpty

end Backend

namespace Delivery

def modelName : Text := "PublisherSettings"

def fields : List Text :=
  ["enabled", "max_attempts", "timeout_seconds", "backoff_base_seconds", "backoff_max_seconds",
   "failure_threshold", "cooldown_seconds"]

def check (document : Json.Members) : Checked Delivery :=
  mk <$> Field.optional "enabled" true Field.bool document
    <*> Field.optional "max_attempts" 3 (Field.intBetween 1 10) document
    <*> Field.optional "timeout_seconds" (.ofNat 5) Field.numberAboveZero document
    <*> Field.optional "backoff_base_seconds" (.ofRatio false 1 2) Field.numberFromZero document
    <*> Field.optional "backoff_max_seconds" (.ofNat 8) Field.numberFromZero document
    <*> Field.optional "failure_threshold" 5 (Field.intFrom 1) document
    <*> Field.optional "cooldown_seconds" (.ofNat 300) Field.numberFromZero document

/-- When the circuit breaker opens, and for how long. -/
def circuit (d : Delivery) : Circuit.Config := ⟨d.failureThreshold, d.cooldown⟩

end Delivery

namespace Notices

def modelName : Text := "HookSettings"

def fields : List Text := ["show_warnings", "announce_cycles"]

def check (document : Json.Members) : Checked Notices :=
  mk <$> Field.optional "show_warnings" true Field.bool document
    <*> Field.optional "announce_cycles" true Field.bool document

end Notices

namespace Monitoring

def modelName : Text := "MonitoringSettings"

def fields : List Text := ["log_level"]

def check (document : Json.Members) : Checked Monitoring :=
  mk <$> Field.optional "log_level" "WARNING" logLevelField document

end Monitoring

end Settings

end RedGreen
