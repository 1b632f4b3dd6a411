import RedGreen.CommandLine.Answer
import Std.Time.DateTime.Timestamp

/-!
# The program

Reads the variables, the files and the clock, answers the command line and prints the answer.
-/

namespace RedGreen

namespace Program

def name : Text := "tdd-metrics"

/-- The width of the console when the environment does not say. -/
def usualWidth : Nat := 80

def binding? (name : Text) : IO (Option (Text × Text)) :=
  return (← IO.getEnv name.toString).map fun value => (name, Text.ofString value)

/-- What stands under a path; what cannot be read counts as a directory. -/
def node (path : Text) : IO Disk.Node := do
  try
    let content ← IO.FS.readBinFile path.toString
    return .regular content.toList
  catch
    | .noFileOrDirectory .. => return .missing
    | _ => return .directory

def file (path : PathName) : IO Disk.File :=
  return ⟨path.parent.toText, path.name, ← node path.toText, false, false⟩

def sources : IO Settings.Sources := do
  let found ← (("HOME" : Text) :: Settings.variableNames).filterMapM binding?
  let dotenv ← match ← node ".env" with
    | .regular content => pure (Utf8.decode content).toOption
    | _ => pure none
  return .ofEnvironment found [] dotenv

def files (settings : Settings) : IO Files :=
  return ⟨← file settings.storage.stateFile, ← file settings.storage.logFile⟩

def now : IO DateTime := do
  let seconds := (← Std.Time.Timestamp.now).toSecondsSinceUnixEpoch.val
  return (DateTime.ofMicros? (seconds * 1000000) (some 0)).getD
    ⟨0, some 0, by decide, by decide⟩

def width : IO Nat := do
  match (← IO.getEnv "COLUMNS").bind String.toNat? with
  | some n => return n
  | none => return usualWidth

def premises : IO Premises := do
  let settings := Settings.load (← sources) []
  let files ← match settings with
    | .ok s => files s
    | .error _ => pure ⟨.fresh "." "state.json", .fresh "." "log.jsonl"⟩
  let now ← now
  let here := Text.ofString (← IO.currentDir).toString
  let inherited ← binding? "PYTHONPATH"
  return {
    width := ← width
    now := now
    settings := settings
    files := files
    run := fun s =>
      let child := Delivery.Child.ofSearchPath here (inherited.map Prod.snd)
      Run.perform ⟨s, now, child, .refused, none⟩ files (.error (.noRepository here)) }

end Program

end RedGreen

open RedGreen in
def main (arguments : List String) : IO UInt32 := do
  let answer := CommandLine.answer Program.name (← Program.premises) (arguments.map Text.ofString)
  IO.print answer.output.toString
  IO.eprint answer.errors.toString
  match answer.obstacle with
  | some obstacle => IO.eprintln obstacle.message.toString
  | none => pure ()
  return answer.exitCode.toUInt32
