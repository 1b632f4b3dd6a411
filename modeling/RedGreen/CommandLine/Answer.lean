import RedGreen.CommandLine.Command
import RedGreen.Hook
import RedGreen.Report

/-!
# Answers to commands

A command prints to the output or to the stream for errors and ends with a code: 0 when it has
done its work, 2 when the command line is refused, 1 when something else keeps it from working.
-/

namespace RedGreen

inductive Obstacle where
  | settings (e : Settings.LoadError)
  | journal (e : Journal.ReadError)
  | state (e : Cycle.StoreError)
  /-- A duration in the journal cannot be represented. -/
  | duration
  | unwritable (e : EncodeError)
  /-- The output, which takes UTF-8, cannot hold what is printed. -/
  | unprintable (e : EncodeError)
  | markup (e : Markup.RenderError)
  /-- The clock has no offset, so that times cannot be told apart. -/
  | clock
  deriving DecidableEq

namespace Obstacle

def message : Obstacle → Text
  | .settings e => e.message
  | .journal (.disk fault) => fault.message
  | .journal (.line e) => Delivery.lineFailureText e
  | .state e => e.message
  | .duration => "cannot convert float infinity to integer"
  | .unwritable e => Record.lineErrorMessage e
  | .unprintable e =>
    e.message ++
      ("\n*** You may need to add PYTHONIOENCODING=utf-8 to your environment ***" : Text)
  | .markup e => e.message
  | .clock => "can't subtract offset-naive and offset-aware datetimes"

end Obstacle

/-- What a command leaves behind. -/
structure Answer where
  output : Text
  errors : Text
  exitCode : Nat
  obstacle : Option Obstacle

structure Premises where
  width : Nat
  now : DateTime
  settings : Except Settings.LoadError Settings
  files : Files
  run : Settings → Run

namespace Answer

def printed (output : Text) : Answer := ⟨output, [], 0, none⟩

def blocked (output : Text) (obstacle : Obstacle) : Answer := ⟨output, [], 1, some obstacle⟩

def refused (e : UsageError) : Answer := ⟨[], e.message, 2, none⟩

/-- The text that drawn lines print.  It is printed as a whole, or not at all. -/
def drawn (lines : Except Markup.RenderError (List Text)) : Except Obstacle Text :=
  match lines with
  | .error e => .error (.markup e)
  | .ok lines =>
    match Text.surrogateRun? 0 (Console.printed lines) with
    | some e => .error (.unprintable e)
    | none => .ok (Console.printed lines)

def ofText : Except Obstacle Text → Answer
  | .ok t => printed t
  | .error obstacle => blocked [] obstacle

/-- The answer after a text has been printed. -/
def behind (front : Text) (a : Answer) : Answer := { a with output := front ++ a.output }

end Answer

namespace CommandLine

def settingsOf (p : Premises) : Except Obstacle Settings := p.settings.mapError .settings

/-! ## Commands about the journal -/

/-- The records of one branch; an empty name stands for every branch. -/
def onBranch (branch : Option Text) (rs : List Record) : List Record :=
  match branch with
  | some (c :: t) => rs.filter fun r => r.branch = c :: t
  | _ => rs

def ofPhase (phase : Option Phase) (rs : List Record) : List Record :=
  match phase with
  | some phase => rs.filter fun r => r.phase = phase
  | none => rs

def recordsOf (p : Premises) : Except Obstacle (List Record) :=
  (Journal.records p.now p.files.journal).mapError .journal

/-- Prints the lines of records, up to the first one that cannot be written. -/
def linesOf : List Record → Answer
  | [] => .printed []
  | r :: rs =>
    match r.toLine with
    | .ok line => (linesOf rs).behind (Console.printed [line])
    | .error e => .blocked [] (.unwritable e)

/-- Records as a table, or a note that there are none. -/
def tableOf (width : Nat) (settings : Settings) (rs : List Record) : Except Obstacle Text :=
  if rs.isEmpty then
    Answer.drawn (Console.textLines width (Report.noRecords settings.storage.logFile.toText))
  else match Report.records? rs with
    | some table => Answer.drawn (table.draw width)
    | none => .error .duration

def log (p : Premises) (limit : Nat) (branch : Option Text) (phase : Option Phase)
    (asLines : Bool) : Answer :=
  match settingsOf p, recordsOf p with
  | .error obstacle, _ => .blocked [] obstacle
  | .ok _, .error obstacle => .blocked [] obstacle
  | .ok settings, .ok all =>
    let rs := Journal.lastOf limit (ofPhase phase (onBranch branch all))
    if asLines then linesOf rs else .ofText (tableOf p.width settings rs)

def stats (p : Premises) (branch : Option Text) : Except Obstacle Text := do
  let _ ← settingsOf p
  let all ← recordsOf p
  match Statistics.ofRecords? (onBranch branch all) with
  | some s => Answer.drawn ((Report.statistics s).draw p.width)
  | none => .error .duration

/-! ## Other commands -/

def state (p : Premises) : Except Obstacle Text := do
  let _ ← settingsOf p
  let states ← (Cycle.pending p.now p.files.state).mapError .state
  if states.isEmpty then Answer.drawn (Console.textLines p.width Report.noOpenCycles)
  else if p.now.offset.isNone then .error .clock
  else Answer.drawn ((Report.openCycles p.now states).draw p.width)

def config (p : Premises) : Answer :=
  match settingsOf p with
  | .error obstacle => .blocked [] obstacle
  | .ok settings =>
    match Answer.drawn ((Report.configuration settings).draw p.width) with
    | .error obstacle => .blocked [] obstacle
    | .ok panel =>
      if p.files.journal.visibleNode ≠ .missing then .printed panel
      else
        let note := Report.noJournal settings.storage.logFile.toText
        match Answer.drawn (Console.textLines p.width note) with
        | .ok note => .printed (panel ++ note)
        | .error obstacle => .blocked panel obstacle

def classify (p : Premises) (message : Text) (paths : List Text) : Except Obstacle Text :=
  let phase := Classification.classify message (if paths.isEmpty then none else some paths)
  Answer.drawn (Console.textLines p.width (Report.phase phase))

def hook (p : Premises) : Answer := ⟨[], Hook.output p.width p.settings p.run, 0, none⟩

def perform (p : Premises) : Command → Answer
  | .hook => hook p
  | .classify message paths => .ofText (classify p message paths)
  | .log limit branch phase asLines => log p limit branch phase asLines
  | .stats branch => .ofText (stats p branch)
  | .state => .ofText (state p)
  | .config => config p
  | .help page => .printed page

def answer (program : Text) (p : Premises) (arguments : List Text) : Answer :=
  match arguments with
  | [] => ⟨[], generalHelp program, 2, none⟩
  | _ =>
    match read program arguments with
    | .error e => .refused e
    | .ok command => perform p command

end CommandLine

end RedGreen
