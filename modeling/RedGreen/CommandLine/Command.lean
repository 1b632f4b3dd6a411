import RedGreen.CommandLine.Arguments
import RedGreen.Number.Conversion
import RedGreen.Phase

/-!
# Commands

What can be asked for on the command line, and how the arguments say it.  A request for help comes
before everything else that is said about a command; after that, what is wrong with options is
reported in the order in which they are given, then missing operands, then superfluous ones.
-/

namespace RedGreen

inductive Command where
  /-- Run for the last commit. -/
  | hook
  | classify (message : Text) (paths : List Text)
  | log (limit : Nat) (branch : Option Text) (phase : Option Phase) (asLines : Bool)
  | stats (branch : Option Text)
  | state
  | config
  | help (page : Text)
  deriving DecidableEq

structure UsageError where
  program : Text
  /-- What may follow the program. -/
  usage : Text
  problem : UsageProblem
  deriving DecidableEq

namespace UsageError

def message (e : UsageError) : Text :=
  ("Usage: " : Text) ++ e.program ++ (" " : Text) ++ e.usage ++ ("\nTry '" : Text) ++ e.program ++
    (" --help' for help.\n\nError: " : Text) ++ e.problem.message ++ ("\n" : Text)

end UsageError

structure CommandEntry where
  name : Text
  /-- How its operand is called, if it has one. -/
  operand : Option Text
  help : Text
  options : List CommandOption
  /-- The command that the arguments ask for.  Superfluous operands are not looked at. -/
  command : Arguments → Except UsageProblem Command

namespace CommandEntry

/-! ## Values of options -/

/-- How many records may be asked for. -/
def mostRecords : Nat := 10000

/-- How many records are shown when nothing is said. -/
def usualRecords : Nat := 20

def limitOf (value : Text) : Except UsageProblem Nat :=
  match Json.intOfText value with
  | .error _ => .error (.notWhole "--limit" value)
  | .ok n =>
    if 1 ≤ n ∧ n ≤ mostRecords then .ok n.toNat else .error (.outOfRange "--limit" n 1 mostRecords)

def phaseOf (value : Text) : Except UsageProblem Phase :=
  match Phase.ofName? value with
  | some phase => .ok phase
  | none => .error (.notAmong "--phase" value (Phase.all.map Phase.name))

/-- The last value of an option, checked. -/
def checkLast (a : Arguments) (name : Text) (check : Text → Except UsageProblem α) :
    Except UsageProblem (Option α) :=
  match a.last? name with
  | some value => (check value).map some
  | none => .ok none

/-- The records that are asked for.  Of two bad options the one that is given first is
reported. -/
def logOf (a : Arguments) : Except UsageProblem Command := do
  let limit := checkLast a "--limit" limitOf
  let phase := checkLast a "--phase" phaseOf
  if a.isBefore "--phase" "--limit" then
    let _ ← phase
  let limit ← limit
  let phase ← phase
  return .log (limit.getD usualRecords) (a.last? "--branch") phase (a.has "--json")

def classifyOf (a : Arguments) : Except UsageProblem Command :=
  match a.operands with
  | message :: _ => .ok (.classify message (a.all "--path"))
  | [] => .error (.missingOperand "MESSAGE")

/-! ## Entries -/

def helpOption : CommandOption := ⟨"--help", none, "Show this message and exit."⟩

def branchOption : CommandOption := ⟨"--branch", some "TEXT", "Only this branch"⟩

def classify : CommandEntry :=
  { name := "classify"
    operand := some "MESSAGE"
    help := "Show the phase a commit message maps to."
    options := [⟨"--path", some "TEXT", "Changed path (repeatable)"⟩, helpOption]
    command := classifyOf }

def config : CommandEntry :=
  { name := "config"
    operand := none
    help := "Show the effective configuration (credentials masked)."
    options := [helpOption]
    command := fun _ => .ok .config }

def hook : CommandEntry :=
  { name := "hook"
    operand := none
    help := "Run the post-commit pipeline for HEAD (always exits 0)."
    options := [helpOption]
    command := fun _ => .ok .hook }

def log : CommandEntry :=
  { name := "log"
    operand := none
    help := "Show recent cycle log records."
    options :=
      [⟨"--limit", some "INTEGER RANGE", "Number of records  [1<=x<=10000]"⟩, branchOption,
       ⟨"--phase", some "[RED|GREEN|REFACTOR|TIDY|OTHER]", "Only this phase"⟩,
       ⟨"--json", none, "Print raw JSON lines"⟩, helpOption]
    command := logOf }

def state : CommandEntry :=
  { name := "state"
    operand := none
    help := "Show open RED cycles per branch."
    options := [helpOption]
    command := fun _ => .ok .state }

def stats : CommandEntry :=
  { name := "stats"
    operand := none
    help := "Show cycle statistics from the local log."
    options := [branchOption, helpOption]
    command := fun a => .ok (.stats (a.last? "--branch")) }

/-- All entries, in the order of the help. -/
def all : List CommandEntry := [classify, config, hook, log, state, stats]

def find (name : Text) : Except UsageProblem CommandEntry :=
  match all.find? fun e => e.name = name with
  | some e => .ok e
  | none =>
    if Arguments.isOption name then .error (Arguments.unknown ["--help"] name name)
    else .error (.unknownCommand name (Text.similar name (all.map CommandEntry.name)))

def usage (e : CommandEntry) : Text :=
  ("[OPTIONS]" : Text) ++
    match e.operand with
    | some operand => (" " : Text) ++ operand
    | none => []

end CommandEntry

namespace CommandLine

/-! ## Help -/

def summary : Text := "Track RED/GREEN/REFACTOR cycles from commit messages."

def generalUsage : Text := "[OPTIONS] COMMAND [ARGS]..."

/-- How wide the terms of a list may be to stand beside their meanings. -/
def widestTerm : Nat := 30

/-- A list of terms with their meanings beside them, or below terms that are too wide. -/
def definitions (entries : List (Text × Text)) : Text :=
  let widest := (entries.map fun e => e.1.length).foldl max 0
  let column := min widest widestTerm + 2
  let blank (n : Nat) : Text := List.replicate n (CodePoint.ofChar ' ')
  entries.flatMap fun e =>
    blank 2 ++ e.1 ++
      (if e.1.length + 2 ≤ column then blank (column - e.1.length)
        else CodePoint.ofChar '\n' :: blank (column + 2)) ++
      e.2 ++ [CodePoint.ofChar '\n']

def helpPage (program usage about : Text) (options : List CommandOption)
    (commands : List CommandEntry) : Text :=
  let terms := options.map fun o =>
    (match o.value with
      | some value => o.name ++ (" " : Text) ++ value
      | none => o.name, o.help)
  ("Usage: " : Text) ++ program ++ (" " : Text) ++ usage ++ ("\n\n  " : Text) ++ about ++
    ("\n\nOptions:\n" : Text) ++ definitions terms ++
    (if commands.isEmpty then []
      else ("\nCommands:\n" : Text) ++ definitions (commands.map fun e => (e.name, e.help)))

def generalHelp (program : Text) : Text :=
  helpPage program generalUsage summary [CommandEntry.helpOption] CommandEntry.all

/-! ## Reading -/

/-- Reads the arguments behind the name of a command. -/
def readEntry (program : Text) (e : CommandEntry) (arguments : List Text) :
    Except UsageProblem Command := do
  let a ← Arguments.sort e.options true arguments
  if a.has "--help" then
    return .help (helpPage (program ++ (" " : Text) ++ e.name) e.usage e.help e.options [])
  let command ← e.command a
  match a.operands.drop e.operand.toList.length with
  | [] => return command
  | operands => .error (.unexpected operands)

def read (program : Text) (arguments : List Text) : Except UsageError Command :=
  let general (problem : UsageProblem) : UsageError := ⟨program, generalUsage, problem⟩
  match Arguments.sort [CommandEntry.helpOption] false arguments with
  | .error problem => .error (general problem)
  | .ok a =>
    if a.has "--help" then .ok (.help (generalHelp program))
    else match a.operands with
      | [] => .error (general .noCommand)
      | name :: arguments =>
        match CommandEntry.find name with
        | .error problem => .error (general problem)
        | .ok e =>
          (readEntry program e arguments).mapError fun problem =>
            ⟨program ++ (" " : Text) ++ e.name, e.usage, problem⟩

end CommandLine

end RedGreen
