import RedGreen.Console.Panel
import RedGreen.Console.Table
import RedGreen.Cycle.State
import RedGreen.Json.Printer
import RedGreen.Settings.Load
import RedGreen.Statistics

/-!
# Reports

What the console shows about records, statistics, open cycles and settings.
-/

namespace RedGreen

namespace Report

def phaseStyle : Phase → Text
  | .red => "red"
  | .green => "green"
  | .refactor => "cyan"
  | .tidy => "magenta"
  | .other => "white"

def styled (style t : Text) : Text :=
  ("[" : Text) ++ style ++ ("]" : Text) ++ t ++ ("[/" : Text) ++ style ++ ("]" : Text)

def phase (p : Phase) : Text := styled (phaseStyle p) p.name

/-! ## Records -/

def hashLength : Nat := 8

def messageLength : Nat := 50

/-- A message, with dots in the place of what is not shown. -/
def shortMessage (t : Text) : Text :=
  if t.length ≤ messageLength then t else t.take messageLength ++ ("..." : Text)

def flags (r : Record) : List Text :=
  (if r.abandonedCycle then [("abandoned" : Text)] else []) ++
  (if r.orphanGreen then [("orphan" : Text)] else []) ++
  (if r.duplicate then [("dup" : Text)] else [])

def phaseCell (r : Record) : Text :=
  match flags r with
  | [] => phase r.phase
  | marks => phase r.phase ++ (" (" : Text) ++ Text.join ", " marks ++ (")" : Text)

def changesCell (r : Record) : Text :=
  styled "green" (("+" : Text) ++ Text.ofNat r.linesAdded) ++ (" " : Text) ++
    styled "red" (("-" : Text) ++ Text.ofNat r.linesRemoved)

/-- The cell of a record's cycle, or `none` when its duration cannot be represented. -/
def cycleCell? (r : Record) : Option Text :=
  match r.cycleDuration with
  | none => some (Duration.format none)
  | some none => none
  | some (some duration) => some (Duration.format (some duration))

def recordRow? (r : Record) : Option (List Text) :=
  (cycleCell? r).map fun cycle =>
    [r.occurredAt.minuteText, r.commitHash.take hashLength, Markup.escape r.branch, phaseCell r,
     changesCell r, cycle, Markup.escape (shortMessage r.message)]

/-- The table of records, or `none` when a duration cannot be represented. -/
def records? (rs : List Record) : Option Table :=
  (rs.mapM recordRow?).map fun rows =>
    { title := "TDD Cycle Log"
      columns :=
        [⟨"When", .natural, false⟩, ⟨"Hash", .natural, false⟩, ⟨"Branch", .natural, true⟩,
         ⟨"Phase", .natural, false⟩, ⟨"Changes", .right, true⟩, ⟨"Cycle", .right, true⟩,
         ⟨"Message", .natural, true⟩]
      rows := rows }

def noRecords (path : Text) : Text := styled "yellow" (("No records in " : Text) ++ path)

/-! ## Statistics -/

def statistics (s : Statistics) : Table :=
  let count (name : Text) (n : Nat) : List Text := [name, Text.ofNat n]
  let figure (name : Text) (d : Option Duration) : List Text := [name, Duration.format d]
  { title := "TDD Cycle Statistics"
    columns := [⟨"Metric", .natural, false⟩, ⟨"Value", .natural, true⟩]
    rows :=
      [count "Total Commits" s.totalCommits] ++
      (s.phaseCounts.map fun p => count (p.1.name ++ (" Commits" : Text)) p.2) ++
      [count "Closed Cycles" s.closedCycles, figure "Average Cycle" s.average,
       figure "Median Cycle" s.median, figure "Fastest Cycle" s.fastest,
       figure "Slowest Cycle" s.slowest, count "Abandoned Cycles" s.abandonedCycles,
       count "Orphan GREEN Commits" s.orphanGreens,
       count "Skipped State Updates" s.skippedUpdates] }

/-! ## Open cycles -/

def noOpenCycles : Text := styled "green" "No open cycles"

/-- The hash of a red commit, or a dash. -/
def redHash (hash : Option Text) : Text :=
  match hash with
  | some (c :: t) => (c :: t).take hashLength
  | _ => "-"

def cycleRow? (now : DateTime) (s : Cycle.State) : Option (List Text) :=
  s.pendingRedAt.map fun started =>
    [Markup.escape s.branch, redHash s.pendingRedHash, started.minuteText,
     Duration.format (now.elapsed? started)]

def openCycles (now : DateTime) (states : List Cycle.State) : Table :=
  { title := "Open Cycles"
    columns :=
      [⟨"Branch", .natural, true⟩, ⟨"RED Commit", .natural, true⟩, ⟨"Opened", .natural, true⟩,
       ⟨"Open For", .right, true⟩]
    rows := states.filterMap (cycleRow? now) }

/-! ## Settings -/

def configuration (s : Settings) : Panel :=
  { title := ("Configuration (remote publishing " : Text) ++
      (if s.delivers then ("enabled" : Text) else ("disabled" : Text)) ++ (")" : Text)
    body := Markup.escape (Json.indented .document 0 s.summary) }

def noJournal (path : Text) : Text :=
  styled "yellow" (("Log file " : Text) ++ path ++ (" does not exist yet" : Text))

end Report

end RedGreen
