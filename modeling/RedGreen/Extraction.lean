import RedGreen.Commit
import RedGreen.Json.Printer
import RedGreen.Number.Conversion
import RedGreen.PathName
import RedGreen.Text.Utf8

/-!
# Reading commits from a repository

A repository is seen as a set of values, each of which can be read or not.  Only a commit that
cannot be resolved is an error; every other value that cannot be read leaves its field at what
stands for an unknown value.
-/

namespace RedGreen

inductive Raw where
  | value (v : Json)
  | bytes (b : Bytes)

namespace Raw

def isTruthy : Raw → Bool
  | .value v => v.isTruthy
  | .bytes b => !b.isEmpty

/-- The value as a field of a document; bytes are a text in UTF-8. -/
def text (check : Json → Checked Text) : Raw → Checked Text
  | .value v => check v
  | .bytes b =>
    match Utf8.decode b with
    | .ok t => check (.str t)
    | .error _ => .reject .stringUnicode

end Raw

structure RawStatistics where
  total : Option Raw
  files : Option Raw

/-- A commit, of which all but the hash may fail to be read. -/
structure RawCommit where
  /-- The hash, or why it cannot be read. -/
  hash : Except Text Raw
  message : Option Raw
  author : Option Raw
  authored : Option DateTime
  /-- Nothing when they cannot be read or are not there. -/
  statistics : Option RawStatistics

/-- Why a commit is not found. -/
inductive ResolutionError where
  | noName (name : Text)
  | noObject (hash : Text)
  | refused (reason : Text)
  /-- An error of extraction itself. -/
  | own (message : Text)
  /-- A failure of another kind, which is passed on. -/
  | crashed (message : Text)
  deriving DecidableEq

structure Repository where
  detached : Bool
  branch : Option Raw
  workingTree : Option Raw
  commit : Except ResolutionError RawCommit

/-- Why no commit is extracted. -/
inductive ExtractionError where
  | noRepository (path : Text)
  | unresolved (reference reason : Text)
  | own (message : Text)
  | crashed (message : Text)
  /-- A count that is no number. -/
  | count (e : ConversionError)
  | rejected (r : Rejection)
  deriving DecidableEq

namespace ExtractionError

def message : ExtractionError → Text
  | .noRepository path => ("Invalid Git repository: " : Text) ++ path
  | .unresolved reference reason =>
    ("Cannot resolve commit " : Text) ++ reference ++ (": " : Text) ++ reason
  | .own message => message
  | .crashed message => message
  | .count e => e.integerMessage
  | .rejected r => r.headline "CommitEvent"

end ExtractionError

namespace Extraction

/-! ## Values of fields -/

/-- A value as text: texts as they are, all else as it is displayed. -/
def textOfValue : Json → Text
  | .str t => t
  | v => Json.display v

/-- A message, with U+FFFD for what is no UTF-8. -/
def messageText : Raw → Text
  | .value v => textOfValue v
  | .bytes b => Utf8.decodeLossy b

def items? : Raw → Option (List Json)
  | .value (.arr items) => some items
  | .value (.obj members) => some (members.map fun m => .str m.1)
  | .value (.str t) => some (t.map fun c => .str [c])
  | .value _ => none
  | .bytes b => some (b.map fun x => .int x.toNat)

/-- The paths of a commit; none when they cannot be listed. -/
def pathsOf (files : Option Raw) : List Text :=
  ((files.bind items?).getD []).map textOfValue

/-- A name and a value from an item that holds two. -/
def pair? (item : Json) : Option (Json × Json) :=
  match items? (.value item) with
  | some [.arr _, _] => none
  | some [.obj _, _] => none
  | some [k, v] => some (k, v)
  | _ => none

/-- The totals under their names; none when they are no pairs. -/
def totalsOf (total : Option Raw) : Json.Members :=
  match total with
  | some (.value (.obj members)) => members
  | some raw =>
    match (items? raw).bind fun items => items.mapM pair? with
    | some pairs => Json.Members.ofList (pairs.filterMap fun p =>
        match p.1 with
        | .str name => some (name, p.2)
        | _ => none)
    | none => []
  | none => []

/-- The last component of the path of the working tree. -/
def repositoryName (workingTree : Option Raw) : Text :=
  match workingTree with
  | some (.value (.str path)) => if path.isEmpty then unknownName else (PathName.ofText path).name
  | _ => unknownName

/-! ## Commits -/

def reasonOf : ResolutionError → Text
  | .noName name => ("Ref '" : Text) ++ name ++ ("' did not resolve to an object" : Text)
  | .noObject hash => ("BadObject: b'" : Text) ++ hash ++ ("'" : Text)
  | .refused reason => reason
  | .own message => message
  | .crashed message => message

/-- The commit under a reference, with its hash. -/
def resolve (r : Repository) (reference : Text) : Except ExtractionError (RawCommit × Raw) :=
  match r.commit with
  | .error (.own message) => .error (.own message)
  | .error (.crashed message) => .error (.crashed message)
  | .error e => .error (.unresolved reference (reasonOf e))
  | .ok c =>
    match c.hash with
    | .ok hash => .ok (c, hash)
    | .error message => .error (.crashed message)

/-- A total, or a default where there is none. -/
def total (totals : Json.Members) (name : Text) (default : Nat) : Except ExtractionError Json :=
  match ((totals.get? name).getD (.int default)).toInt with
  | .ok n => .ok (.int n)
  | .error e => .error (.count e)

/-- The name that a field is read from; one that cannot be read is unknown. -/
def nameField (field : Text) (raw : Option Raw) : Checked Text :=
  match raw with
  | some raw => (raw.text fun v => (Field.text v).map nameOrUnknown).under (.name field)
  | none => .accept unknownName

/-- The commit that a repository holds under a reference.  Its phase is open. -/
def extract (now : DateTime) (r : Repository) (reference : Text) :
    Except ExtractionError Commit := do
  let (c, hash) ← resolve r reference
  let totals := totalsOf (c.statistics.bind RawStatistics.total)
  let paths := pathsOf (c.statistics.bind RawStatistics.files)
  let files ← total totals "files" paths.length
  let added ← total totals "insertions" 0
  let removed ← total totals "deletions" 0
  let branch := if r.detached then none else r.branch
  let authored := (c.authored.bind DateTime.toUtc?).getD now
  let repository := nameOrUnknown (repositoryName r.workingTree)
  let count (field : Text) (v : Json) : Checked Nat := (Field.count v).under (.name field)
  let commit : Checked Commit :=
    (fun hash branch files added removed author occurredAt =>
      { hash := hash, branch := branch, message := (c.message.map messageText).getD []
        phase := none, filesChanged := files, linesAdded := added, linesRemoved := removed
        changedPaths := paths, author := author, repository := repository
        occurredAt := occurredAt, cycleDuration := none })
      <$> (hash.text Field.nonEmptyText).under (.name "commit_hash")
      <*> nameField "branch" branch
      <*> count "files_changed" files
      <*> count "lines_added" added
      <*> count "lines_removed" removed
      <*> nameField "author" c.author
      <*> match authored.toUtc? with
          | some t => Checked.accept t
          | none => Checked.overflow
  match commit with
  | .ok commit => return commit
  | .error e => .error (.rejected e)

end Extraction

end RedGreen
