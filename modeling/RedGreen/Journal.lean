import RedGreen.Disk
import RedGreen.Record

/-!
# The journal

The journal is a file of records, one a line, that only ever grows.  A torn line at its end is
closed before the next record is added, and a line that is no record is passed over.
-/

namespace RedGreen

namespace Journal

/-- Why a record was not added. -/
inductive AppendError where
  | cannotOpen (path : Text) (fault : Disk.Fault)
  | cannotAppend (path : Text) (fault : Disk.Fault)
  | unwritable (e : EncodeError)
  deriving DecidableEq

namespace AppendError

def message : AppendError → Text
  | .cannotOpen path fault => ("Cannot open " : Text) ++ path ++ (": " : Text) ++ fault.message
  | .cannotAppend path fault =>
    ("Cannot append to " : Text) ++ path ++ (": " : Text) ++ fault.message
  | .unwritable e => Record.lineErrorMessage e

end AppendError

def lineFeed : UInt8 := 10

/-- A line feed, when the content ends in the middle of a line. -/
def closing (content : Bytes) : Bytes :=
  match content.getLast? with
  | none => []
  | some b => if b = lineFeed then [] else [lineFeed]

/-- The bytes that one record adds behind a content. -/
def entry (content : Bytes) (line : Text) : Bytes :=
  closing content ++ Utf8.encode line ++ [lineFeed]

def append (f : Disk.File) (r : Record) : Except AppendError Disk.File :=
  match r.toLine with
  | .error e => .error (.unwritable e)
  | .ok line =>
    if f.blocked then .error (.cannotOpen f.path (.fileExists f.directory))
    else match f.node with
      | .directory => .error (.cannotOpen f.path (.isDirectory f.path))
      | .fullDevice => .error (.cannotAppend f.path .noSpace)
      | .missing => .ok { f with node := .regular (entry [] line) }
      | .regular content => .ok { f with node := .regular (content ++ entry content line) }

/-- The lines of a content that are not blank, without blanks around them. -/
def lines (content : Bytes) : List Text :=
  ((Text.splitLines (Utf8.decodeLossy content)).map Text.trim).filter fun t => !t.isEmpty

/-- The record of a line, if it is one; `none` for a line that is passed over.  Two kinds of
line are not passed over but stop the reader. -/
def recordOfLine (now : DateTime) (line : Text) : Except LineError (Option Record) :=
  match Record.ofLine now line with
  | .ok r => .ok (some r)
  | .error (.json .tooDeep) => .error (.json .tooDeep)
  | .error (.rejected .overflow) => .error (.rejected .overflow)
  | .error _ => .ok none

def recordsOfLines (now : DateTime) : List Text → Except LineError (List Record)
  | [] => .ok []
  | line :: more =>
    match recordOfLine now line with
    | .error e => .error e
    | .ok r =>
      match recordsOfLines now more with
      | .error e => .error e
      | .ok rs => .ok (r.toList ++ rs)

/-- Why the journal cannot be read. -/
inductive ReadError where
  | disk (fault : Disk.Fault)
  | line (e : LineError)
  deriving DecidableEq

/-- All records, in the order of their lines. -/
def records (now : DateTime) (f : Disk.File) : Except ReadError (List Record) :=
  match f.content? with
  | .error fault => .error (.disk fault)
  | .ok none => .ok []
  | .ok (some content) =>
    match recordsOfLines now (lines content) with
    | .ok rs => .ok rs
    | .error e => .error (.line e)

/-- The last `n` of a list, and nothing when `n` is not positive. -/
def lastOf (n : Int) (rs : List α) : List α := rs.drop (rs.length - n.toNat)

/-- The records, or only the last of them when there is a limit. -/
def read (now : DateTime) (f : Disk.File) (limit : Option Int) : Except ReadError (List Record) :=
  match limit with
  | some n => (records now f).map (lastOf n)
  | none => records now f

/-- How many of the lines are records; the records themselves are not kept. -/
def countOfLines (now : DateTime) : List Text → Except LineError Nat
  | [] => .ok 0
  | line :: more =>
    match recordOfLine now line with
    | .error e => .error e
    | .ok r =>
      match countOfLines now more with
      | .error e => .error e
      | .ok n => .ok (r.toList.length + n)

def count (now : DateTime) (f : Disk.File) : Except ReadError Nat :=
  match f.content? with
  | .error fault => .error (.disk fault)
  | .ok none => .ok 0
  | .ok (some content) => (countOfLines now (lines content)).mapError .line

end Journal

end RedGreen
