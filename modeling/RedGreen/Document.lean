import RedGreen.Disk
import RedGreen.Json.Reader
import RedGreen.Json.Printer

/-!
# Documents on disk

A document is a JSON object in a file of its own, guarded by a lock beside it.  A file that is
missing or holds no JSON object reads as the empty document; writing replaces the whole file.
-/

namespace RedGreen

namespace Document

/-- Why a document cannot be locked, read or written. -/
inductive Fault where
  | lockFile (lockPath : Text) (fault : Disk.Fault)
  | lockBusy (lockPath : Text) (timeout : Binary64)
  | unreadable (path : Text) (fault : Disk.Fault)
  | unwritable (path : Text) (fault : Disk.Fault)
  | undecodable (e : DecodeError)
  | tooManyDigits (count : Nat)
  | tooDeep
  deriving DecidableEq

namespace Fault

def message : Fault → Text
  | .lockFile lockPath fault =>
    ("Cannot open lock file " : Text) ++ lockPath ++ (": " : Text) ++ fault.message
  | .lockBusy lockPath timeout =>
    ("State lock " : Text) ++ lockPath ++ (" busy after " : Text) ++ timeout.writeFixed 2 ++
      ("s" : Text)
  | .unreadable path fault =>
    ("Cannot read " : Text) ++ path ++ (": " : Text) ++ fault.message
  | .unwritable path fault =>
    ("Cannot write " : Text) ++ path ++ (": " : Text) ++ fault.message
  | .undecodable e => e.message
  | .tooManyDigits count => (Json.ReadError.tooManyDigits count).message
  | .tooDeep => Json.ReadError.tooDeep.message

end Fault

/-- Whether the lock can be taken within the given number of seconds. -/
def acquire (f : Disk.File) (timeout : Binary64) : Except Fault Unit :=
  if f.blocked then .error (.lockFile f.lockPath (.fileExists f.directory))
  else if f.held then .error (.lockBusy f.lockPath timeout)
  else .ok ()

/-- The document that a text holds; anything but an object counts as empty. -/
def ofText (t : Text) : Except Fault Json.Members :=
  match Json.read t with
  | .ok (.obj members) => .ok members
  | .ok _ => .ok []
  | .error (.malformed ..) => .ok []
  | .error (.tooManyDigits count) => .error (.tooManyDigits count)
  | .error .tooDeep => .error .tooDeep

def read (f : Disk.File) : Except Fault Json.Members :=
  match f.content? with
  | .error fault => .error (.unreadable f.path fault)
  | .ok none => .ok []
  | .ok (some bytes) =>
    match Utf8.decode bytes with
    | .error e => .error (.undecodable e)
    | .ok t => ofText t

def bytesOf (v : Json) : Bytes := Utf8.encode (Json.document v)

/-- Replaces the document in a file. -/
def write (f : Disk.File) (v : Json) : Except Fault Disk.File :=
  match f.replace (bytesOf v) with
  | .ok f' => .ok f'
  | .error fault => .error (.unwritable f.path fault)

end Document

end RedGreen
