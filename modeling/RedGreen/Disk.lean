import RedGreen.Text.Printable
import RedGreen.Text.Utf8

/-!
# Files

A watched file is a value: what stands at its path, whether its directory can be made, and
whether someone else holds the lock beside it.  Operations take the file as it is and return it
as it becomes; nothing else about the disk can be observed.
-/

namespace RedGreen

namespace Disk

inductive Node where
  | missing
  | regular (content : Bytes)
  | directory
  /-- A device that accepts no byte. -/
  | fullDevice
  deriving DecidableEq

inductive Fault where
  | fileExists (path : Text)
  | isDirectory (path : Text)
  | renameOntoDirectory (source target : Text)
  | noSpace
  | noSuchFile (path : Text)
  deriving DecidableEq

namespace Fault

def message : Fault → Text
  | .fileExists path => ("[Errno 17] File exists: " : Text) ++ path.quoted
  | .isDirectory path => ("[Errno 21] Is a directory: " : Text) ++ path.quoted
  | .renameOntoDirectory source target =>
    ("[Errno 21] Is a directory: " : Text) ++ source.quoted ++ (" -> " : Text) ++ target.quoted
  | .noSpace => "[Errno 28] No space left on device"
  | .noSuchFile path => ("[Errno 2] No such file or directory: " : Text) ++ path.quoted

end Fault

/-- A watched file. -/
structure File where
  directory : Text
  name : Text
  node : Node
  /-- A regular file stands in place of the directory. -/
  blocked : Bool
  held : Bool

namespace File

/-- A file that does not exist yet, in a directory that can be made. -/
def fresh (directory name : Text) : File := ⟨directory, name, .missing, false, false⟩

def path (f : File) : Text := f.directory ++ CodePoint.ofChar '/' :: f.name

/-- The lock beside the file. -/
def lockPath (f : File) : Text := f.path ++ (".lock" : Text)

/-- The name under which a new content is written before it takes the place of the old; the
part between the marks is chosen at random. -/
def draftPath (f : File) : Text :=
  f.directory ++ ("/." : Text) ++ f.name ++ (".<rand>.tmp" : Text)

/-- Nothing can be reached through a regular file in place of the directory. -/
def visibleNode (f : File) : Node := if f.blocked then .missing else f.node

/-- The content, when there is a file. -/
def content? (f : File) : Except Fault (Option Bytes) :=
  match f.visibleNode with
  | .missing => .ok none
  | .regular bytes => .ok (some bytes)
  | .directory => .error (.isDirectory f.path)
  | .fullDevice => .ok (some [])

/-- Puts a new content in place of the old one, all at once. -/
def replace (f : File) (bytes : Bytes) : Except Fault File :=
  if f.blocked then .error (.fileExists f.directory)
  else match f.node with
    | .directory => .error (.renameOntoDirectory f.draftPath f.path)
    | _ => .ok { f with node := .regular bytes }

def overwrite (f : File) (bytes : Bytes) : Except Fault File :=
  if f.blocked then .error (.fileExists f.directory)
  else match f.node with
    | .directory => .error (.isDirectory f.path)
    | .fullDevice => .error .noSpace
    | _ => .ok { f with node := .regular bytes }

def extend (f : File) (bytes : Bytes) : Except Fault File :=
  match f.node with
  | .regular old => f.overwrite (old ++ bytes)
  | _ => f.overwrite bytes

end File

end Disk

end RedGreen
