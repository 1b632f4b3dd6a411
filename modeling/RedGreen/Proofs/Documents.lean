import RedGreen.Document
import RedGreen.Proofs.Json.Characters
import RedGreen.Proofs.Text.Utf8

/-!
# Documents written and read

A file whose place is free takes any document, and is then read as the text of that document: a
document is ASCII alone, so it can always be encoded.
-/

namespace RedGreen

namespace Document

theorem acquire_eq {f : Disk.File} (reachable : f.blocked = false) (timeout : Binary64) :
    acquire f timeout = if f.held then .error (.lockBusy f.lockPath timeout) else .ok () := by
  rw [acquire, reachable]
  rfl

theorem read_of_regular {f : Disk.File} {content : Bytes} (regular : f.node = .regular content)
    (reachable : f.blocked = false) : read f = match Utf8.decode content with
      | .error e => .error (.undecodable e)
      | .ok t => ofText t := by
  rw [read, Disk.File.content?, Disk.File.visibleNode, reachable, regular]
  rfl

theorem write_eq {f : Disk.File} (reachable : f.blocked = false)
    (replaceable : f.node ≠ .directory) (v : Json) :
    write f v = .ok { f with node := .regular (bytesOf v) } := by
  have replaced : f.replace (bytesOf v) = .ok { f with node := .regular (bytesOf v) } := by
    rw [Disk.File.replace, reachable]
    cases node : f.node with
    | directory => exact absurd node replaceable
    | missing | regular _ | fullDevice => rfl
  rw [write, replaced]

theorem read_written {f : Disk.File} (reachable : f.blocked = false) (v : Json) :
    read { f with node := .regular (bytesOf v) } = ofText (Json.document v) := by
  have decoded : Utf8.decode (bytesOf v) = .ok (Json.document v) :=
    Utf8.decode_encode (Json.isScalar_document v)
  have written := read_of_regular (f := { f with node := .regular (bytesOf v) }) rfl reachable
  rw [written, decoded]

end Document

end RedGreen
