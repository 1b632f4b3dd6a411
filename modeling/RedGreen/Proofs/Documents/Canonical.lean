import RedGreen.Proofs.Documents
import RedGreen.Proofs.Json.Numerals
import RedGreen.Proofs.Json.Received
import RedGreen.Proofs.Json.Sameness

/-!
# One file for every document

Writing picks one text for every document: the members of all objects stand in the order of their
names and everything but ASCII is escaped.  So documents that are the same give the same file, other
documents give another one, and a file that is read and written again stays as it is.
-/

namespace RedGreen

namespace Json

/-! ## What a document can hold -/

/-- What a document can hold: objects with every name once, texts without the two halves of a
character side by side (all texts of characters are such), and integers that have numerals. -/
structure Storable (v : Json) : Prop where
  named : WellNamed v
  texts : ∀ t ∈ strings v, t.Joinless
  numerals : v.hasNumerals = true

section

variable {v w : Json}

theorem Storable.within (storable : v.Storable) : WithinLimits (nesting v) v :=
  ⟨Nat.le_refl _, longNumeral?_of_numerals v (List.all_eq_true.mp storable.numerals)⟩

/-- The document of a value writes its sorted form. -/
theorem Storable.spelled (storable : v.Storable) : Spelled .document v.sorted (document v) := by
  have kept := kept_joined v storable.named
  rw [joined_of_joinless v storable.texts] at kept
  exact spelled_indented .document 0 v.sorted (kept_sorted v kept)

theorem Storable.read_document (storable : v.Storable) (shallow : nesting v ≤ depthLimit) :
    read (document v) = .ok v.sorted := by
  have back := read_document_joined storable.named (storable.within.weaken shallow)
  rwa [joined_of_joinless v storable.texts] at back

end

end Json

namespace Document

open Json (Members Storable)

/-- A file that holds a document, by the text `t` and in the form `w`. -/
structure Keeps (g : Disk.File) (d w : Members) (t : Text) : Prop where
  content : g.node = .regular (Utf8.encode t)
  ascii : ∀ c ∈ t, c.val < 0x80
  /-- The members stand in the text in the order in which they stand in the form. -/
  spelled : Json.Spelled .document (.obj w) t
  ordered : (Json.obj w).Ordered
  same : Json.Same (.obj d) (.obj w)
  /-- The reader limits how deep a document may be nested. -/
  back : Json.nesting (.obj d) ≤ Json.depthLimit → read g = .ok w
  again : write g (.obj w) = .ok g

/-- Members out of order, an empty object, a number that is not finite and a character that is
written as two halves. -/
def sampleDocument : Members :=
  [("b", .arr [.obj [], .float (.infinite true), .null]),
   ("a", .obj [("z", .int (-5)), ("y", .str [CodePoint.ofNat 0x1F680])])]

end Document

end RedGreen
