import RedGreen.Record
import RedGreen.Proofs.Json.Characters
import RedGreen.Proofs.Time.Stamps

/-!
# Records checked again

The members of a record are accepted by the checks that make a record from a document, each as
the value it was written from, and a member that was left out is given back by its default.
-/

namespace RedGreen

namespace Field

theorem required_of_get? {name : Text} {check : Json → Checked α} {document : Json.Members}
    {v : Json} {a : α} (found : document.get? name = some v) (accepts : check v = .ok a) :
    required name check document = .ok a := by
  rw [required, found]
  show (check v).under (.name name) = .ok a
  rw [accepts]
  rfl

theorem optional_of_get? {name : Text} {default : α} {check : Json → Checked α}
    {document : Json.Members} {v : Json} {a : α} (found : document.get? name = some v)
    (accepts : check v = .ok a) : optional name default check document = .ok a := by
  rw [optional, found]
  show (check v).under (.name name) = .ok a
  rw [accepts]
  rfl

/-- A member that is written only when there is a value stands for the value either way. -/
theorem optional_of_map {name : Text} {check : Json → Checked α} {document : Json.Members}
    {x : Option α} {f : α → Json} (found : document.get? name = x.map f)
    (accepts : ∀ a ∈ x, orNull check (f a) = .ok (some a)) :
    optional name none (orNull check) document = .ok x := by
  cases x with
  | none =>
    rw [optional, found]
    rfl
  | some a => exact optional_of_get? found (accepts a rfl)

end Field

/-! ## Times -/

namespace DateTime

theorem isPlain_offsetSign (o : Int) : (offsetSign o).IsPlain := by
  rw [offsetSign]
  split <;> decide

theorem isPlain_clockText (t : DateTime) : t.clockText.IsPlain := by
  have fraction : ∀ n,
      Text.IsPlain (if n = 0 then [] else CodePoint.ofChar '.' :: Text.padNat 6 n) := by
    intro n
    split
    · exact Text.isPlain_nil
    · exact Text.isPlain_cons.mpr ⟨by decide, Text.isPlain_padNat _ _⟩
  have dash : (CodePoint.ofChar '-').IsPlain := by decide
  have colon : (CodePoint.ofChar ':').IsPlain := by decide
  have mark : (CodePoint.ofChar 'T').IsPlain := by decide
  rw [clockText, dateText, timeText]
  simp only [Text.isPlain_cons, Text.isPlain_append, Text.isPlain_padNat, dash, colon, mark,
    fraction, and_true]

theorem isPlain_stamp (t : DateTime) : t.stamp.IsPlain := by
  rw [stamp]
  refine Text.isPlain_append.mpr ⟨t.isPlain_clockText, ?_⟩
  cases t.offset with
  | none => exact Text.isPlain_nil
  | some o =>
    dsimp only
    split
    · decide
    · simp only [List.cons_append, Text.isPlain_cons, Text.isPlain_append, Text.isPlain_padNat,
        isPlain_offsetSign, and_true]
      decide

theorem isPlain_iso (t : DateTime) : t.iso.IsPlain := by
  have colon : (CodePoint.ofChar ':').IsPlain := by decide
  rw [iso]
  refine Text.isPlain_append.mpr ⟨t.isPlain_clockText, ?_⟩
  cases t.offset with
  | none => exact Text.isPlain_nil
  | some o =>
    dsimp only
    refine Text.isPlain_append.mpr ⟨?_, ?_⟩
    · exact Text.isPlain_cons.mpr ⟨isPlain_offsetSign o, Text.isPlain_append.mpr
        ⟨Text.isPlain_padNat _ _, Text.isPlain_cons.mpr ⟨colon, Text.isPlain_padNat _ _⟩⟩⟩
    split
    · exact Text.isPlain_nil
    · exact Text.isPlain_cons.mpr ⟨colon, Text.isPlain_padNat _ _⟩

end DateTime

/-- A time is accepted from its stamp. -/
theorem Field.dateTime_stamp {t : DateTime} (minutes : t.OnMinutes) :
    Field.dateTime (.str t.stamp) = .ok t := by
  have scalar := t.isPlain_stamp.isScalar
  rw [Field.dateTime, if_neg (not_not_intro scalar), DateTime.read_stamp minutes]
  rfl

namespace Phase

theorem isPlain_name (p : Phase) : p.name.IsPlain := by
  cases p <;> decide

theorem check_name (p : Phase) : check (.str p.name) = .ok p := by
  cases p <;> rfl

end Phase

namespace CycleStatus

theorem isPlain_name (s : CycleStatus) : s.name.IsPlain := by
  cases s <;> decide

theorem check_name (s : CycleStatus) : check (.str s.name) = .ok s := by
  cases s <;> rfl

end CycleStatus

end RedGreen
