import RedGreen.Proofs.Record.RoundTrip
import RedGreen.Proofs.Text.Lines
import RedGreen.Proofs.Text.Utf8

/-!
# The line of a record as a text and as bytes

A line begins and ends with a brace and holds no line end, so trimming leaves it whole, and it
holds no half of a surrogate pair, so it can be encoded.
-/

namespace RedGreen

namespace Record

/-- A line begins with a brace and ends with one, so it has no blanks at its ends. -/
theorem line_shape (r : Record) : ∃ t, Json.compact .line r.toJson =
    CodePoint.ofChar '\x7b' :: t ++ [CodePoint.ofChar '\x7d'] :=
  ⟨_, rfl⟩

theorem isScalar_line {r : Record} (unicode : r.IsUnicode) :
    Text.IsScalar (Json.compact .line r.toJson) :=
  Json.isScalar_compact rfl Json.plainNumbers_line (isScalar_strings unicode)

theorem trim_line (r : Record) :
    Text.trim (Json.compact .line r.toJson ++ [CodePoint.ofChar '\n']) =
      Json.compact .line r.toJson := by
  obtain ⟨t, shape⟩ := r.line_shape
  rw [shape]
  exact Text.trim_append_blank (by decide) (by decide) (by decide)

theorem decode_line {r : Record} (unicode : r.IsUnicode) :
    Utf8.decode (Utf8.encode (Json.compact .line r.toJson ++ [CodePoint.ofChar '\n'])) =
      .ok (Json.compact .line r.toJson ++ [CodePoint.ofChar '\n']) := by
  refine Utf8.decode_encode (List.forall_mem_append.mpr ⟨isScalar_line unicode, ?_⟩)
  exact List.forall_mem_singleton.mpr (by decide)

/-- The half minute is lost. -/
theorem ofLine_offMinute : ofLine offMinute.loggedAt (Json.compact .line offMinute.toJson) =
    .ok { offMinute with loggedAt := ⟨1704067200000000, some 0, by decide, by decide⟩ } := by
  decide +kernel

theorem offMinute_lost :
    offMinute ≠ { offMinute with loggedAt := ⟨1704067200000000, some 0, by decide, by decide⟩ } := by
  intro same
  exact absurd (congrArg (fun r => r.loggedAt.offset) same) (by decide)

end Record

end RedGreen
