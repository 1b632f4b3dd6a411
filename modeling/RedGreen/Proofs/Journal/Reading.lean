import RedGreen.Journal
import RedGreen.Proofs.Record.Clocks
import RedGreen.Proofs.Record.Lines
import Mathlib.Data.List.Forall2

/-!
# What a journal reads as

The bytes of a journal are cut into lines at line feeds, so the records in front of a line feed do
not depend on what stands behind it.  Nothing in front of it, not even a torn character, reaches
over.
-/

namespace RedGreen

/-! ## Lines -/

namespace Journal

theorem lines_eq_proseLines (content : Bytes) :
    lines content = Text.proseLines (Utf8.decodeLossy content) := rfl

theorem lines_nil : lines [] = [] := by
  have empty : Utf8.decodeLossy [] = [] := by
    rw [Utf8.decodeLossy]
  rw [lines_eq_proseLines, empty]
  rfl

theorem lines_append_lineFeed (a b : Bytes) : lines (a ++ lineFeed :: b) = lines a ++ lines b := by
  have decoded : Utf8.decodeLossy (a ++ lineFeed :: b) =
      Utf8.decodeLossy a ++ Utf8.lineFeedPoint :: Utf8.decodeLossy b :=
    Utf8.decodeLossy_append_lineFeed a b
  rw [lines_eq_proseLines, decoded,
    Text.proseLines_append_lineFeed (by decide) (by decide)]
  rfl

/-- The line of a record is one line of a journal. -/
theorem lines_encode_line {r : Record} (unicode : r.IsUnicode) :
    lines (Utf8.encode (Json.compact .line r.toJson)) = [Json.compact .line r.toJson] := by
  have single : Text.IsLine (Json.compact .line r.toJson) := Json.isLine_compact _
  have decoded := Utf8.decodeLossy_encode_append (Record.isScalar_line unicode) []
  obtain ⟨t, shape⟩ := r.line_shape
  rw [lines_eq_proseLines]
  rw [List.append_nil, Utf8.decodeLossy, List.append_nil] at decoded
  rw [decoded, shape]
  rw [shape] at single
  exact Text.proseLines_of_isLine (by decide) (by decide) single

/-! ## Contents whose last line is complete -/

/-- A content after which a new line begins. -/
def IsClosed (content : Bytes) : Prop :=
  ∀ more, lines (content ++ more) = lines content ++ lines more

theorem isClosed_nil : IsClosed [] := fun more => by
  rw [lines_nil, List.nil_append, List.nil_append]

theorem isClosed_lineFeed (front : Bytes) : IsClosed (front ++ [lineFeed]) := by
  intro more
  rw [List.append_assoc, List.singleton_append, lines_append_lineFeed, lines_append_lineFeed,
    lines_nil, List.append_nil]

theorem closing_eq (content : Bytes) :
    closing content =
      if content = [] ∨ content.getLast? = some lineFeed then [] else [lineFeed] := by
  cases last : content.getLast? with
  | none =>
    rw [closing, last, if_pos (.inl (List.getLast?_eq_none_iff.mp last))]
  | some b =>
    have nonempty : content ≠ [] := by
      rintro rfl
      cases last
    simp [closing, last, nonempty]

/-- Closing a content adds no line. -/
theorem lines_closing (content : Bytes) : lines (content ++ closing content) = lines content := by
  rw [closing_eq]
  split
  next => rw [List.append_nil]
  next => rw [lines_append_lineFeed, lines_nil, List.append_nil]

theorem isClosed_closing (content : Bytes) : IsClosed (content ++ closing content) := by
  rw [closing_eq]
  split
  next complete =>
    rw [List.append_nil]
    cases complete with
    | inl empty =>
      rw [empty]
      exact isClosed_nil
    | inr last =>
      obtain ⟨front, rfl⟩ := List.getLast?_eq_some_iff.mp last
      exact isClosed_lineFeed front
  next => exact isClosed_lineFeed content

/-- An entry is one line, whatever stands in front of it and behind it. -/
theorem lines_entry {r : Record} (unicode : r.IsUnicode) (content more : Bytes) :
    lines (content ++ entry content (Json.compact .line r.toJson) ++ more) =
      lines content ++ Json.compact .line r.toJson :: lines more := by
  -- The old content is closed first; then the entry is a line of its own.
  have cut : content ++ entry content (Json.compact .line r.toJson) ++ more =
      content ++ closing content ++
        (Utf8.encode (Json.compact .line r.toJson) ++ lineFeed :: more) := by
    simp [entry]
  rw [cut, isClosed_closing content, lines_closing, lines_append_lineFeed,
    lines_encode_line unicode]
  rfl

/-! ## Records -/

/-- The records of a content. -/
def recordsIn (now : DateTime) (content : Bytes) : Except LineError (List Record) :=
  recordsOfLines now (lines content)

theorem recordsIn_nil (now : DateTime) : recordsIn now [] = .ok [] := by
  rw [recordsIn, lines_nil]
  rfl

theorem recordsOfLines_append (now : DateTime) (first second : List Text) :
    recordsOfLines now (first ++ second) = (do
      let front ← recordsOfLines now first
      let back ← recordsOfLines now second
      pure (front ++ back)) := by
  induction first with
  | nil =>
    rw [List.nil_append, recordsOfLines]
    cases recordsOfLines now second <;> rfl
  | cons line first ih =>
    rw [List.cons_append, recordsOfLines, recordsOfLines, ih]
    cases recordOfLine now line with
    | error e => rfl
    | ok r =>
      cases recordsOfLines now first with
      | error e => rfl
      | ok front =>
        cases recordsOfLines now second with
        | error e => rfl
        | ok back =>
          show Except.ok (r.toList ++ (front ++ back)) = Except.ok (r.toList ++ front ++ back)
          rw [List.append_assoc]

theorem recordsOfLines_cons_of_ok {now : DateTime} {line : Text} {r : Record}
    (parsed : Record.ofLine now line = .ok r) (more : List Text) :
    recordsOfLines now (line :: more) = (r :: ·) <$> recordsOfLines now more := by
  rw [recordsOfLines, recordOfLine, parsed]
  cases recordsOfLines now more <;> rfl

/-! ## Reading again -/

theorem recordOfLine_later {now : DateTime} {line : Text} {x : Option Record} (later : DateTime)
    (read : recordOfLine now line = .ok x) :
    ∃ y, recordOfLine later line = .ok y ∧
      List.Forall₂ (Record.SameButClock now later) x.toList y.toList := by
  cases parsed : Record.ofLine now line with
  | ok r =>
    obtain ⟨s, again, same⟩ := Record.ofLine_later later parsed
    rw [recordOfLine, parsed] at read
    cases read
    exact ⟨some s, by rw [recordOfLine, again], .cons same .nil⟩
  | error e =>
    -- The clock is a default, so it makes no difference to a line that fails.
    have again : Record.ofLine later line = .error e := by
      cases Record.ofLine_clock line with
      | inl said => rw [said now later, parsed]
      | inr unsaid =>
        rw [unsaid now later, parsed]
        rfl
    -- Of the failures only the passed-over ones leave a result.
    have none : x = none := by
      unfold recordOfLine at read
      rw [parsed] at read
      split at read
      next ok => cases ok
      next => cases read
      next => cases read
      next => exact (Except.ok.inj read).symm
    subst none
    refine ⟨none, ?_, .nil⟩
    rw [← read, recordOfLine, recordOfLine, parsed, again]

/-- A journal that can be read can be read at any time, with the same records but for when those
that do not say it were logged. -/
theorem recordsOfLines_later {now : DateTime} (later : DateTime) {ls : List Text}
    {rs : List Record} (read : recordsOfLines now ls = .ok rs) :
    ∃ ss, recordsOfLines later ls = .ok ss ∧
      List.Forall₂ (Record.SameButClock now later) rs ss := by
  induction ls generalizing rs with
  | nil =>
    cases read
    exact ⟨[], rfl, .nil⟩
  | cons line ls ih =>
    rw [recordsOfLines] at read
    cases first : recordOfLine now line with
    | error e =>
      rw [first] at read
      cases read
    | ok x =>
      cases rest : recordsOfLines now ls with
      | error e =>
        rw [first, rest] at read
        cases read
      | ok more =>
        rw [first, rest] at read
        cases read
        obtain ⟨y, firstAgain, sameFirst⟩ := recordOfLine_later later first
        obtain ⟨ss, restAgain, sameRest⟩ := ih rest
        refine ⟨y.toList ++ ss, ?_, List.rel_append sameFirst sameRest⟩
        rw [recordsOfLines, firstAgain, restAgain]

end Journal

namespace Disk.File

/-- The bytes that a reader finds; a missing file has none. -/
def bytes (f : File) : Bytes :=
  match f.visibleNode with
  | .regular content => content
  | _ => []

end Disk.File

namespace Journal

theorem records_eq (now : DateTime) {f : Disk.File} (readable : f.visibleNode ≠ .directory) :
    records now f = (recordsIn now f.bytes).mapError .line := by
  unfold records Disk.File.content? Disk.File.bytes
  cases node : f.visibleNode with
  | missing =>
    show Except.ok [] = (recordsIn now []).mapError ReadError.line
    rw [recordsIn_nil]
    rfl
  | regular content =>
    rw [recordsIn]
    cases read : recordsOfLines now (lines content) <;> simp only [read, Except.mapError]
  | directory => exact absurd node readable
  | fullDevice =>
    rw [recordsIn]
    cases read : recordsOfLines now (lines []) <;> simp only [read, Except.mapError]

theorem ok_of_mapError {f : ε → ε'} {x : Except ε α} {a : α} (returned : x.mapError f = .ok a) :
    x = .ok a := by
  cases x with
  | error e => cases returned
  | ok b =>
    cases returned
    rfl

theorem readable_of_records {now : DateTime} {f : Disk.File} {rs : List Record}
    (returned : records now f = .ok rs) : f.visibleNode ≠ .directory := by
  intro directory
  rw [records, Disk.File.content?, directory] at returned
  cases returned

theorem records_eq_ok {now : DateTime} {f : Disk.File} {rs : List Record}
    (returned : records now f = .ok rs) : recordsIn now f.bytes = .ok rs := by
  rw [records_eq now (readable_of_records returned)] at returned
  exact ok_of_mapError returned

end Journal

end RedGreen
