import RedGreen.Extraction
import RedGreen.Proofs.Cycle.Entries
import RedGreen.Proofs.Text.Trimming

/-!
# What is known of a commit that was read

Whatever the repository holds, a commit that is read has a hash that can be encoded, names without
blanks around them, a time in UTC and neither a phase nor a duration yet.
-/

namespace RedGreen

namespace Raw

theorem text_nonEmptyText {raw : Raw} {t : Text} (accepted : raw.text Field.nonEmptyText = .ok t) :
    t.IsScalar ∧ t ≠ [] := by
  cases raw with
  | value v => exact (Field.nonEmptyText_eq_ok_iff.mp accepted).2
  | bytes b =>
    rw [text] at accepted
    split at accepted
    next => exact (Field.nonEmptyText_eq_ok_iff.mp accepted).2
    next => cases accepted

end Raw

/-- A name as a commit holds it: there is something to see, and no blanks are around it. -/
structure IsName (t : Text) : Prop where
  trimmed : t.trim = t
  visible : t.isBlank = false

theorem isName_unknownName : IsName unknownName := ⟨by decide, by decide⟩

theorem isName_nameOrUnknown (t : Text) : IsName (nameOrUnknown t) := by
  rw [nameOrUnknown]
  split
  next => exact isName_unknownName
  next visible =>
    have trimmed : t.trim.trim = t.trim := Text.trimBy_eq_self (Text.isTrimmed_trimBy _ t)
    refine ⟨trimmed, Text.trim_ne_nil_iff.mp ?_⟩
    rw [trimmed]
    exact Text.trim_ne_nil_iff.mpr (Bool.eq_false_iff.mpr visible)

/-- A name that was read from a value. -/
theorem isName_of_text {v : Json} {t : Text}
    (accepted : (Field.text v).map nameOrUnknown = .ok t) : IsName t := by
  obtain ⟨u, _, rfl⟩ := Checked.map_eq_ok accepted
  exact isName_nameOrUnknown u

namespace Commit

structure IsNamed (c : Commit) : Prop where
  branch : IsName c.branch
  author : IsName c.author
  repository : IsName c.repository

/-- A commit as extraction leaves it. -/
structure IsExtracted (c : Commit) : Prop where
  hash : c.hash.IsScalar
  named : c.hash ≠ []
  occurredAt : c.occurredAt.IsUtc
  phase : c.phase = none
  cycleDuration : c.cycleDuration = none

/-- The time of a commit is no part of what else is known of it. -/
theorem IsExtracted.shift {c : Commit} (extracted : c.IsExtracted) {t : DateTime} (utc : t.IsUtc) :
    { c with occurredAt := t }.IsExtracted :=
  ⟨extracted.hash, extracted.named, utc, extracted.phase, extracted.cycleDuration⟩

end Commit

namespace Extraction

/-- A time that was read stands in UTC, and without one the clock stands in. -/
theorem toUtc?_authored (authored : Option DateTime) {now : DateTime} (clock : now.IsUtc) :
    ∃ t, t.IsUtc ∧ ((authored.bind DateTime.toUtc?).getD now).toUtc? = some t := by
  cases read : authored.bind DateTime.toUtc? with
  | none => exact ⟨now, clock, clock.toUtc?⟩
  | some t =>
    obtain ⟨u, _, shown⟩ := Option.bind_eq_some_iff.mp read
    have utc := DateTime.isUtc_of_toUtc? shown
    exact ⟨t, utc, utc.toUtc?⟩

theorem isName_of_nameField {field : Text} {raw : Option Raw} {t : Text}
    (accepted : nameField field raw = .ok t) : IsName t := by
  cases raw with
  | none =>
    cases accepted
    exact isName_unknownName
  | some raw =>
    have accepted := Checked.under_eq_ok accepted
    cases raw with
    | value v => exact isName_of_text accepted
    | bytes b =>
      rw [Raw.text] at accepted
      split at accepted
      next => exact isName_of_text accepted
      next => cases accepted

/-- What is known of a commit that was read; read again at another time, it differs in its own time
at most. -/
theorem known_of_extract {now : DateTime} {r : Repository} {reference : Text} {c : Commit}
    (extracted : extract now r reference = .ok c) :
    c.IsExtracted ∧ c.IsNamed ∧ ∀ later : DateTime, later.IsUtc →
      ∃ t, t.IsUtc ∧ extract later r reference = .ok { c with occurredAt := t } := by
  unfold extract at extracted ⊢
  simp only [bind, Except.bind] at extracted ⊢
  split at extracted
  next => cases extracted
  next raw _ =>
  split at extracted
  next => cases extracted
  next files =>
  split at extracted
  next => cases extracted
  next added =>
  split at extracted
  next => cases extracted
  next removed =>
  split at extracted
  next commit accepted =>
    cases extracted
    -- The checks are made in order; each is taken off from behind.
    obtain ⟨f₆, occurredAt, upToAuthor, utc, rfl⟩ := Checked.seq_eq_ok accepted
    obtain ⟨f₅, author, upToRemoved, authorNamed, rfl⟩ := Checked.seq_eq_ok upToAuthor
    obtain ⟨f₄, removed, upToAdded, _, rfl⟩ := Checked.seq_eq_ok upToRemoved
    obtain ⟨f₃, added, upToFiles, _, rfl⟩ := Checked.seq_eq_ok upToAdded
    obtain ⟨f₂, files, upToBranch, _, rfl⟩ := Checked.seq_eq_ok upToFiles
    obtain ⟨f₁, branch, upToHash, branchNamed, rfl⟩ := Checked.seq_eq_ok upToBranch
    obtain ⟨hash, named, rfl⟩ := Checked.map_eq_ok upToHash
    obtain ⟨scalar, nonempty⟩ := Raw.text_nonEmptyText (Checked.under_eq_ok named)
    refine ⟨⟨scalar, nonempty, ?_, rfl, rfl⟩, ?_, fun later clock => ?_⟩
    · split at utc
      next t shown =>
        cases utc
        exact DateTime.isUtc_of_toUtc? shown
      next => cases utc
    · exact ⟨isName_of_nameField branchNamed, isName_of_nameField authorNamed,
        isName_nameOrUnknown _⟩
    · obtain ⟨t, isUtc, shown⟩ := toUtc?_authored raw.1.authored clock
      refine ⟨t, isUtc, ?_⟩
      simp only [upToAuthor, shown]
      rfl
  next => cases extracted

theorem extract_eq_ok {now : DateTime} {r : Repository} {reference : Text} {c : Commit}
    (extracted : extract now r reference = .ok c) :
    c.IsExtracted ∧ ∀ later : DateTime, later.IsUtc →
      ∃ t, t.IsUtc ∧ extract later r reference = .ok { c with occurredAt := t } := by
  obtain ⟨isExtracted, _, again⟩ := known_of_extract extracted
  exact ⟨isExtracted, again⟩

theorem isExtracted {now : DateTime} {r : Repository} {reference : Text} {c : Commit}
    (extracted : extract now r reference = .ok c) : c.IsExtracted :=
  (known_of_extract extracted).1

theorem isNamed {now : DateTime} {r : Repository} {reference : Text} {c : Commit}
    (extracted : extract now r reference = .ok c) : c.IsNamed :=
  (known_of_extract extracted).2.1

end Extraction

end RedGreen
