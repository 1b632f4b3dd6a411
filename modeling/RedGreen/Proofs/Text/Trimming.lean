import RedGreen.Text.Blank
import Mathlib.Data.List.DropRight

/-!
# Trimming

A text is trimmed when neither end of it is of the class that is trimmed away.  Trimming makes such
a text and leaves one alone, and it does not reach beyond a character that is not of the class.
-/

namespace RedGreen

namespace Text

section

variable {p : CodePoint → Bool} {t lead rest : Text}

/-- Neither end of a text is of a class. -/
structure IsTrimmed (p : CodePoint → Bool) (t : Text) : Prop where
  front : ∀ c ∈ t.head?, p c = false
  back : ∀ c ∈ t.getLast?, p c = false

/-! ## One end -/

theorem dropWhile_eq_self (front : ∀ c ∈ t.head?, p c = false) : t.dropWhile p = t := by
  cases t with
  | nil => rfl
  | cons c t => exact List.dropWhile_cons_of_neg (Bool.eq_false_iff.mp (front c rfl))

theorem rdropWhile_eq_self (back : ∀ c ∈ t.getLast?, p c = false) : t.rdropWhile p = t := by
  rw [List.rdropWhile_eq_self_iff]
  intro nonempty
  exact Bool.eq_false_iff.mp (back _ (List.getLast?_eq_some_getLast nonempty))

/-- What is dropped at the end stands behind the last character that is kept. -/
theorem rdropWhile_append (back : ∀ c ∈ lead.getLast?, p c = false) :
    (lead ++ rest).rdropWhile p = lead ++ rest.rdropWhile p := by
  induction rest using List.reverseRecOn with
  | nil => rw [List.append_nil, List.rdropWhile_nil, List.append_nil, rdropWhile_eq_self back]
  | append_singleton rest c ih =>
    rw [← List.append_assoc, List.rdropWhile_concat, List.rdropWhile_concat, ih]
    split
    next => rfl
    next => rw [List.append_assoc]

theorem rdropWhile_append_of_all (all : ∀ c ∈ rest, p c = true) :
    (lead ++ rest).rdropWhile p = lead.rdropWhile p := by
  induction rest using List.reverseRecOn with
  | nil => rw [List.append_nil]
  | append_singleton rest c ih =>
    rw [List.forall_mem_append, List.forall_mem_singleton] at all
    rw [← List.append_assoc, List.rdropWhile_concat, if_pos all.2, ih all.1]

theorem rdropWhile_append_of_exists (some : ∃ c ∈ rest, p c = false) :
    (lead ++ rest).rdropWhile p = lead ++ rest.rdropWhile p := by
  obtain ⟨c, mem, kept⟩ := some
  obtain ⟨front, back, rfl⟩ := List.append_of_mem mem
  have last : ∀ d ∈ (front ++ [c]).getLast?, p d = false := by
    rw [List.getLast?_concat]
    rintro d ⟨⟩
    exact kept
  have split : front ++ c :: back = front ++ [c] ++ back := List.append_cons front c back
  have longer : ∀ d ∈ (lead ++ (front ++ [c])).getLast?, p d = false := by
    rwa [← List.append_assoc, List.getLast?_concat, ← @List.getLast?_concat _ front c]
  rw [split, rdropWhile_append last, ← List.append_assoc, rdropWhile_append longer,
    List.append_assoc]

theorem not_of_mem_head?_dropWhile (t : Text) : ∀ c ∈ (t.dropWhile p).head?, p c = false := by
  intro c mem
  have first := List.head?_dropWhile_not p t
  rw [Option.mem_def.mp mem] at first
  exact first

theorem not_of_mem_getLast?_rdropWhile (t : Text) :
    ∀ c ∈ (t.rdropWhile p).getLast?, p c = false := by
  intro c mem
  rw [List.rdropWhile, List.getLast?_reverse] at mem
  exact not_of_mem_head?_dropWhile t.reverse c mem

/-! ## Both ends -/

theorem trimBy_sublist (p : CodePoint → Bool) (t : Text) : (t.trimBy p).Sublist t :=
  (List.rdropWhile_prefix p (t.dropWhile p)).sublist.trans (List.dropWhile_sublist p)

theorem trimBy_eq_self (trimmed : IsTrimmed p t) : t.trimBy p = t := by
  show (t.dropWhile p).rdropWhile p = t
  rw [dropWhile_eq_self trimmed.front, rdropWhile_eq_self trimmed.back]

theorem isTrimmed_trimBy (p : CodePoint → Bool) (t : Text) : IsTrimmed p (t.trimBy p) := by
  refine ⟨fun c mem => ?_, not_of_mem_getLast?_rdropWhile (t.dropWhile p)⟩
  -- What is left after the end is dropped begins like the text that was there before.
  obtain ⟨rest, whole⟩ := List.rdropWhile_prefix p (t.dropWhile p)
  refine not_of_mem_head?_dropWhile t c ?_
  rw [← whole]
  exact List.mem_head?_append_of_mem_head? mem

theorem trimBy_eq_self_iff : t.trimBy p = t ↔ IsTrimmed p t := by
  constructor
  · intro same
    rw [← same]
    exact isTrimmed_trimBy p t
  · exact trimBy_eq_self

theorem trimBy_eq_nil_iff : t.trimBy p = [] ↔ ∀ c ∈ t, p c = true := by
  show (t.dropWhile p).rdropWhile p = [] ↔ _
  rw [List.rdropWhile_eq_nil_iff]
  constructor
  · intro all c mem
    rw [← List.takeWhile_append_dropWhile (p := p) (l := t)] at mem
    exact (List.mem_append.mp mem).elim List.mem_takeWhile_imp (all c)
  · intro all c mem
    exact all c ((List.dropWhile_sublist p).subset mem)

end

/-! ## Blanks -/

theorem isBlank_iff {t : Text} : t.isBlank = true ↔ ∀ c ∈ t, c.isBlank = true := List.all_eq_true

theorem trim_ne_nil_iff {t : Text} : t.trim ≠ [] ↔ t.isBlank = false := by
  rw [← Bool.not_eq_true, isBlank_iff]
  exact not_congr trimBy_eq_nil_iff

/-- Only the end of a text is trimmed when its start is visible. -/
theorem trim_eq_rdropWhile {t : Text} (front : ∀ c ∈ t.head?, c.isBlank = false) :
    t.trim = t.rdropWhile CodePoint.isBlank := by
  show (t.dropWhile CodePoint.isBlank).rdropWhile CodePoint.isBlank = _
  rw [dropWhile_eq_self front]

end Text

end RedGreen
