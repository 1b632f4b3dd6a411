import RedGreen.Text.Lines
import RedGreen.Proofs.Text.Trimming

/-!
# Lines of a text

A line feed cuts a text into lines on either side.  The one exception is a carriage return in
front of it: the two end one line together, so an empty line disappears.  Readers that pass over
blank lines do not see the difference.
-/

namespace RedGreen

namespace Text

/-- A text without line ends. -/
def IsLine (t : Text) : Prop :=
  ∀ c ∈ t, c.isLineFeed = false ∧ c.isCarriageReturn = false

/-- The lines of a text that are not blank, without blanks around them. -/
def proseLines (t : Text) : List Text :=
  ((splitLines t).map trim).filter fun line => !line.isEmpty

theorem splitLines_cons_lineFeed {c : CodePoint} {t : Text} (feed : c.isLineFeed = true)
    (noReturn : c.isCarriageReturn = false) : splitLines (c :: t) = [] :: splitLines t := by
  rw [splitLines.eq_def]
  simp [feed, noReturn]

theorem splitLines_of_isLine {t : Text} (single : t.IsLine) : splitLines t = [t] := by
  induction t with
  | nil => rfl
  | cons c t ih =>
    obtain ⟨noFeed, noReturn⟩ := single c (by simp)
    have tail := ih fun d mem => single d (List.mem_cons_of_mem c mem)
    rw [splitLines.eq_def]
    simp [noFeed, noReturn, tail]

theorem splitLines_ne_nil (t : Text) : splitLines t ≠ [] := by
  fun_cases splitLines t <;> simp

theorem splitLines_cons_other {c : CodePoint} {t line : Text} {more : List Text}
    (noFeed : c.isLineFeed = false) (noReturn : c.isCarriageReturn = false)
    (tail : splitLines t = line :: more) : splitLines (c :: t) = (c :: line) :: more := by
  rw [splitLines.eq_def]
  simp [noFeed, noReturn, tail]

/-- The lines of a whole are those in front of a cut and those behind it, but for an empty line
that may be dropped right in front of the cut. -/
def CutInto (whole front back : List Text) : Prop :=
  whole = front ++ back ∨
    ∃ first lines, front = first :: lines ++ [[]] ∧ whole = first :: lines ++ back

theorem CutInto.cons {whole front back : List Text} (cut : CutInto whole front back) (line : Text) :
    CutInto (line :: whole) (line :: front) back := by
  rcases cut with same | ⟨first, lines, dropped, all⟩
  · exact .inl (by rw [same, List.cons_append])
  · exact .inr ⟨line, first :: lines, by rw [dropped]; rfl, by rw [all]; rfl⟩

/-- A line feed cuts a text; the empty line that is dropped stands behind a carriage return. -/
theorem splitLines_append_lineFeed {c : CodePoint} (feed : c.isLineFeed = true)
    (noReturn : c.isCarriageReturn = false) (u v : Text) :
    CutInto (splitLines (u ++ c :: v)) (splitLines u) (splitLines v) := by
  fun_induction splitLines u with
  | case1 => exact .inl (splitLines_cons_lineFeed feed noReturn)
  | case2 d returned =>
    -- A carriage return in front of the line feed: both together end the line.
    exact .inr ⟨[], [], rfl, by simp [splitLines, feed, returned]⟩
  | case3 d returned e u fed ih =>
    have cut : splitLines (d :: e :: u ++ c :: v) = [] :: splitLines (u ++ c :: v) := by
      simp [splitLines, returned, fed]
    rw [cut]
    exact ih.cons []
  | case4 d returned e u unfed ih =>
    have cut : splitLines (d :: e :: u ++ c :: v) = [] :: splitLines (e :: u ++ c :: v) := by
      rw [List.cons_append, List.cons_append, splitLines.eq_def]
      simp [returned, unfed]
    rw [cut]
    exact ih.cons []
  | case5 d t unreturned fed ih =>
    have cut : splitLines (d :: t ++ c :: v) = [] :: splitLines (t ++ c :: v) :=
      splitLines_cons_lineFeed fed (by simpa using unreturned)
    rw [cut]
    exact ih.cons []
  | case6 d t unreturned unfed none ih => exact absurd none (splitLines_ne_nil t)
  | case7 d t unreturned unfed line more lines ih =>
    have noFeed : d.isLineFeed = false := by simpa using unfed
    have noReturn : d.isCarriageReturn = false := by simpa using unreturned
    rw [lines] at ih
    rcases ih with same | ⟨first, front, last, all⟩
    · exact .inl (splitLines_cons_other noFeed noReturn same)
    · rw [List.cons_append, List.cons.injEq] at last
      obtain ⟨rfl, rfl⟩ := last
      exact .inr ⟨d :: line, front, rfl, splitLines_cons_other noFeed noReturn all⟩

/-- Among the lines that are not blank, a line feed is a clean cut. -/
theorem proseLines_append_lineFeed {c : CodePoint} (feed : c.isLineFeed = true)
    (noReturn : c.isCarriageReturn = false) (u v : Text) :
    proseLines (u ++ c :: v) = proseLines u ++ proseLines v := by
  rcases splitLines_append_lineFeed feed noReturn u v with same | ⟨first, front, lines, all⟩
  · simp [proseLines, same]
  · -- The dropped line is empty, so it is not among them.
    have blank : trim [] = [] := rfl
    simp only [proseLines, lines, all, List.map_append, List.filter_append, List.map_singleton,
      blank]
    simp

/-! ## Cutting at every line end -/

/-- A line end in front of a text; a carriage return and a line feed behind it are one. -/
inductive LineEnd : Text → Text → Prop
  | feed {c : CodePoint} {rest : Text} (feed : c.isLineFeed = true)
      (noReturn : c.isCarriageReturn = false) : LineEnd [c] rest
  | both {c d : CodePoint} {rest : Text} (returned : c.isCarriageReturn = true)
      (feed : d.isLineFeed = true) : LineEnd [c, d] rest
  | alone {c : CodePoint} {rest : Text} (returned : c.isCarriageReturn = true)
      (noFeed : ∀ d ∈ rest.head?, d.isLineFeed = false) : LineEnd [c] rest

/-- A text is made of lines, with a line end behind each but the last. -/
inductive MadeOf : Text → List Text → Prop
  | last {line : Text} (single : line.IsLine) : MadeOf line [line]
  | more {line ending rest : Text} {lines : List Text} (single : line.IsLine)
      (ends : LineEnd ending rest) (others : MadeOf rest lines) :
    MadeOf (line ++ ending ++ rest) (line :: lines)

theorem isLine_nil : IsLine [] := fun _ mem => absurd mem List.not_mem_nil

theorem MadeOf.cons {c : CodePoint} {t line : Text} {lines : List Text}
    (noFeed : c.isLineFeed = false) (noReturn : c.isCarriageReturn = false)
    (made : MadeOf t (line :: lines)) : MadeOf (c :: t) ((c :: line) :: lines) := by
  have longer {u : Text} (single : u.IsLine) : IsLine (c :: u) :=
    List.forall_mem_cons.mpr ⟨⟨noFeed, noReturn⟩, single⟩
  cases made with
  | last single => exact .last (longer single)
  | more single ends others => exact .more (longer single) ends others

theorem madeOf_splitLines (t : Text) : MadeOf t (splitLines t) := by
  fun_induction splitLines t with
  | case1 => exact .last isLine_nil
  | case2 c returned => exact .more isLine_nil (.alone returned (by simp)) (.last isLine_nil)
  | case3 c returned d u feed ih => exact .more isLine_nil (.both returned feed) ih
  | case4 c returned d u noFeed ih =>
    refine .more isLine_nil (.alone returned fun e mem => ?_) ih
    cases mem
    simpa using noFeed
  | case5 c t noReturn feed ih => exact .more isLine_nil (.feed feed (by simpa using noReturn)) ih
  | case6 c t noReturn noFeed none ih => exact absurd none (splitLines_ne_nil t)
  | case7 c t noReturn noFeed line lines split ih =>
    rw [split] at ih
    exact ih.cons (by simpa using noFeed) (by simpa using noReturn)

theorem splitLines_ending {ending rest : Text} (ends : LineEnd ending rest) :
    splitLines (ending ++ rest) = [] :: splitLines rest := by
  cases ends with
  | feed feed noReturn => exact splitLines_cons_lineFeed feed noReturn
  | both returned feed => simp [splitLines, returned, feed]
  | alone returned noFeed =>
    cases rest with
    | nil => simp [splitLines, returned]
    | cons d u =>
      rw [List.singleton_append, splitLines.eq_def]
      simp [returned, noFeed d rfl]

/-- There is one way to make a text of lines. -/
theorem madeOf_iff {t : Text} {lines : List Text} : MadeOf t lines ↔ lines = splitLines t := by
  constructor
  · intro made
    induction made with
    | last single => exact (splitLines_of_isLine single).symm
    | @more line ending rest lines single ends others ih =>
      subst ih
      induction line with
      | nil => exact (splitLines_ending ends).symm
      | cons c line again =>
        obtain ⟨⟨noFeed, noReturn⟩, tail⟩ := List.forall_mem_cons.mp single
        exact (splitLines_cons_other noFeed noReturn (again tail).symm).symm
  · rintro rfl
    exact madeOf_splitLines t

/-- The lines hold no character that is not in the text. -/
theorem MadeOf.subset {t line : Text} {lines : List Text} (made : MadeOf t lines)
    (mem : line ∈ lines) : line ⊆ t := by
  induction made with
  | last single =>
    rw [List.mem_singleton.mp mem]
    exact List.Subset.refl _
  | more single ends others ih =>
    rw [List.append_assoc]
    cases List.mem_cons.mp mem with
    | inl first =>
      rw [first]
      exact List.subset_append_left _ _
    | inr later =>
      intro c mem
      exact List.mem_append_right _ (List.mem_append_right _ (ih later mem))

/-! ## Trimming -/

/-- A text between two characters of no blank is trimmed. -/
theorem isTrimmed_of_ends {c d : CodePoint} {t : Text} (front : c.isBlank = false)
    (back : d.isBlank = false) : IsTrimmed CodePoint.isBlank (c :: t ++ [d]) := by
  constructor
  · rintro _ ⟨⟩
    exact front
  · rw [List.getLast?_concat]
    rintro _ ⟨⟩
    exact back

theorem trim_append_blank {c d b : CodePoint} {t : Text} (front : c.isBlank = false)
    (back : d.isBlank = false) (blank : b.isBlank = true) :
    trim (c :: t ++ [d] ++ [b]) = c :: t ++ [d] := by
  have trimmed := isTrimmed_of_ends (t := t) front back
  have all : ∀ e ∈ [b], e.isBlank = true := List.forall_mem_singleton.mpr blank
  rw [trim_eq_rdropWhile (by rintro _ ⟨⟩; exact front), rdropWhile_append_of_all all,
    rdropWhile_eq_self trimmed.back]

theorem proseLines_of_isLine {c d : CodePoint} {t : Text} (front : c.isBlank = false)
    (back : d.isBlank = false) (single : IsLine (c :: t ++ [d])) :
    proseLines (c :: t ++ [d]) = [c :: t ++ [d]] := by
  rw [proseLines, splitLines_of_isLine single, List.map_singleton, trim,
    trimBy_eq_self (isTrimmed_of_ends front back)]
  rfl

end Text

end RedGreen
