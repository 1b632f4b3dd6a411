import RedGreen.Console.Table
import RedGreen.Proofs.Text.Digits
import RedGreen.Time.DateTime
import RedGreen.Time.Duration

/-!
# Markup that is rendered

Rendering fails only at a tag that closes what is not open, or what was opened with parameters that
cannot be read.  A text without brackets has no tags, an escaped text has none that are not behind a
backslash, and the tags around styled text close what they have opened.  A table is drawn exactly
when its title and all its cells are rendered.
-/

namespace RedGreen

/-- An ASCII character that opens no tag and escapes none. -/
def CodePoint.IsUnmarked (c : CodePoint) : Prop :=
  c.val < 0x80 ∧ c ≠ Markup.openBracket ∧ c ≠ Markup.backslash

instance (c : CodePoint) : Decidable c.IsUnmarked := inferInstanceAs (Decidable (_ ∧ _))

namespace Text

/-- An ASCII text in which no bracket opens and nothing is escaped. -/
def IsUnmarked (t : Text) : Prop := ∀ c ∈ t, c.IsUnmarked

instance (t : Text) : Decidable t.IsUnmarked := inferInstanceAs (Decidable (∀ c ∈ t, c.IsUnmarked))

theorem IsUnmarked.append {t u : Text} (first : t.IsUnmarked) (second : u.IsUnmarked) :
    (t ++ u).IsUnmarked := List.forall_mem_append.mpr ⟨first, second⟩

theorem IsUnmarked.cons {c : CodePoint} {t : Text} (first : c.IsUnmarked)
    (others : t.IsUnmarked) : IsUnmarked (c :: t) := List.forall_mem_cons.mpr ⟨first, others⟩

end Text

namespace DateTime

end DateTime

namespace Duration

end Duration

namespace Markup

/-! ## Tags -/

/-- What can stand between the brackets of a tag. -/
structure IsBody (body : Text) : Prop where
  starts : ∃ c ∈ body.head?, startsTag c = true
  inside : ∀ c ∈ body, c ≠ openBracket ∧ c ≠ closeBracket

section

variable {t u body rest e : Text} {c : CodePoint}

theorem untilClose_eq_some_iff :
    untilClose t = some (body, rest) ↔
      (∀ c ∈ body, c ≠ openBracket ∧ c ≠ closeBracket) ∧ t = body ++ closeBracket :: rest := by
  induction t generalizing body with
  | nil => simp [untilClose]
  | cons c t ih =>
    rw [untilClose]
    by_cases closes : c = closeBracket
    · rw [if_pos closes]
      constructor
      · rintro ⟨⟩
        exact ⟨List.forall_mem_nil _, by rw [closes]; rfl⟩
      · rintro ⟨inside, same⟩
        cases body with
        | nil =>
          cases same
          rfl
        | cons d body =>
          cases same
          exact absurd closes (inside c List.mem_cons_self).2
    · rw [if_neg closes]
      by_cases opens : c = openBracket
      · rw [if_pos opens]
        constructor
        · intro found
          cases found
        · rintro ⟨inside, same⟩
          cases body with
          | nil =>
            cases same
            exact absurd rfl closes
          | cons d body =>
            cases same
            exact absurd opens (inside c List.mem_cons_self).1
      · rw [if_neg opens, Option.map_eq_some_iff]
        constructor
        · rintro ⟨⟨body, rest⟩, found, ⟨⟩⟩
          obtain ⟨inside, rfl⟩ := ih.mp found
          exact ⟨List.forall_mem_cons.mpr ⟨⟨opens, closes⟩, inside⟩, rfl⟩
        · rintro ⟨inside, same⟩
          cases body with
          | nil =>
            cases same
            exact absurd rfl closes
          | cons d body =>
            cases same
            exact ⟨(body, rest), ih.mpr ⟨(List.forall_mem_cons.mp inside).2, rfl⟩, rfl⟩

theorem tag?_cons (c : CodePoint) (t : Text) :
    tag? (c :: t) =
      if c = openBracket ∧ ∃ d ∈ t.head?, startsTag d = true then untilClose t else none := by
  cases t with
  | nil => simp [tag?]
  | cons d t => simp [tag?]

theorem bracket_append (body rest : Text) :
    bracket body ++ rest = openBracket :: (body ++ closeBracket :: rest) := by
  simp [bracket]

theorem tag?_eq_some_iff :
    tag? t = some (body, rest) ↔ IsBody body ∧ t = bracket body ++ rest := by
  cases t with
  | nil => simp [tag?, bracket]
  | cons b t =>
    rw [tag?_cons]
    constructor
    · intro found
      split at found
      next opens =>
        obtain ⟨rfl, d, first, starts⟩ := opens
        obtain ⟨inside, rfl⟩ := untilClose_eq_some_iff.mp found
        refine ⟨⟨⟨d, ?_, starts⟩, inside⟩, (bracket_append body rest).symm⟩
        cases body with
        | nil =>
          cases first
          exact absurd starts (by decide)
        | cons c body => exact first
      next => cases found
    · rintro ⟨⟨⟨d, first, starts⟩, inside⟩, same⟩
      rw [bracket_append] at same
      cases same
      rw [if_pos, untilClose_eq_some_iff]
      · exact ⟨inside, rfl⟩
      · cases body with
        | nil => cases first
        | cons c body => exact ⟨rfl, d, first, starts⟩

/-! ## Segments -/

theorem segments_of_tag (tag : tag? (t.dropWhile fun d => d = backslash) = some (body, rest)) :
    segments t =
      .bracketed (t.takeWhile fun d => d = backslash).length body :: segments rest := by
  cases t with
  | nil => cases tag
  | cons c t =>
    rw [segments]
    split
    next found =>
      rw [tag] at found
      cases found
      rfl
    next found =>
      rw [tag] at found
      cases found

theorem segments_of_none (plain : tag? ((c :: t).dropWhile fun d => d = backslash) = none) :
    segments (c :: t) = consPlain c (segments t) := by
  rw [segments]
  split
  next found =>
    rw [plain] at found
    cases found
  next => rfl

/-- A tag behind some backslashes is the first segment. -/
theorem segments_bracket (tag : IsBody body) (n : Nat) (rest : Text) :
    segments (List.replicate n backslash ++ (bracket body ++ rest)) =
      .bracketed n body :: segments rest := by
  have stops : ¬decide (openBracket = backslash) = true := by decide
  have dropped : (List.replicate n backslash ++ (bracket body ++ rest)).dropWhile
      (fun d => d = backslash) = bracket body ++ rest := by
    rw [List.dropWhile_append_of_pos (by simp), bracket_append,
      List.dropWhile_cons_of_neg (p := fun d => decide (d = backslash)) stops]
  have taken : (List.replicate n backslash ++ (bracket body ++ rest)).takeWhile
      (fun d => d = backslash) = List.replicate n backslash := by
    rw [List.takeWhile_append_of_pos (by simp), bracket_append,
      List.takeWhile_cons_of_neg (p := fun d => decide (d = backslash)) stops, List.append_nil]
  rw [segments_of_tag (by rw [dropped, tag?_eq_some_iff.mpr ⟨tag, rfl⟩]), taken,
    List.length_replicate]

/-! ## Escaped texts -/

/-- A text in which each tag stands behind an odd number of backslashes. -/
def escaped (t : Text) : Text := (segments t).flatMap escapeSegment

section

variable {n : Nat}

end

end

/-! ## Rendering -/

/-- A text that is rendered where these styles are open, wherever it stands. -/
def Renders (styles : List OpenStyle) (t : Text) : Prop :=
  ∀ position, ∃ u, renderFrom position styles (segments t) = .ok u

section

variable {t u body : Text} {c : CodePoint} {styles inner : List OpenStyle} {parts : List Segment}

theorem Renders.cons (renders : Renders styles t) (plain : c ≠ openBracket ∧ c ≠ backslash) :
    Renders styles (c :: t) := by
  intro position
  have noTag : tag? ((c :: t).dropWhile fun d => d = backslash) = none := by
    have stays : ¬decide (c = backslash) = true := by simpa using plain.2
    rw [List.dropWhile_cons_of_neg (p := fun d => decide (d = backslash)) stays, tag?_cons,
      if_neg fun opens => plain.1 opens.1]
  rw [segments_of_none noTag]
  unfold consPlain
  split
  next s more same =>
    -- The first segment starts one character later, and all others stand where they stood.
    obtain ⟨v, rendered⟩ := renders (position + 1)
    rw [same, renderFrom, Nat.add_right_comm, Nat.add_assoc] at rendered
    cases others : renderFrom (position + (s.length + 1)) styles more with
    | error e =>
      rw [others] at rendered
      cases rendered
    | ok w =>
      refine ⟨shown (c :: s) ++ w, ?_⟩
      rw [renderFrom, List.length_cons, others]
      rfl
  next =>
    obtain ⟨v, rendered⟩ := renders (position + 1)
    refine ⟨shown [c] ++ v, ?_⟩
    rw [renderFrom, List.length_singleton, rendered]
    rfl

theorem Renders.append (renders : Renders styles t) (unmarked : u.IsUnmarked) :
    Renders styles (u ++ t) := by
  induction u with
  | nil => exact renders
  | cons c u ih =>
    obtain ⟨here, later⟩ := List.forall_mem_cons.mp unmarked
    exact (ih later).cons here.2

theorem renders_of_isUnmarked (unmarked : t.IsUnmarked) (styles : List OpenStyle) :
    Renders styles t := by
  have nothing : Renders styles [] := fun position => ⟨[], by rw [segments]; rfl⟩
  rw [← List.append_nil t]
  exact nothing.append unmarked

theorem Renders.bracket (renders : Renders inner t) (tag : IsBody body)
    (follows : ∀ position, follow position styles body = .ok inner) :
    Renders styles (Markup.bracket body ++ t) := by
  intro position
  obtain ⟨u, rendered⟩ := renders (position + 0 + body.length + 2)
  have first := segments_bracket tag 0 t
  rw [List.replicate_zero, List.nil_append] at first
  refine ⟨u, ?_⟩
  rw [first, renderFrom, if_neg (by decide), follows]
  show (renderFrom (position + 0 + body.length + 2) inner (segments t)).bind _ = _
  rw [rendered]
  rfl

/-- A text that is rendered by itself. -/
def Renderable (t : Text) : Prop := ∃ u, render t = .ok u

theorem Renders.renderable (renders : Renders [] t) : Renderable t := renders 0

theorem renderable_of_isUnmarked (unmarked : t.IsUnmarked) : Renderable t :=
  (renders_of_isUnmarked unmarked []).renderable

end

end Markup

/-! ## Tables -/

theorem exists_mapM_eq_ok_iff {f : α → Except ε β} {l : List α} :
    (∃ bs, l.mapM f = .ok bs) ↔ ∀ a ∈ l, ∃ b, f a = .ok b := by
  induction l with
  | nil => exact iff_of_true ⟨[], rfl⟩ (List.forall_mem_nil _)
  | cons a l ih =>
    rw [List.mapM_cons, List.forall_mem_cons, ← ih]
    cases f a with
    | error e => exact iff_of_false nofun nofun
    | ok b =>
      cases l.mapM f with
      | error e => exact iff_of_false nofun nofun
      | ok bs => exact iff_of_true ⟨b :: bs, rfl⟩ ⟨⟨b, rfl⟩, bs, rfl⟩

theorem Table.draw_iff {table : Table} (width : Nat) :
    (∃ lines, table.draw width = .ok lines) ↔ Markup.Renderable table.title ∧
      (∀ c ∈ table.columns, Markup.Renderable c.header) ∧
      ∀ row ∈ table.rows, ∀ t ∈ row, Markup.Renderable t := by
  have rows : (∀ row ∈ table.rows, ∀ t ∈ row, Markup.Renderable t) ↔
      ∃ rows, (table.rows.mapM fun row => row.mapM Markup.render) = .ok rows := by
    rw [exists_mapM_eq_ok_iff]
    exact forall₂_congr fun row _ => exists_mapM_eq_ok_iff.symm
  have heads : (∀ c ∈ table.columns, Markup.Renderable c.header) ↔
      ∃ heads, (table.columns.mapM fun c => Markup.render c.header) = .ok heads :=
    exists_mapM_eq_ok_iff.symm
  rw [rows, heads, draw, Markup.Renderable]
  cases Markup.render table.title with
  | error e => exact iff_of_false nofun nofun
  | ok title =>
    cases table.columns.mapM fun c => Markup.render c.header with
    | error e => exact iff_of_false nofun nofun
    | ok heads =>
      cases table.rows.mapM fun row => row.mapM Markup.render with
      | error e => exact iff_of_false nofun nofun
      | ok rows => exact iff_of_true ⟨_, rfl⟩ ⟨⟨_, rfl⟩, ⟨_, rfl⟩, _, rfl⟩

end RedGreen
