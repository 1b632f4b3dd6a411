import RedGreen.Proofs.Json.Spelling

/-!
# What the writers spell

The line writer leaves no gaps and the document writer breaks lines and indents; both spell the
value they are given, when the style keeps its strings and numbers and no object of it holds a name
twice.
-/

namespace RedGreen

namespace Json

mutual

/-- The style keeps every string and number of the value, and no object holds a name twice. -/
def Kept (s : Style) : Json → Prop
  | .null | .bool _ | .int _ => True
  | .float x => s.KeepsFloat x
  | .str t => s.KeepsText t
  | .arr items => KeptItems s items
  | .obj members => Members.Distinct members ∧ KeptMembers s members

def KeptItems (s : Style) : List Json → Prop
  | [] => True
  | v :: vs => Kept s v ∧ KeptItems s vs

def KeptMembers (s : Style) : List (Text × Json) → Prop
  | [] => True
  | (k, v) :: ms => s.KeepsText k ∧ Kept s v ∧ KeptMembers s ms

end

theorem isGap_nil : IsGap [] := nofun

theorem keptItems_iff {s : Style} {vs : List Json} : KeptItems s vs ↔ ∀ v ∈ vs, Kept s v := by
  induction vs with
  | nil => simp [KeptItems]
  | cons v vs ih => simp [KeptItems, ih]

theorem keptMembers_iff {s : Style} {ms : Members} :
    KeptMembers s ms ↔ ∀ p ∈ ms, s.KeepsText p.1 ∧ Kept s p.2 := by
  induction ms with
  | nil => simp [KeptMembers]
  | cons p ms ih =>
    obtain ⟨k, v⟩ := p
    simp [KeptMembers, ih, and_assoc]

/-! ## On one line -/

mutual

theorem spelled_compact (s : Style) : (v : Json) → Kept s v → Spelled s v (compact s v)
  | .null, _ => .null
  | .bool b, _ => .bool b
  | .int i, _ => .int i
  | .float _, kept => .float kept
  | .str _, kept => .str kept
  | .arr [], _ => .emptyArr
  | .arr (v :: vs), kept => by
    rw [Kept] at kept
    exact .arr (g := []) isGap_nil (spelledItems_compact s (v :: vs) (List.cons_ne_nil v vs) kept)
  | .obj [], _ => .emptyObj
  | .obj (p :: ms), kept => by
    rw [Kept] at kept
    exact .obj (g := []) isGap_nil kept.1
      (spelledMembers_compact s (p :: ms) (List.cons_ne_nil p ms) kept.2)

theorem spelledItems_compact (s : Style) : (vs : List Json) → vs ≠ [] → KeptItems s vs →
    SpelledItems s vs (compactItems s vs ++ [CodePoint.ofChar ']'])
  | [], nonempty, _ => absurd rfl nonempty
  | [v], _, kept => .last (spelled_compact s v kept.1) isGap_nil
  | v :: w :: vs, _, kept => by
    have rest := spelledItems_compact s (w :: vs) (List.cons_ne_nil w vs) kept.2
    have shape : compactItems s (v :: w :: vs) ++ [CodePoint.ofChar ']'] =
        compact s v ++ CodePoint.ofChar ',' ::
          ([] ++ (compactItems s (w :: vs) ++ [CodePoint.ofChar ']'])) := by
      simp [compactItems]
    rw [shape]
    exact .more (spelled_compact s v kept.1) isGap_nil rest

theorem spelledMembers_compact (s : Style) : (ms : List (Text × Json)) → ms ≠ [] →
    KeptMembers s ms → SpelledMembers s ms (compactMembers s ms ++ [CodePoint.ofChar '\x7d'])
  | [], nonempty, _ => absurd rfl nonempty
  | [(k, v)], _, kept => by
    have shape : compactMembers s [(k, v)] ++ [CodePoint.ofChar '\x7d'] =
        quoteWith s.escape k ++ CodePoint.ofChar ':' ::
          ([] ++ (compact s v ++ ([] ++ [CodePoint.ofChar '\x7d']))) := by
      simp [compactMembers]
    rw [shape]
    exact .last kept.1 isGap_nil (spelled_compact s v kept.2.1) isGap_nil
  | (k, v) :: p :: ms, _, kept => by
    have rest := spelledMembers_compact s (p :: ms) (List.cons_ne_nil p ms) kept.2.2
    have shape : compactMembers s ((k, v) :: p :: ms) ++ [CodePoint.ofChar '\x7d'] =
        quoteWith s.escape k ++ CodePoint.ofChar ':' :: ([] ++ (compact s v ++
          CodePoint.ofChar ',' ::
            ([] ++ (compactMembers s (p :: ms) ++ [CodePoint.ofChar '\x7d'])))) := by
      simp [compactMembers]
    rw [shape]
    exact .more kept.1 isGap_nil (spelled_compact s v kept.2.1) isGap_nil rest

end

/-- A value written on one line is read back, or stopped at an integer of too many digits. -/
theorem read_compact {s : Style} {v : Json} (kept : Kept s v) (shallow : nesting v ≤ depthLimit) :
    read (compact s v) = match longNumeral? v with
      | some n => .error (.tooManyDigits n)
      | none => .ok v :=
  read_of_spelled (spelled_compact s v kept) shallow

/-! ## Over lines -/

theorem isGap_newLine (level : Nat) : IsGap (newLine level) := by
  intro c mem
  rw [newLine, List.mem_cons, List.mem_replicate] at mem
  rcases mem with rfl | ⟨-, rfl⟩ <;> decide

theorem isGap_blank : IsGap [CodePoint.ofChar ' '] := by
  intro c mem
  rw [List.mem_singleton.mp mem]
  decide

mutual

theorem spelled_indented (s : Style) (level : Nat) :
    (v : Json) → Kept s v → Spelled s v (indented s level v)
  | .null, _ => .null
  | .bool b, _ => .bool b
  | .int i, _ => .int i
  | .float _, kept => .float kept
  | .str _, kept => .str kept
  | .arr [], _ => .emptyArr
  | .arr (v :: vs), kept => by
    rw [Kept] at kept
    have first := spelled_indented s (level + 1) v kept.1
    have shape : indented s level (.arr (v :: vs)) = CodePoint.ofChar '[' ::
        (newLine (level + 1) ++ (indented s (level + 1) v ++ indentedItems s level vs)) := by
      simp [indented]
    rw [shape]
    exact .arr (isGap_newLine _) (spelledItems_indented s level first vs kept.2)
  | .obj [], _ => .emptyObj
  | .obj ((k, v) :: ms), kept => by
    rw [Kept] at kept
    have first := spelled_indented s (level + 1) v kept.2.2.1
    have shape : indented s level (.obj ((k, v) :: ms)) = CodePoint.ofChar '\x7b' ::
        (newLine (level + 1) ++ (quoteWith s.escape k ++ CodePoint.ofChar ':' ::
          ([CodePoint.ofChar ' '] ++
            (indented s (level + 1) v ++ indentedMembers s level ms)))) := by
      simp [indented, Text.ofString]
    rw [shape]
    exact .obj (isGap_newLine _) kept.1
      (spelledMembers_indented s level kept.2.1 first ms kept.2.2.2)

theorem spelledItems_indented (s : Style) (level : Nat) {v : Json} {t : Text}
    (first : Spelled s v t) : (vs : List Json) → KeptItems s vs →
      SpelledItems s (v :: vs) (t ++ indentedItems s level vs)
  | [], _ => .last first (isGap_newLine _)
  | w :: vs, kept => by
    have rest := spelledItems_indented s level (spelled_indented s (level + 1) w kept.1) vs kept.2
    have shape : indentedItems s level (w :: vs) = CodePoint.ofChar ',' ::
        (newLine (level + 1) ++ (indented s (level + 1) w ++ indentedItems s level vs)) := by
      simp [indentedItems]
    rw [shape]
    exact .more first (isGap_newLine _) rest

theorem spelledMembers_indented (s : Style) (level : Nat) {k : Text} {v : Json} {t : Text}
    (name : s.KeepsText k) (first : Spelled s v t) : (ms : List (Text × Json)) → KeptMembers s ms →
      SpelledMembers s ((k, v) :: ms) (quoteWith s.escape k ++ CodePoint.ofChar ':' ::
        ([CodePoint.ofChar ' '] ++ (t ++ indentedMembers s level ms)))
  | [], _ => .last name isGap_blank first (isGap_newLine _)
  | (j, w) :: ms, kept => by
    have rest := spelledMembers_indented s level kept.1
      (spelled_indented s (level + 1) w kept.2.1) ms kept.2.2
    have shape : indentedMembers s level ((j, w) :: ms) = CodePoint.ofChar ',' ::
        (newLine (level + 1) ++ (quoteWith s.escape j ++ CodePoint.ofChar ':' ::
          ([CodePoint.ofChar ' '] ++
            (indented s (level + 1) w ++ indentedMembers s level ms)))) := by
      simp [indentedMembers, Text.ofString]
    rw [shape]
    exact .more name isGap_blank first (isGap_newLine _) rest

end

/-! ## Sorted values -/

mutual

theorem kept_sorted {s : Style} : (v : Json) → Kept s v → Kept s v.sorted
  | .null, kept | .bool _, kept | .int _, kept | .float _, kept | .str _, kept => kept
  | .arr items, kept => by
    rw [sorted, Kept]
    exact keptItems_sorted items kept
  | .obj members, kept => by
    rw [Kept] at kept
    rw [sorted, Kept, keptMembers_iff]
    -- Sorting only moves members, so each of them was among the kept ones.
    refine ⟨kept.1.sortedMembers.sorted, fun p mem => ?_⟩
    have mem := (Members.sorted_perm _).mem_iff.mp mem
    exact keptMembers_iff.mp (keptMembers_sorted members kept.2) p mem

theorem keptItems_sorted {s : Style} :
    (vs : List Json) → KeptItems s vs → KeptItems s (sortedItems vs)
  | [], kept => kept
  | v :: vs, kept => ⟨kept_sorted v kept.1, keptItems_sorted vs kept.2⟩

theorem keptMembers_sorted {s : Style} :
    (ms : List (Text × Json)) → KeptMembers s ms → KeptMembers s (sortedMembers ms)
  | [], kept => kept
  | (_, v) :: ms, kept => ⟨kept.1, kept_sorted v kept.2.1, keptMembers_sorted ms kept.2.2⟩

end

/-- A document is read back with the members of its objects in order, or stopped at an integer of
too many digits. -/
theorem read_document {v : Json} (kept : Kept .document v)
    (shallow : nesting v.sorted ≤ depthLimit) :
    read (document v) = match longNumeral? v.sorted with
      | some n => .error (.tooManyDigits n)
      | none => .ok v.sorted :=
  read_of_spelled (spelled_indented .document 0 v.sorted (kept_sorted v kept)) shallow

end Json

end RedGreen
