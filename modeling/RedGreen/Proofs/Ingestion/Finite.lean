import RedGreen.Ingestion.Batch
import RedGreen.Proofs.Json.Unrepeated

/-!
# Documents without infinite numbers

What is sent holds `null` for every number that is not finite.  Nothing else about a document
changes with that, so its text is read as the very document that was written.
-/

namespace RedGreen

namespace Ingestion

/-- What stays when the numbers that are not finite are replaced, for values, lists of them and
members alike. -/
structure Unchanged (texts : α → List (Bool × Text)) (depth : α → Nat) (long? : α → Option Nat)
    (finite : α → α) (x : α) : Prop where
  texts : texts (finite x) = texts x
  depth : depth (finite x) = depth x
  long : long? (finite x) = long? x
  again : finite (finite x) = finite x

mutual

theorem unchanged_finiteOnly :
    (v : Json) → Unchanged texts depth Json.longNumeral? finiteOnly v
  | .null | .bool _ | .int _ | .str _ => ⟨rfl, rfl, rfl, rfl⟩
  | .float x => by
    cases finite : x.isFinite <;> constructor <;> simp [finiteOnly, finite] <;> rfl
  | .arr items => by
    obtain ⟨sameTexts, sameDepth, sameLong, again⟩ := unchanged_finiteItems items
    exact ⟨sameTexts, congrArg (1 + ·) sameDepth, sameLong, congrArg Json.arr again⟩
  | .obj members => by
    obtain ⟨sameTexts, sameDepth, sameLong, again⟩ := unchanged_finiteMembers members
    exact ⟨sameTexts, congrArg (1 + ·) sameDepth, sameLong, congrArg Json.obj again⟩

theorem unchanged_finiteItems :
    (vs : List Json) → Unchanged textsOfItems depthOfItems Json.longNumeralItems? finiteItems vs
  | [] => ⟨rfl, rfl, rfl, rfl⟩
  | v :: vs => by
    obtain ⟨sameTexts, sameDepth, sameLong, again⟩ := unchanged_finiteOnly v
    obtain ⟨restTexts, restDepth, restLong, restAgain⟩ := unchanged_finiteItems vs
    constructor <;> rw [finiteItems]
    · rw [textsOfItems, textsOfItems, sameTexts, restTexts]
    · rw [depthOfItems, depthOfItems, sameDepth, restDepth]
    · rw [Json.longNumeralItems?, Json.longNumeralItems?, sameLong, restLong]
    · rw [finiteItems, again, restAgain]

theorem unchanged_finiteMembers : (ms : List (Text × Json)) →
    Unchanged textsOfMembers depthOfMembers Json.longNumeralMembers? finiteMembers ms
  | [] => ⟨rfl, rfl, rfl, rfl⟩
  | (k, v) :: ms => by
    obtain ⟨sameTexts, sameDepth, sameLong, again⟩ := unchanged_finiteOnly v
    obtain ⟨restTexts, restDepth, restLong, restAgain⟩ := unchanged_finiteMembers ms
    constructor <;> rw [finiteMembers]
    · rw [textsOfMembers, textsOfMembers, sameTexts, restTexts]
    · rw [depthOfMembers, depthOfMembers, sameDepth, restDepth]
    · rw [Json.longNumeralMembers?, Json.longNumeralMembers?, sameLong, restLong]
    · rw [finiteMembers, again, restAgain]

end

theorem names_finiteMembers (ms : Json.Members) :
    (finiteMembers ms).map Prod.fst = ms.map Prod.fst := by
  induction ms with
  | nil => rfl
  | cons p ms ih =>
    obtain ⟨k, v⟩ := p
    rw [finiteMembers, List.map_cons, List.map_cons, ih]

theorem finiteItems_eq_map (vs : List Json) : finiteItems vs = vs.map finiteOnly := by
  induction vs with
  | nil => rfl
  | cons v vs ih => rw [finiteItems, ih, List.map_cons]

/-! ## Writing and reading -/

theorem keepsText_of_raw {s : Json.Style} (raw : s.escape = Json.escapeRaw) (t : Text) :
    s.KeepsText t := by
  have line := Json.keepsText_line t
  rw [Json.Style.KeepsText] at line ⊢
  rw [raw]
  exact line

mutual

/-- A style that leaves texts as they are keeps all of a document that is finite. -/
theorem kept_finiteOnly {s : Json.Style} (raw : s.escape = Json.escapeRaw) :
    (v : Json) → Json.Unrepeated v → Json.Kept s (finiteOnly v)
  | .null, _ | .bool _, _ | .int _, _ => trivial
  | .str t, _ => keepsText_of_raw raw t
  | .float x, _ => by
    rw [finiteOnly]
    split
    next finite => exact Json.keepsFloat s finite
    next => trivial
  | .arr items, unrepeated => kept_finiteItems raw items unrepeated
  | .obj members, unrepeated => by
    refine ⟨?_, kept_finiteMembers raw members unrepeated.2⟩
    rw [Json.Members.Distinct, names_finiteMembers]
    exact unrepeated.1

theorem kept_finiteItems {s : Json.Style} (raw : s.escape = Json.escapeRaw) :
    (vs : List Json) → Json.UnrepeatedItems vs → Json.KeptItems s (finiteItems vs)
  | [], _ => trivial
  | v :: vs, unrepeated =>
    ⟨kept_finiteOnly raw v unrepeated.1, kept_finiteItems raw vs unrepeated.2⟩

theorem kept_finiteMembers {s : Json.Style} (raw : s.escape = Json.escapeRaw) :
    (ms : List (Text × Json)) → Json.UnrepeatedMembers ms → Json.KeptMembers s (finiteMembers ms)
  | [], _ => trivial
  | (k, v) :: ms, unrepeated =>
    ⟨keepsText_of_raw raw k, kept_finiteOnly raw v unrepeated.1,
      kept_finiteMembers raw ms unrepeated.2⟩

end

mutual

/-- A leaf counts as one value in another, but it is no container. -/
theorem nesting_le_depth : (v : Json) → Json.nesting v ≤ depth v
  | .null | .bool _ | .int _ | .float _ | .str _ => Nat.zero_le _
  | .arr items => by
    rw [Json.nesting, depth, Nat.add_comm]
    exact Nat.add_le_add_left (nestingItems_le_depth items) 1
  | .obj members => by
    rw [Json.nesting, depth, Nat.add_comm]
    exact Nat.add_le_add_left (nestingMembers_le_depth members) 1

theorem nestingItems_le_depth : (vs : List Json) → Json.nestingItems vs ≤ depthOfItems vs
  | [] => Nat.le_refl 0
  | v :: vs => by
    have first := nesting_le_depth v
    have rest := nestingItems_le_depth vs
    rw [Json.nestingItems, depthOfItems]
    omega

theorem nestingMembers_le_depth :
    (ms : List (Text × Json)) → Json.nestingMembers ms ≤ depthOfMembers ms
  | [] => Nat.le_refl 0
  | (_, v) :: ms => by
    have first := nesting_le_depth v
    have rest := nestingMembers_le_depth ms
    rw [Json.nestingMembers, depthOfMembers]
    omega

end

/-- A finite document is read from its text, or stopped at an integer of too many digits. -/
theorem read_finiteOnly {s : Json.Style} (raw : s.escape = Json.escapeRaw) {v : Json}
    (unrepeated : Json.Unrepeated v) (shallow : depth v ≤ Json.depthLimit) :
    Json.read (Json.compact s (finiteOnly v)) = match Json.longNumeral? v with
      | some n => .error (.tooManyDigits n)
      | none => .ok (finiteOnly v) := by
  have same := unchanged_finiteOnly v
  have flat : Json.nesting (finiteOnly v) ≤ Json.depthLimit :=
    (nesting_le_depth _).trans (same.depth ▸ shallow)
  have whole := Json.read_compact (kept_finiteOnly raw v unrepeated) flat
  rw [same.long] at whole
  exact whole

end Ingestion

end RedGreen
