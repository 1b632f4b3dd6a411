import RedGreen.Proofs.Json.Received

/-!
# Values of any text

A text need not have been decoded to be read: a string may come with halves of surrogate pairs in
it, escaped or not.  Even so no object of the value that was read holds a name twice, and no reader
stops at its integers.
-/

namespace RedGreen

namespace Json

mutual

/-- No object of the value holds a name twice. -/
def Unrepeated : Json → Prop
  | .arr items => UnrepeatedItems items
  | .obj members => Members.Distinct members ∧ UnrepeatedMembers members
  | .null | .bool _ | .int _ | .float _ | .str _ => True

def UnrepeatedItems : List Json → Prop
  | [] => True
  | v :: vs => Unrepeated v ∧ UnrepeatedItems vs

def UnrepeatedMembers : List (Text × Json) → Prop
  | [] => True
  | (_, v) :: ms => Unrepeated v ∧ UnrepeatedMembers ms

end

theorem unrepeatedItems_iff {vs : List Json} :
    UnrepeatedItems vs ↔ ∀ v ∈ vs, Unrepeated v := by
  induction vs with
  | nil => simp [UnrepeatedItems]
  | cons v vs ih => simp [UnrepeatedItems, ih]

theorem unrepeatedMembers_iff {ms : Members} :
    UnrepeatedMembers ms ↔ ∀ p ∈ ms, Unrepeated p.2 := by
  induction ms with
  | nil => simp [UnrepeatedMembers]
  | cons p ms ih =>
    obtain ⟨k, v⟩ := p
    simp [UnrepeatedMembers, ih]

mutual

theorem unrepeated_of_wellNamed : (v : Json) → WellNamed v → Unrepeated v
  | .null, _ | .bool _, _ | .int _, _ | .float _, _ | .str _, _ => trivial
  | .arr items, named => unrepeatedItems_of_wellNamed items named
  | .obj members, named => ⟨named.1, unrepeatedMembers_of_wellNamed members named.2⟩

theorem unrepeatedItems_of_wellNamed : (vs : List Json) → WellNamedItems vs → UnrepeatedItems vs
  | [], _ => trivial
  | v :: vs, named => ⟨unrepeated_of_wellNamed v named.1, unrepeatedItems_of_wellNamed vs named.2⟩

theorem unrepeatedMembers_of_wellNamed :
    (ms : List (Text × Json)) → WellNamedMembers ms → UnrepeatedMembers ms
  | [], _ => trivial
  | (_, v) :: ms, named =>
    ⟨unrepeated_of_wellNamed v named.2.1, unrepeatedMembers_of_wellNamed ms named.2.2⟩

end

/-- What a reader takes from a text when the value is not too deep for it. -/
structure IsReadable (v : Json) : Prop where
  unrepeated : Unrepeated v
  short : longNumeral? v = none

theorem isReadable_arr {items : List Json} :
    IsReadable (.arr items) ↔ ∀ v ∈ items, IsReadable v := by
  constructor
  · rintro ⟨unrepeated, short⟩ v mem
    exact ⟨unrepeatedItems_iff.mp unrepeated v mem, longNumeralItems?_eq_none.mp short v mem⟩
  · intro all
    exact ⟨unrepeatedItems_iff.mpr fun v mem => (all v mem).unrepeated,
      longNumeralItems?_eq_none.mpr fun v mem => (all v mem).short⟩

theorem isReadable_obj {members : Members} :
    IsReadable (.obj members) ↔ members.Distinct ∧ ∀ p ∈ members, IsReadable p.2 := by
  constructor
  · rintro ⟨⟨distinct, unrepeated⟩, short⟩
    exact ⟨distinct, fun p mem =>
      ⟨unrepeatedMembers_iff.mp unrepeated p mem, longNumeralMembers?_eq_none.mp short p mem⟩⟩
  · rintro ⟨distinct, all⟩
    exact ⟨⟨distinct, unrepeatedMembers_iff.mpr fun p mem => (all p mem).unrepeated⟩,
      longNumeralMembers?_eq_none.mpr fun p mem => (all p mem).short⟩

theorem readString_suffix {opening fuel : Nat} {t u rest : Text}
    (read : readString opening fuel t = .ok (u, rest)) : rest <:+ t := by
  fun_induction readString opening fuel t generalizing u with
  | case1 | case2 | case4 | case5 | case8 | case9 => cases read
  | case3 fuel t =>
    cases read
    exact List.suffix_cons _ rest
  | case6 fuel t point more escape _ ih =>
    obtain ⟨v, rfl, others⟩ := map_cons_eq_ok read
    exact ((ih others).trans (readUnicodeEscape_eq_ok escape).1).trans
      (List.suffix_append [_, _] t)
  | case7 fuel e t _ point plain _ ih =>
    obtain ⟨v, rfl, others⟩ := map_cons_eq_ok read
    exact (ih others).trans (List.suffix_append [_, _] t)
  | case10 fuel c t _ _ _ ih =>
    obtain ⟨v, rfl, others⟩ := map_cons_eq_ok read
    exact (ih others).trans (List.suffix_cons c t)

theorem readScalar_readable {t rest : Text} {v : Json} (read : readScalar t = .ok (v, rest)) :
    rest <:+ t ∧ IsReadable v := by
  obtain ⟨behind, obtained⟩ := readScalar_eq_ok read 0
  exact ⟨behind, unrepeated_of_wellNamed v obtained.named, obtained.within.short⟩

/-- Values that can be read are put together from such values; their depth does not matter. -/
theorem hereditary_readable :
    Hereditary (fun _ => True) (fun _ => True) (fun _ v => IsReadable v) where
  suffix _ _ := trivial
  string _ read := ⟨readString_suffix read, trivial⟩
  scalar read _ := readScalar_readable read
  str _ _ := ⟨trivial, rfl⟩
  arr := isReadable_arr.mpr
  obj distinct all := isReadable_obj.mpr ⟨distinct, fun p mem => (all p mem).2⟩

theorem isReadable_of_read {t : Text} {v : Json} (accepted : read t = .ok v) : IsReadable v :=
  hereditary_readable.of_read trivial accepted

end Json

end RedGreen
