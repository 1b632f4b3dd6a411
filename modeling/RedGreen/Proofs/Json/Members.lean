import RedGreen.Json.Value

/-!
# Members of objects

A list of members in which every name stands once is a finite map: `get?`, `put` and `erase` act
on it as on a function of names, and the order of the members does not matter to `get?`.
-/

namespace RedGreen

namespace Json.Members

/-- Every name stands once. -/
def Distinct (ms : Members) : Prop := (ms.map Prod.fst).Nodup

theorem distinct_nil : Distinct [] := List.nodup_nil

theorem distinct_cons {k : Text} {v : Json} {ms : Members} :
    Distinct ((k, v) :: ms) ↔ k ∉ ms.map Prod.fst ∧ Distinct ms := by
  simp [Distinct]

theorem get?_cons (name k : Text) (v : Json) (ms : Members) :
    get? name ((k, v) :: ms) = if k = name then some v else get? name ms := rfl

theorem get?_eq_none_iff {name : Text} {ms : Members} :
    get? name ms = none ↔ name ∉ ms.map Prod.fst := by
  induction ms with
  | nil => simp [get?]
  | cons p ms ih =>
    obtain ⟨k, v⟩ := p
    by_cases same : k = name
    · simp [get?, same]
    · simp [get?, same, ih, Ne.symm same]

theorem mem_of_get? {name : Text} {v : Json} {ms : Members} (h : get? name ms = some v) :
    (name, v) ∈ ms := by
  induction ms with
  | nil => cases h
  | cons p ms ih =>
    obtain ⟨k, w⟩ := p
    rw [get?_cons] at h
    split at h
    next same =>
      cases h
      rw [same]
      exact List.mem_cons_self
    next => exact List.mem_cons_of_mem _ (ih h)

theorem get?_of_mem {name : Text} {v : Json} {ms : Members} (distinct : Distinct ms)
    (h : (name, v) ∈ ms) : get? name ms = some v := by
  induction ms with
  | nil => cases h
  | cons p ms ih =>
    obtain ⟨k, w⟩ := p
    obtain ⟨absent, distinct⟩ := distinct_cons.mp distinct
    rw [get?_cons]
    cases h with
    | head => rw [if_pos rfl]
    | tail _ h =>
      have differs : k ≠ name := by
        rintro rfl
        exact absent (List.mem_map_of_mem (f := Prod.fst) h)
      rw [if_neg differs]
      exact ih distinct h

theorem get?_eq_some_iff {name : Text} {v : Json} {ms : Members} (distinct : Distinct ms) :
    get? name ms = some v ↔ (name, v) ∈ ms :=
  ⟨mem_of_get?, get?_of_mem distinct⟩

theorem get?_perm {ms ns : Members} (distinct : Distinct ms) (perm : ms.Perm ns) (name : Text) :
    get? name ms = get? name ns := by
  have distinct' : Distinct ns := (perm.map Prod.fst).nodup_iff.mp distinct
  refine Option.ext fun v => ?_
  rw [get?_eq_some_iff distinct, get?_eq_some_iff distinct', perm.mem_iff]

/-! ## Putting and erasing -/

theorem get?_put (name other : Text) (v : Json) (ms : Members) :
    get? other (put name v ms) = if name = other then some v else get? other ms := by
  induction ms with
  | nil => rfl
  | cons p ms ih =>
    obtain ⟨k, w⟩ := p
    by_cases same : k = name
    · subst same
      rw [put, if_pos rfl, get?_cons, get?_cons]
      split <;> rfl
    · rw [put, if_neg same, get?_cons, get?_cons, ih]
      by_cases found : k = other
      · rw [if_pos found, if_pos found, if_neg (by rintro rfl; exact same found)]
      · rw [if_neg found, if_neg found]

theorem mem_put {name : Text} {v : Json} {ms : Members} {p : Text × Json}
    (h : p ∈ put name v ms) : p = (name, v) ∨ p ∈ ms := by
  induction ms with
  | nil => simpa [put] using h
  | cons q ms ih =>
    obtain ⟨k, w⟩ := q
    by_cases same : k = name
    · rw [put, if_pos same, same, List.mem_cons] at h
      exact h.imp_right (List.mem_cons_of_mem _)
    · rw [put, if_neg same, List.mem_cons] at h
      rcases h with rfl | h
      · exact .inr List.mem_cons_self
      · exact (ih h).imp_right (List.mem_cons_of_mem _)

theorem mem_names_put {name other : Text} {v : Json} {ms : Members} :
    other ∈ (put name v ms).map Prod.fst ↔ other = name ∨ other ∈ ms.map Prod.fst := by
  induction ms with
  | nil => simp [put]
  | cons p ms ih =>
    obtain ⟨k, w⟩ := p
    by_cases same : k = name
    · subst same
      rw [put, if_pos rfl, List.map_cons, List.map_cons, List.mem_cons]
      simp
    · rw [put, if_neg same, List.map_cons, List.map_cons, List.mem_cons, List.mem_cons, ih]
      exact or_left_comm

theorem Distinct.put {ms : Members} (distinct : Distinct ms) (name : Text) (v : Json) :
    Distinct (put name v ms) := by
  induction ms with
  | nil => simp [Distinct, Members.put]
  | cons p ms ih =>
    obtain ⟨k, w⟩ := p
    obtain ⟨absent, rest⟩ := distinct_cons.mp distinct
    by_cases same : k = name
    · rw [Members.put, if_pos same]
      exact distinct_cons.mpr ⟨absent, rest⟩
    · rw [Members.put, if_neg same, distinct_cons, mem_names_put, not_or]
      exact ⟨⟨same, absent⟩, ih rest⟩

theorem erase_sublist (name : Text) (ms : Members) : (erase name ms).Sublist ms := by
  induction ms with
  | nil => exact List.Sublist.refl _
  | cons p ms ih =>
    obtain ⟨k, w⟩ := p
    rw [erase]
    split
    · exact List.sublist_cons_self _ _
    · exact ih.cons_cons _

theorem Distinct.erase {ms : Members} (distinct : Distinct ms) (name : Text) :
    Distinct (erase name ms) :=
  distinct.sublist ((erase_sublist name ms).map Prod.fst)

theorem get?_erase {ms : Members} (distinct : Distinct ms) (name other : Text) :
    get? other (erase name ms) = if name = other then none else get? other ms := by
  induction ms with
  | nil => simp [erase, get?]
  | cons p ms ih =>
    obtain ⟨k, w⟩ := p
    obtain ⟨absent, rest⟩ := distinct_cons.mp distinct
    by_cases same : k = name
    · subst same
      rw [erase, if_pos rfl, get?_cons]
      by_cases found : k = other
      · subst found
        rw [if_pos rfl, get?_eq_none_iff]
        exact absent
      · rw [if_neg found, if_neg found]
    · rw [erase, if_neg same, get?_cons, get?_cons, ih rest]
      by_cases found : k = other
      · rw [if_pos found, if_pos found, if_neg (by rintro rfl; exact same found)]
      · rw [if_neg found, if_neg found]

/-! ## Lists of members -/

theorem put_of_absent {name : Text} {v : Json} {ms : Members} (absent : name ∉ ms.map Prod.fst) :
    put name v ms = ms ++ [(name, v)] := by
  induction ms with
  | nil => rfl
  | cons p ms ih =>
    obtain ⟨k, w⟩ := p
    rw [List.map_cons, List.mem_cons, not_or] at absent
    rw [put, if_neg (Ne.symm absent.1), ih absent.2]
    rfl

theorem foldl_put_append {front ms : Members} (distinct : Distinct (front ++ ms)) :
    ms.foldl (fun acc p => put p.1 p.2 acc) front = front ++ ms := by
  induction ms generalizing front with
  | nil => simp
  | cons p ms ih =>
    obtain ⟨k, v⟩ := p
    -- What is put is new each time, so it goes to the end.
    have absent : k ∉ front.map Prod.fst := by
      intro mem
      rw [Distinct, List.map_append, List.nodup_append] at distinct
      exact distinct.2.2 k mem k (by simp) rfl
    have shifted : front ++ (k, v) :: ms = front ++ [(k, v)] ++ ms := by simp
    rw [shifted] at distinct ⊢
    rw [List.foldl_cons, put_of_absent absent, ih distinct]

/-- A list in which every name stands once is taken as it is. -/
theorem ofList_of_distinct {ms : Members} (distinct : Distinct ms) : ofList ms = ms := by
  have all : ms.foldl (fun acc p => put p.1 p.2 acc) [] = [] ++ ms :=
    foldl_put_append (by simpa using distinct)
  simpa [ofList] using all

/-! ## Sorting -/

theorem insertSorted_perm (p : Text × Json) (ms : Members) :
    (insertSorted p ms).Perm (p :: ms) := by
  induction ms with
  | nil => exact List.Perm.refl _
  | cons q ms ih =>
    rw [insertSorted]
    split
    · exact List.Perm.refl _
    · exact (ih.cons q).trans (List.Perm.swap p q ms)

theorem sorted_perm (ms : Members) : (sorted ms).Perm ms := by
  induction ms with
  | nil => exact List.Perm.refl _
  | cons p ms ih => exact (insertSorted_perm p (sorted ms)).trans (ih.cons p)

theorem Distinct.sorted {ms : Members} (distinct : Distinct ms) : Distinct (sorted ms) :=
  ((sorted_perm ms).map Prod.fst).nodup_iff.mpr distinct

theorem get?_sorted {ms : Members} (distinct : Distinct ms) (name : Text) :
    get? name (sorted ms) = get? name ms :=
  (get?_perm distinct (sorted_perm ms).symm name).symm

theorem sortedMembers_eq_map (ms : Members) :
    sortedMembers ms = ms.map fun p => (p.1, Json.sorted p.2) := by
  induction ms with
  | nil => rfl
  | cons p ms ih =>
    obtain ⟨k, v⟩ := p
    rw [sortedMembers, ih]
    rfl

theorem names_sortedMembers (ms : Members) :
    (sortedMembers ms).map Prod.fst = ms.map Prod.fst := by
  simp [sortedMembers_eq_map]

theorem Distinct.sortedMembers {ms : Members} (distinct : Distinct ms) :
    Distinct (sortedMembers ms) := by
  rw [Distinct, names_sortedMembers]
  exact distinct

theorem get?_sortedMembers (name : Text) (ms : Members) :
    get? name (sortedMembers ms) = (get? name ms).map Json.sorted := by
  induction ms with
  | nil => rfl
  | cons p ms ih =>
    obtain ⟨k, v⟩ := p
    rw [sortedMembers, get?_cons, get?_cons, ih]
    split <;> rfl

end Json.Members

end RedGreen
