import RedGreen.Validation.Field

/-!
# Checked values

A value put together from checked parts is accepted exactly when all parts are.
-/

namespace RedGreen

namespace Checked

theorem map_seq (g : β → γ) (f : Checked (α → β)) (x : Checked α) :
    map g (f <*> x) = map (fun h => g ∘ h) f <*> x := by
  rcases f with (first | _) | f <;> rcases x with (more | _) | a <;> rfl

theorem map_eq_ok {f : α → β} {x : Checked α} {b : β} (accepted : f <$> x = .ok b) :
    ∃ a, x = .ok a ∧ f a = b := by
  rcases x with e | a
  · cases accepted
  · exact ⟨a, rfl, Except.ok.inj accepted⟩

theorem seq_eq_ok {f : Checked (α → β)} {x : Checked α} {b : β} (accepted : f <*> x = .ok b) :
    ∃ g a, f = .ok g ∧ x = .ok a ∧ g a = b := by
  rcases f with (first | _) | g
  · rcases x with (more | _) | a <;> cases accepted
  · cases accepted
  · rcases x with e | a
    · cases accepted
    · exact ⟨g, a, rfl, rfl, Except.ok.inj accepted⟩

theorem andThen_eq_ok {x : Checked α} {f : α → Checked β} {b : β}
    (accepted : x.andThen f = .ok b) : ∃ a, x = .ok a ∧ f a = .ok b := by
  rcases x with e | a
  · cases accepted
  · exact ⟨a, rfl, accepted⟩

theorem both_eq_ok {x : Checked α} {y : Unit → Checked β} {p : α × β}
    (accepted : x.both y = .ok p) : x = .ok p.1 ∧ y () = .ok p.2 := by
  unfold both at accepted
  split at accepted
  next a =>
    obtain ⟨b, second, rfl⟩ := map_eq_ok accepted
    exact ⟨rfl, second⟩
  next => cases accepted
  next => split at accepted <;> cases accepted

theorem under_eq_ok {step : PathStep} {x : Checked α} {a : α} (accepted : x.under step = .ok a) :
    x = .ok a := by
  rcases x with (issues | _) | b
  · cases accepted
  · cases accepted
  · exact accepted

end Checked

namespace Field

/-- A text is accepted as not empty when it can be encoded and has a character. -/
theorem nonEmptyText_eq_ok_iff {v : Json} {t : Text} :
    nonEmptyText v = .ok t ↔ v = .str t ∧ t.IsScalar ∧ t ≠ [] := by
  constructor
  · intro accepted
    cases v with
    | str u =>
      change (if ¬ Text.IsScalar u then Checked.reject .stringUnicode
        else if u.isEmpty then Checked.reject .stringTooShort
        else Checked.accept u) = .ok t at accepted
      by_cases scalar : Text.IsScalar u
      · rw [if_neg (not_not_intro scalar)] at accepted
        cases u with
        | nil => cases accepted
        | cons c u =>
          cases accepted
          exact ⟨rfl, scalar, List.cons_ne_nil c u⟩
      · rw [if_pos scalar] at accepted
        cases accepted
    | null | bool _ | int _ | float _ | arr _ | obj _ => cases accepted
  · rintro ⟨rfl, scalar, nonempty⟩
    have more : t.isEmpty = false := by simpa using nonempty
    show (if ¬ t.IsScalar then Checked.reject .stringUnicode
      else if t.isEmpty then Checked.reject .stringTooShort
      else Checked.accept t) = _
    rw [if_neg (not_not_intro scalar), more]
    rfl

/-! ## Members and items -/

theorem members_eq_ok {v : Json} {document : Json.Members} (accepted : members v = .ok document) :
    v = .obj document := by
  cases v <;> cases accepted
  rfl

theorem model_eq_ok {name : Text} {v : Json} {document : Json.Members}
    (accepted : model name v = .ok document) : v = .obj document := by
  cases v <;> cases accepted
  rfl

theorem orNull_eq_ok {check : Json → Checked α} {v : Json} {a : α}
    (accepted : orNull check v = .ok (some a)) : check v = .ok a := by
  cases v with
  | null => cases accepted
  | bool | int | float | str | arr | obj =>
    obtain ⟨b, checked, same⟩ := Checked.map_eq_ok accepted
    cases same
    exact checked

theorem required_eq_ok {name : Text} {check : Json → Checked α} {document : Json.Members} {a : α}
    (accepted : required name check document = .ok a) :
    ∃ v, document.get? name = some v ∧ check v = .ok a := by
  rw [required] at accepted
  cases found : document.get? name with
  | none =>
    rw [found] at accepted
    cases accepted
  | some v =>
    rw [found] at accepted
    exact ⟨v, rfl, Checked.under_eq_ok accepted⟩

theorem optional_cases {name : Text} {default a : α} {check : Json → Checked α}
    {document : Json.Members} (accepted : optional name default check document = .ok a) :
    a = default ∨ ∃ v, document.get? name = some v ∧ check v = .ok a := by
  rw [optional] at accepted
  cases found : document.get? name with
  | none =>
    rw [found] at accepted
    cases accepted
    exact .inl rfl
  | some v =>
    rw [found] at accepted
    exact .inr ⟨v, rfl, Checked.under_eq_ok accepted⟩

/-- What holds of the default and of all values that the check accepts holds of the member. -/
theorem optional_eq_ok {name : Text} {default a : α} {check : Json → Checked α}
    {document : Json.Members} {p : α → Prop}
    (accepted : optional name default check document = .ok a)
    (byDefault : p default) (given : ∀ v b, check v = .ok b → p b) : p a := by
  rw [optional] at accepted
  cases found : document.get? name with
  | none =>
    rw [found] at accepted
    cases accepted
    exact byDefault
  | some v =>
    rw [found] at accepted
    exact given v a (Checked.under_eq_ok accepted)

/-- Each accepted item was checked. -/
theorem itemsFrom_eq_ok {check : Json → Checked α} {index : Nat} {items : List Json} {xs : List α}
    (accepted : itemsFrom check index items = .ok xs) :
    ∀ x ∈ xs, ∃ v ∈ items, check v = .ok x := by
  induction items generalizing index xs with
  | nil =>
    cases accepted
    exact nofun
  | cons v vs ih =>
    rw [itemsFrom] at accepted
    obtain ⟨⟨x, rest⟩, both, rfl⟩ := Checked.map_eq_ok accepted
    obtain ⟨first, others⟩ := Checked.both_eq_ok both
    refine List.forall_mem_cons.mpr ⟨⟨v, List.mem_cons_self, Checked.under_eq_ok first⟩, ?_⟩
    intro y mem
    obtain ⟨w, among, checked⟩ := ih others y mem
    exact ⟨w, List.mem_cons_of_mem v among, checked⟩

theorem list_eq_ok {check : Json → Checked α} {v : Json} {xs : List α}
    (accepted : list check v = .ok xs) :
    ∃ items, v = .arr items ∧ ∀ x ∈ xs, ∃ w ∈ items, check w = .ok x := by
  cases v with
  | arr items => exact ⟨items, rfl, itemsFrom_eq_ok accepted⟩
  | null | bool _ | int _ | float _ | str _ | obj _ => cases accepted

theorem itemsFrom_map {check : Json → Checked β} {f : α → Json} {g : α → β} {xs : List α}
    (accepts : ∀ x ∈ xs, check (f x) = .ok (g x)) (index : Nat) :
    itemsFrom check index (xs.map f) = .ok (xs.map g) := by
  induction xs generalizing index with
  | nil => rfl
  | cons x xs ih =>
    rw [List.forall_mem_cons] at accepts
    rw [List.map_cons, itemsFrom, accepts.1, ih accepts.2]
    rfl

end Field

end RedGreen
