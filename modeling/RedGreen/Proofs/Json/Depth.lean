import RedGreen.Proofs.Json.Received

/-!
# Texts that are nested too deeply

A reader gives up on a text for its depth only when the text opens more containers than may be
nested.  The bound that the readers count down besides never ends a reading, as every container
costs a character.
-/

namespace RedGreen

namespace Json

/-- Brackets and braces that open a container. -/
def opens (c : CodePoint) : Bool := c = '[' || c = '\x7b'

/-- A text opens at most this many containers. -/
def openers (t : Text) : Nat := List.countP opens t

theorem openers_suffix {t rest : Text} (behind : rest <:+ t) : openers rest ≤ openers t :=
  behind.sublist.countP_le

theorem openers_cons {c : CodePoint} (opening : opens c = true) (t : Text) :
    openers (c :: t) = openers t + 1 :=
  List.countP_cons_of_pos opening

/-! ## Readers of leaves -/

section

variable {α β : Type} {t : Text}

theorem map_ne_tooDeep {r : Reading α} (f : α × Text → β × Text) (read : r ≠ .error .tooDeep) :
    r.map f ≠ .error .tooDeep := by
  cases r with
  | error stop =>
    intro deep
    apply read
    cases deep
    rfl
  | ok r => nofun

theorem pairedHalf?_ne_tooDeep : pairedHalf? t ≠ .error .tooDeep := by
  intro deep
  unfold pairedHalf? at deep
  split at deep
  · split at deep
    · split at deep <;> cases deep
    · cases deep
  · cases deep

theorem readUnicodeEscape_ne_tooDeep : readUnicodeEscape t ≠ .error .tooDeep := by
  intro deep
  unfold readUnicodeEscape at deep
  split at deep
  · cases deep
  · split at deep
    · cases deep
    · split at deep
      · split at deep
        next failed =>
          cases deep
          exact pairedHalf?_ne_tooDeep failed
        next => cases deep
        next => cases deep
      · cases deep

theorem readString_ne_tooDeep (opening fuel : Nat) :
    readString opening fuel t ≠ .error .tooDeep := by
  fun_induction readString opening fuel t with
  | case1 | case2 | case3 | case4 | case8 | case9 =>
    intro deep
    cases deep
  | case5 fuel t stop failed =>
    intro deep
    cases deep
    exact readUnicodeEscape_ne_tooDeep failed
  | case6 _ _ _ _ _ _ ih => exact map_ne_tooDeep _ ih
  | case7 _ _ _ _ _ _ _ ih => exact map_ne_tooDeep _ ih
  | case10 _ _ _ _ _ _ ih => exact map_ne_tooDeep _ ih

theorem readNumber?_ne_tooDeep : readNumber? t ≠ some (.error .tooDeep) := by
  intro deep
  unfold readNumber? at deep
  obtain ⟨whole, _, deep⟩ := Option.map_eq_some_iff.mp deep
  dsimp only at deep
  split at deep
  · -- An integer may have too many digits, but it is flat.
    split at deep <;> cases deep
  · cases deep

theorem readScalar_ne_tooDeep : readScalar t ≠ .error .tooDeep := by
  intro deep
  unfold readScalar at deep
  split at deep
  next => cases deep
  next =>
    split at deep
    next number =>
      rw [deep] at number
      exact readNumber?_ne_tooDeep number
    next => cases deep

end

/-! ## Values -/

/-- With this much fuel, texts that open no more containers than may be nested are not too deep. -/
structure EnoughFuel (fuel : Nat) : Prop where
  value : ∀ {depth : Nat} {t : Text}, t.IsScalar → 2 * t.length + 1 ≤ fuel → openers t ≤ depth →
    readValue fuel depth t ≠ .error .tooDeep
  items : ∀ {depth : Nat} {t : Text}, t.IsScalar → 2 * t.length + 2 ≤ fuel → openers t ≤ depth →
    readItems fuel depth t ≠ .error .tooDeep
  members : ∀ {depth : Nat} {t : Text}, t.IsScalar → 2 * t.length + 2 ≤ fuel →
    openers t ≤ depth → readMembers fuel depth t ≠ .error .tooDeep

theorem EnoughFuel.zero : EnoughFuel 0 where
  value _ enough := by omega
  items _ enough := by omega
  members _ enough := by omega

section

variable {fuel depth : Nat} {t : Text}

/-- A container that is opened costs one of the depth and one of the length. -/
theorem inside_container {c d : CodePoint} {u : Text} (gap : skipGap t = d :: u)
    (opening : opens c = true) (enough : 2 * (c :: t).length + 1 ≤ fuel + 1)
    (shallow : openers (c :: t) ≤ depth + 1) :
    2 * (d :: u).length + 2 ≤ fuel ∧ openers (d :: u) ≤ depth := by
  have behind : d :: u <:+ t := gap ▸ skipGap_suffix t
  have length := behind.length_le
  have fewer := openers_suffix behind
  rw [openers_cons opening] at shallow
  rw [List.length_cons] at enough
  omega

theorem EnoughFuel.value_succ (back : EnoughFuel fuel) (scalar : t.IsScalar)
    (enough : 2 * t.length + 1 ≤ fuel + 1) (shallow : openers t ≤ depth) :
    readValue (fuel + 1) depth t ≠ .error .tooDeep := by
  cases t with
  | nil => nofun
  | cons c t =>
  have within {u : Text} (gap : skipGap t = u) : u.IsScalar :=
    scalar.suffix (gap ▸ (skipGap_suffix t).trans (List.suffix_cons c t))
  rw [readValue.eq_def]
  dsimp only
  split
  · exact map_ne_tooDeep _ (readString_ne_tooDeep _ _)
  · split
    next brace =>
      have opening : opens c = true := by simp [opens, brace]
      cases depth with
      | zero =>
        rw [openers_cons opening] at shallow
        omega
      | succ depth =>
      dsimp only
      split
      · nofun
      next d u gap =>
        split
        · nofun
        · obtain ⟨enough, shallow⟩ := inside_container gap opening enough shallow
          exact map_ne_tooDeep _ (back.members (within gap) enough shallow)
    next =>
      split
      next bracket =>
        have opening : opens c = true := by simp [opens, bracket]
        cases depth with
        | zero =>
          rw [openers_cons opening] at shallow
          omega
        | succ depth =>
        dsimp only
        split
        · nofun
        next d u gap =>
          split
          · nofun
          · obtain ⟨enough, shallow⟩ := inside_container gap opening enough shallow
            exact map_ne_tooDeep _ (back.items (within gap) enough shallow)
      next => exact readScalar_ne_tooDeep

theorem EnoughFuel.items_succ (back : EnoughFuel fuel) (scalar : t.IsScalar)
    (enough : 2 * t.length + 2 ≤ fuel + 1) (shallow : openers t ≤ depth) :
    readItems (fuel + 1) depth t ≠ .error .tooDeep := by
  rw [readItems]
  split
  next stop failed =>
    intro deep
    cases deep
    exact back.value scalar (by omega) shallow failed
  next item rest read =>
    have behind := ((receives fuel).value scalar read).1
    split
    · intro deep
      cases deep
    next c u gap =>
      split
      · intro deep
        cases deep
      · split
        next =>
          have comma : c :: u <:+ t := (gap ▸ skipGap_suffix rest).trans behind
          have length := comma.length_le
          rw [List.length_cons] at length
          have inside : skipGap u <:+ t :=
            (skipGap_suffix u).trans ((List.suffix_cons c u).trans comma)
          have shorter := (skipGap_suffix u).length_le
          have fewer := openers_suffix inside
          exact map_ne_tooDeep _ (back.items (scalar.suffix inside) (by omega) (by omega))
        next =>
          intro deep
          cases deep

theorem EnoughFuel.members_succ (back : EnoughFuel fuel) (scalar : t.IsScalar)
    (enough : 2 * t.length + 2 ≤ fuel + 1) (shallow : openers t ≤ depth) :
    readMembers (fuel + 1) depth t ≠ .error .tooDeep := by
  cases t with
  | nil =>
    intro deep
    cases deep
  | cons c t =>
  rw [readMembers.eq_def]
  dsimp only
  rw [List.length_cons] at enough
  split
  · split
    next stop failed =>
      intro deep
      cases deep
      exact readString_ne_tooDeep _ _ failed
    next name afterName string =>
      have inText := List.suffix_cons c t
      have behind := (readString_eq_ok (scalar.suffix inText) string).behind
      split
      · intro deep
        cases deep
      next d u gap =>
        split
        next =>
          -- Behind the colon: the value of the member.
          have colon : d :: u <:+ t := (gap ▸ skipGap_suffix afterName).trans behind
          have length := colon.length_le
          rw [List.length_cons] at length
          have inside : skipGap u <:+ c :: t :=
            ((skipGap_suffix u).trans ((List.suffix_cons d u).trans colon)).trans inText
          have shorter := (skipGap_suffix u).length_le
          have fewer := openers_suffix inside
          split
          next stop failed =>
            intro deep
            cases deep
            exact back.value (scalar.suffix inside) (by omega) (by omega) failed
          next value afterValue read =>
            have behind := ((receives fuel).value (scalar.suffix inside) read).1
            split
            · intro deep
              cases deep
            next e v gap =>
              split
              · intro deep
                cases deep
              · split
                next =>
                  have comma : e :: v <:+ skipGap u :=
                    (gap ▸ skipGap_suffix afterValue).trans behind
                  have more : skipGap v <:+ skipGap u :=
                    (skipGap_suffix v).trans ((List.suffix_cons e v).trans comma)
                  have length := more.length_le
                  have fewer := openers_suffix (more.trans inside)
                  exact map_ne_tooDeep _
                    (back.members (scalar.suffix (more.trans inside)) (by omega) (by omega))
                next =>
                  intro deep
                  cases deep
        next =>
          intro deep
          cases deep
  · intro deep
    cases deep

end

theorem enoughFuel (fuel : Nat) : EnoughFuel fuel := by
  induction fuel with
  | zero => exact .zero
  | succ fuel back => exact ⟨back.value_succ, back.items_succ, back.members_succ⟩

/-- A text that is too deep for a reader opens more containers than may be nested. -/
theorem openers_of_tooDeep {t : Text} (scalar : t.IsScalar) (deep : read t = .error .tooDeep) :
    depthLimit < openers t := by
  by_contra shallow
  have behind := skipGap_suffix t
  have length := behind.length_le
  have fewer := openers_suffix behind
  have flat : readValue (2 * t.length + 2) depthLimit (skipGap t) ≠ .error .tooDeep :=
    (enoughFuel _).value (scalar.suffix behind) (by omega) (by omega)
  unfold read at deep
  split at deep
  next => cases deep
  next c u =>
    split at deep
    next => cases deep
    next =>
      split at deep
      next stop failed =>
        cases stop with
        | tooDeep => exact flat failed
        | fault fault left => cases deep
        | tooManyDigits count => cases deep
      next =>
        split at deep
        next => cases deep
        next => cases deep

end Json

end RedGreen
