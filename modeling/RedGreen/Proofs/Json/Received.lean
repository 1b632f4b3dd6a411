import RedGreen.Proofs.Json.Characters
import RedGreen.Proofs.Json.Joining
import RedGreen.Proofs.Text.Utf8

/-!
# What a reader gives

A decoded text is read as a value whose objects hold every name once, whose texts a document keeps
and which no reader stops at.  So whatever was read can be written as a document and read again.
-/

namespace RedGreen

theorem Text.IsScalar.suffix {t rest : Text} (scalar : t.IsScalar) (behind : rest <:+ t) :
    rest.IsScalar := fun c mem => scalar c (behind.subset mem)

namespace Json

theorem skipGap_suffix (t : Text) : skipGap t <:+ t := List.dropWhile_suffix isGap

/-! ## Strings -/

theorem readHex4?_suffix {t rest : Text} {n : Nat} (read : readHex4? t = some (n, rest)) :
    rest <:+ t := by
  unfold readHex4? at read
  split at read
  · split at read
    · cases read
      exact List.suffix_append [_, _, _, _] rest
    · cases read
  · cases read

theorem pairedHalf?_eq_some {t rest : Text} {low : Nat}
    (paired : pairedHalf? t = .ok (some (low, rest))) : rest <:+ t ∧ isLowHalf low = true := by
  unfold pairedHalf? at paired
  split at paired
  next a b u =>
    split at paired
    · split at paired
      next n more read =>
        split at paired
        next isLow =>
          cases paired
          exact ⟨(readHex4?_suffix read).trans (List.suffix_append [a, b] u), isLow⟩
        next => cases paired
      next => cases paired
    · cases paired
  next => cases paired

theorem val_ofNat_isLowHalf {n : Nat} (isLow : isLowHalf (CodePoint.ofNat n).val = true) :
    isLowHalf n = true := by
  rw [CodePoint.ofNat] at isLow
  split at isLow
  · exact isLow
  · cases isLow

theorem val_ofNat_isHighHalf {n : Nat} (isHigh : isHighHalf (CodePoint.ofNat n).val = true) :
    isHighHalf n = true := by
  rw [CodePoint.ofNat] at isHigh
  split at isHigh
  · exact isHigh
  · cases isHigh

/-- What an escape gives: when it is a high half, then no low half is escaped behind it. -/
theorem readUnicodeEscape_eq_ok {t rest : Text} {point : CodePoint}
    (read : readUnicodeEscape t = .ok (point, rest)) :
    rest <:+ t ∧ (isHighHalf point.val = true → pairedHalf? rest = .ok none) ∧
      (isLowHalf point.val = true →
        4 < t.length ∧ ∃ n, readHex4? t = some (n, rest) ∧ isLowHalf n = true) := by
  unfold readUnicodeEscape at read
  split at read
  next => cases read
  next long =>
    split at read
    next => cases read
    next n more hex =>
      split at read
      next isHigh =>
        split at read
        next => cases read
        next low more' paired =>
          obtain ⟨behind, isLow⟩ := pairedHalf?_eq_some paired
          rw [Except.ok.injEq, Prod.mk.injEq] at read
          rw [← read.1, ← read.2]
          refine ⟨behind.trans (readHex4?_suffix hex), fun joined => ?_, fun joined => ?_⟩
          · rw [Text.not_isHighHalf_joinHalves isHigh isLow] at joined
            cases joined
          · rw [Text.not_isLowHalf_joinHalves isHigh isLow] at joined
            cases joined
        next paired =>
          cases read
          refine ⟨readHex4?_suffix hex, fun _ => paired, fun isLow => ?_⟩
          exact ⟨by omega, n, hex, val_ofNat_isLowHalf isLow⟩
      next single =>
        cases read
        refine ⟨readHex4?_suffix hex, fun isHigh => ?_, fun isLow => ?_⟩
        · exact absurd (val_ofNat_isHighHalf isHigh) single
        · exact ⟨by omega, n, hex, val_ofNat_isLowHalf isLow⟩

/-- A low half that was escaped makes a pair with a high half in front of it. -/
theorem not_isLowHalf_of_unpaired {t rest : Text} {point : CodePoint}
    (read : readUnicodeEscape t = .ok (point, rest))
    (unpaired : pairedHalf? (CodePoint.ofChar '\\' :: CodePoint.ofChar 'u' :: t) = .ok none) :
    isLowHalf point.val = false := by
  cases isLow : isLowHalf point.val with
  | false => rfl
  | true =>
    obtain ⟨long, n, hex, low⟩ := (readUnicodeEscape_eq_ok read).2.2 isLow
    rw [pairedHalf?, if_pos ⟨rfl, rfl, long⟩, hex] at unpaired
    simp [low] at unpaired

theorem plainEscape?_eq_some {e c : CodePoint} (plain : plainEscape? e = some c) :
    isHighHalf c.val = false ∧ isLowHalf c.val = false := by
  have ascii : c.val < 0x80 := by
    unfold plainEscape? at plain
    split at plain
    next marks =>
      cases plain
      rcases marks with rfl | rfl | rfl <;> decide
    next =>
      repeat' split at plain
      all_goals
        cases plain
        try decide
  simp only [isHighHalf, isLowHalf, Bool.and_eq_false_iff, decide_eq_false_iff_not]
  omega

theorem not_half_of_isScalar {c : CodePoint} (scalar : c.IsScalar) :
    isHighHalf c.val = false ∧ isLowHalf c.val = false := by
  simp only [CodePoint.IsScalar] at scalar
  simp only [isHighHalf, isLowHalf, Bool.and_eq_false_iff, decide_eq_false_iff_not]
  omega

/-- What a string gives: no pair of halves, as escaped ones are joined and others do not stand in
the text.  Behind a high half nothing begins with a low one. -/
structure ReceivedString (t u rest : Text) : Prop where
  behind : rest <:+ t
  joinless : u.Joinless
  head : pairedHalf? t = .ok none → ∀ c ∈ u.head?, isLowHalf c.val = false

theorem ReceivedString.cons {t u rest v : Text} {c : CodePoint} (more : ReceivedString t u rest)
    (behind : t <:+ v) (unpaired : isHighHalf c.val = true → pairedHalf? t = .ok none)
    (head : pairedHalf? v = .ok none → isLowHalf c.val = false) :
    ReceivedString v (c :: u) rest where
  behind := more.behind.trans behind
  joinless := Text.joinless_cons more.joinless fun isHigh => more.head (unpaired isHigh)
  head free d mem := by
    cases mem
    exact head free

theorem map_cons_eq_ok {r : Reading Text} {c : CodePoint} {u rest : Text}
    (read : r.map (fun r => (c :: r.1, r.2)) = .ok (u, rest)) :
    ∃ v, u = c :: v ∧ r = .ok (v, rest) := by
  cases r with
  | error stop => cases read
  | ok r =>
    cases read
    exact ⟨r.1, rfl, rfl⟩

theorem readString_eq_ok {opening fuel : Nat} {t u rest : Text} (scalar : t.IsScalar)
    (read : readString opening fuel t = .ok (u, rest)) : ReceivedString t u rest := by
  fun_induction readString opening fuel t generalizing u with
  | case1 | case2 | case4 | case5 | case8 | case9 => cases read
  | case3 fuel t =>
    -- The closing quote.
    cases read
    exact ⟨List.suffix_cons _ rest, trivial, fun _ _ mem => nomatch mem⟩
  | case6 fuel t point more escape _ ih =>
    obtain ⟨v, rfl, others⟩ := map_cons_eq_ok read
    obtain ⟨behind, unpaired, _⟩ := readUnicodeEscape_eq_ok escape
    have behind : more <:+ CodePoint.ofChar '\\' :: CodePoint.ofChar 'u' :: t :=
      behind.trans (List.suffix_append [_, _] t)
    exact (ih (scalar.suffix behind) others).cons behind unpaired
      (not_isLowHalf_of_unpaired escape)
  | case7 fuel e t _ point plain _ ih =>
    obtain ⟨v, rfl, others⟩ := map_cons_eq_ok read
    have behind : t <:+ CodePoint.ofChar '\\' :: e :: t := List.suffix_append [_, _] t
    obtain ⟨single, alone⟩ := plainEscape?_eq_some plain
    exact (ih (scalar.suffix behind) others).cons behind
      (fun isHigh => absurd isHigh (by simp [single])) fun _ => alone
  | case10 fuel c t _ _ _ ih =>
    obtain ⟨v, rfl, others⟩ := map_cons_eq_ok read
    have behind : t <:+ c :: t := List.suffix_cons c t
    obtain ⟨single, alone⟩ := not_half_of_isScalar (scalar c List.mem_cons_self)
    exact (ih (scalar.suffix behind) others).cons behind
      (fun isHigh => absurd isHigh (by simp [single])) fun _ => alone

/-! ## Numbers -/

theorem longInt?_digits {ds : List Nat} (digits : ∀ d ∈ ds, d < 10) (few : ds.length ≤ digitLimit)
    {i : Int} (value : i.natAbs = Text.digitsValue ds) : longInt? i = none := by
  obtain ⟨k, limit⟩ : ∃ k, digitLimit = k + 1 := ⟨4299, rfl⟩
  rw [limit] at few
  have small : i.natAbs < 10 ^ (k + 1) := by
    rw [value]
    exact Nat.lt_of_lt_of_le (Text.digitsValue_lt digits) (Nat.pow_le_pow_right (by decide) few)
  have short : digitCount i ≤ k + 1 := Text.length_decimalDigits_le small
  rw [longInt?, limit, if_neg (Nat.not_lt.mpr short)]

theorem readWhole?_eq_some {t rest : Text} {ds : List Nat} (read : readWhole? t = some (ds, rest)) :
    rest <:+ t ∧ ∀ d ∈ ds, d < 10 := by
  unfold readWhole? at read
  have behind := Text.spanDigits_suffix t
  have digits := fun d => Text.lt_ten_of_mem_spanDigits (t := t) (d := d)
  split at read
  next => cases read
  next =>
    cases read
    exact ⟨List.drop_suffix 1 t, by decide⟩
  next ds rest _ span =>
    cases read
    rw [span] at behind digits
    exact ⟨behind, digits⟩

theorem readFraction?_suffix {t rest : Text} {ds : List Nat}
    (read : readFraction? t = some (ds, rest)) : rest <:+ t := by
  unfold readFraction? at read
  split at read
  next => cases read
  next c t =>
    have behind := Text.spanDigits_suffix t
    split at read
    · split at read
      next => cases read
      next ds rest _ span =>
        cases read
        rw [span] at behind
        exact behind.trans (List.suffix_cons c t)
    · cases read

theorem readSign_suffix (t : Text) : (Numeral.readSign t).2 <:+ t := by
  unfold Numeral.readSign
  split
  next => exact List.suffix_rfl
  next c t =>
    split
    · exact List.suffix_cons c t
    · split
      · exact List.suffix_cons c t
      · exact List.suffix_rfl

theorem readExponent?_suffix {t rest : Text} {e : Int} (read : readExponent? t = some (e, rest)) :
    rest <:+ t := by
  unfold readExponent? at read
  split at read
  next => cases read
  next c t =>
    have signed := readSign_suffix t
    have behind := Text.spanDigits_suffix (Numeral.readSign t).2
    split at read
    · dsimp only at read
      split at read
      next => cases read
      next ds more _ span =>
        rw [Option.some.injEq, Prod.mk.injEq] at read
        rw [span, read.2] at behind
        exact (behind.trans signed).trans (List.suffix_cons c t)
    · cases read

/-- What was read; it can be written as a document and read again. -/
structure Received (depth : Nat) (v : Json) : Prop where
  named : WellNamed v
  within : WithinLimits depth v

mutual

theorem joined_of_joinless : (v : Json) → (∀ t ∈ strings v, t.Joinless) → v.joined = v
  | .null, _ | .bool _, _ | .int _, _ | .float _, _ => rfl
  | .str t, joinless => by
    rw [joined, Text.joined_of_joinless (joinless t (List.mem_singleton.mpr rfl))]
  | .arr items, joinless => by rw [joined, joinedItems_of_joinless items joinless]
  | .obj members, joinless => by rw [joined, joinedMembers_of_joinless members joinless]

theorem joinedItems_of_joinless :
    (vs : List Json) → (∀ t ∈ itemStrings vs, t.Joinless) → joinedItems vs = vs
  | [], _ => rfl
  | v :: vs, joinless => by
    rw [itemStrings, List.forall_mem_append] at joinless
    rw [joinedItems, joined_of_joinless v joinless.1, joinedItems_of_joinless vs joinless.2]

theorem joinedMembers_of_joinless :
    (ms : List (Text × Json)) → (∀ t ∈ memberStrings ms, t.Joinless) → joinedMembers ms = ms
  | [], _ => rfl
  | (k, v) :: ms, joinless => by
    rw [memberStrings, List.forall_mem_append, List.forall_mem_cons] at joinless
    rw [joinedMembers, joined_of_joinless v joinless.1.2, joinedMembers_of_joinless ms joinless.2]

end

/-- What a reader gave: besides, no text in it holds the two halves of a character. -/
structure Obtained (depth : Nat) (v : Json) : Prop extends Received depth v where
  joinless : ∀ t ∈ strings v, t.Joinless

theorem readNumber?_eq_ok {t rest : Text} {v : Json} (read : readNumber? t = some (.ok (v, rest)))
    (depth : Nat) : rest <:+ t ∧ Obtained depth v := by
  cases t with
  | nil => cases read
  | cons c u =>
  -- What stands behind the sign, if there is one.
  have unsigned :
      (if c = CodePoint.ofChar '-' then (true, u) else (false, c :: u)).2 <:+ c :: u := by
    split
    · exact List.suffix_cons c u
    · exact List.suffix_rfl
  unfold readNumber? at read
  dsimp only at read
  generalize (if c = CodePoint.ofChar '-' then (true, u) else (false, c :: u)) = signed
    at read unsigned
  obtain ⟨⟨whole, afterWhole⟩, readWhole, read⟩ := Option.map_eq_some_iff.mp read
  obtain ⟨behind, digits⟩ := readWhole?_eq_some readWhole
  replace behind := behind.trans unsigned
  dsimp only at read
  have float {x : Binary64} : Obtained depth (.float x) :=
    ⟨⟨trivial, Nat.zero_le _, rfl⟩, List.forall_mem_nil _⟩
  cases fraction : readFraction? afterWhole with
  | none =>
    rw [fraction] at read
    dsimp only at read
    cases exponent : readExponent? afterWhole with
    | none =>
      -- Neither a fraction nor an exponent: an integer.
      rw [exponent] at read
      dsimp only at read
      split at read
      next => cases read
      next few =>
        cases read
        refine ⟨behind, ⟨trivial, Nat.zero_le _, ?_⟩, List.forall_mem_nil _⟩
        refine longInt?_digits digits (Nat.not_lt.mp few) ?_
        split <;> simp
    | some e =>
      rw [exponent] at read
      cases read
      exact ⟨(readExponent?_suffix exponent).trans behind, float⟩
  | some f =>
    have behind := (readFraction?_suffix fraction).trans behind
    rw [fraction] at read
    dsimp only at read
    cases exponent : readExponent? f.2 with
    | none =>
      rw [exponent] at read
      cases read
      exact ⟨behind, float⟩
    | some e =>
      rw [exponent] at read
      cases read
      exact ⟨(readExponent?_suffix exponent).trans behind, float⟩

theorem readScalar_eq_ok {t rest : Text} {v : Json} (read : readScalar t = .ok (v, rest))
    (depth : Nat) : rest <:+ t ∧ Obtained depth v := by
  unfold readScalar at read
  split at read
  next r literal =>
    cases read
    obtain ⟨p, mem, found⟩ := List.exists_of_findSome?_eq_some literal
    obtain ⟨rest, behind, same⟩ := Option.map_eq_some_iff.mp found
    cases same
    refine ⟨⟨p.1, (Text.dropLead?_eq_some_iff.mp behind).symm⟩, ?_⟩
    -- None of the names stands for a container or an integer.
    have plain : ∀ q ∈ literals,
        WellNamed q.2 ∧ nesting q.2 = 0 ∧ longNumeral? q.2 = none ∧ strings q.2 = [] := by
      simp [literals, WellNamed, nesting, longNumeral?, strings]
    obtain ⟨named, flat, short, none⟩ := plain p mem
    refine ⟨⟨named, by rw [flat]; exact Nat.zero_le _, short⟩, ?_⟩
    rw [none]
    exact List.forall_mem_nil _
  next =>
    split at read
    next number =>
      rw [read] at number
      exact readNumber?_eq_ok number depth
    next => cases read

/-! ## Values -/

theorem received_arr {depth : Nat} {items : List Json} :
    Received (depth + 1) (.arr items) ↔ ∀ v ∈ items, Received depth v := by
  constructor
  · rintro ⟨named, within⟩ v mem
    exact ⟨wellNamedItems_iff.mp named v mem, withinLimits_arr.mp within v mem⟩
  · intro all
    exact ⟨wellNamedItems_iff.mpr fun v mem => (all v mem).named,
      withinLimits_arr.mpr fun v mem => (all v mem).within⟩

theorem received_obj {depth : Nat} {members : Members} :
    Received (depth + 1) (.obj members) ↔
      members.Distinct ∧ ∀ p ∈ members, p.1.Joinless ∧ Received depth p.2 := by
  constructor
  · rintro ⟨named, within⟩
    rw [WellNamed] at named
    refine ⟨named.1, fun p mem => ?_⟩
    obtain ⟨joinless, value⟩ := wellNamedMembers_iff.mp named.2 p mem
    exact ⟨joinless, value, withinLimits_obj.mp within p mem⟩
  · rintro ⟨distinct, all⟩
    exact ⟨⟨distinct, wellNamedMembers_iff.mpr fun p mem => ⟨(all p mem).1, (all p mem).2.named⟩⟩,
      withinLimits_obj.mpr fun p mem => (all p mem).2.within⟩

theorem received_str (depth : Nat) (t : Text) : Received depth (.str t) :=
  ⟨trivial, Nat.zero_le _, rfl⟩

theorem obtained_arr {depth : Nat} {items : List Json} :
    Obtained (depth + 1) (.arr items) ↔ ∀ v ∈ items, Obtained depth v := by
  constructor
  · rintro ⟨received, joinless⟩ v mem
    exact ⟨received_arr.mp received v mem, forall_itemStrings.mp joinless v mem⟩
  · intro all
    exact ⟨received_arr.mpr fun v mem => (all v mem).toReceived,
      forall_itemStrings.mpr fun v mem => (all v mem).joinless⟩

theorem obtained_obj {depth : Nat} {members : Members} :
    Obtained (depth + 1) (.obj members) ↔
      members.Distinct ∧ ∀ p ∈ members, p.1.Joinless ∧ Obtained depth p.2 := by
  constructor
  · rintro ⟨received, joinless⟩
    obtain ⟨distinct, all⟩ := received_obj.mp received
    refine ⟨distinct, fun p mem => ⟨(all p mem).1, (all p mem).2, ?_⟩⟩
    exact (forall_memberStrings.mp joinless p mem).2
  · rintro ⟨distinct, all⟩
    exact ⟨received_obj.mpr ⟨distinct, fun p mem => ⟨(all p mem).1, (all p mem).2.toReceived⟩⟩,
      forall_memberStrings.mpr fun p mem => ⟨(all p mem).1, (all p mem).2.joinless⟩⟩

theorem foldl_put_keeps {P : Text × Json → Prop} {ms front : Members} (distinct : front.Distinct)
    (first : ∀ p ∈ front, P p) (all : ∀ p ∈ ms, P p) :
    Members.Distinct (ms.foldl (fun acc p => Members.put p.1 p.2 acc) front) ∧
      ∀ p ∈ ms.foldl (fun acc p => Members.put p.1 p.2 acc) front, P p := by
  induction ms generalizing front with
  | nil => exact ⟨distinct, first⟩
  | cons q ms ih =>
    rw [List.forall_mem_cons] at all
    refine ih (distinct.put _ _) (fun p mem => ?_) all.2
    rcases Members.mem_put mem with rfl | mem
    · exact all.1
    · exact first p mem

/-- An object takes its members from a list, each name once. -/
theorem Members.ofList_keeps {P : Text × Json → Prop} {ms : Members} (all : ∀ p ∈ ms, P p) :
    (Members.ofList ms).Distinct ∧ ∀ p ∈ Members.ofList ms, P p :=
  foldl_put_keeps Members.distinct_nil nofun all

theorem map_eq_ok {α β : Type} {r : Reading α} {f : α → β} {b : β} {rest : Text}
    (read : r.map (fun r => (f r.1, r.2)) = .ok (b, rest)) : ∃ a, r = .ok (a, rest) ∧ f a = b := by
  cases r with
  | error stop => cases read
  | ok r =>
    cases read
    exact ⟨r.1, rfl, rfl⟩

/-- What holds of all that readers give: `S` of the texts they read from, `K` of the strings they
find there, and `G` of the values that so many more containers may hold. -/
structure Hereditary (S K : Text → Prop) (G : Nat → Json → Prop) : Prop where
  suffix : ∀ {t u : Text}, S t → u <:+ t → S u
  string : ∀ {opening fuel : Nat} {t u rest : Text}, S t →
    readString opening fuel t = .ok (u, rest) → rest <:+ t ∧ K u
  scalar : ∀ {t rest : Text} {v : Json}, readScalar t = .ok (v, rest) →
    ∀ depth, rest <:+ t ∧ G depth v
  str : ∀ {u : Text}, K u → ∀ depth, G depth (.str u)
  arr : ∀ {depth : Nat} {items : List Json}, (∀ v ∈ items, G depth v) → G (depth + 1) (.arr items)
  obj : ∀ {depth : Nat} {members : Members}, members.Distinct →
    (∀ p ∈ members, K p.1 ∧ G depth p.2) → G (depth + 1) (.obj members)

/-- What the readers establish with this much fuel. -/
structure Establishes (S K : Text → Prop) (G : Nat → Json → Prop) (fuel : Nat) : Prop where
  value : ∀ {depth : Nat} {t rest : Text} {v : Json}, S t →
    readValue fuel depth t = .ok (v, rest) → rest <:+ t ∧ G depth v
  items : ∀ {depth : Nat} {t rest : Text} {vs : List Json}, S t →
    readItems fuel depth t = .ok (vs, rest) → rest <:+ t ∧ ∀ v ∈ vs, G depth v
  members : ∀ {depth : Nat} {t rest : Text} {ms : Members}, S t →
    readMembers fuel depth t = .ok (ms, rest) → rest <:+ t ∧ ∀ p ∈ ms, K p.1 ∧ G depth p.2

section

variable {S K : Text → Prop} {G : Nat → Json → Prop} {fuel depth : Nat} {t rest : Text}

theorem Establishes.zero : Establishes S K G 0 where
  value _ read := by cases read
  items _ read := by cases read
  members _ read := by cases read

theorem Establishes.value_succ (law : Hereditary S K G) (back : Establishes S K G fuel) {v : Json}
    (source : S t) (read : readValue (fuel + 1) depth t = .ok (v, rest)) :
    rest <:+ t ∧ G depth v := by
  cases t with
  | nil => cases read
  | cons c t =>
  have behind {u : Text} (suffix : u <:+ t) : u <:+ c :: t := suffix.trans (List.suffix_cons c t)
  have inside : skipGap t <:+ c :: t := behind (skipGap_suffix t)
  rw [readValue.eq_def] at read
  dsimp only at read
  split at read
  next =>
    -- A string.
    obtain ⟨u, string, rfl⟩ := map_eq_ok read
    obtain ⟨suffix, kept⟩ := law.string (law.suffix source (List.suffix_cons c t)) string
    exact ⟨behind suffix, law.str kept depth⟩
  next =>
    split at read
    next =>
      -- An object.
      cases depth with
      | zero => cases read
      | succ depth =>
      dsimp only at read
      split at read
      next => cases read
      next d u gap =>
        rw [gap] at inside
        split at read
        · cases read
          exact ⟨(List.suffix_cons d rest).trans inside,
            law.obj Members.distinct_nil (List.forall_mem_nil _)⟩
        · obtain ⟨ms, members, rfl⟩ :=
            map_eq_ok (f := fun ms => Json.obj (Members.ofList ms)) read
          obtain ⟨suffix, all⟩ := back.members (law.suffix source inside) members
          obtain ⟨distinct, all⟩ := Members.ofList_keeps all
          exact ⟨suffix.trans inside, law.obj distinct all⟩
    next =>
      split at read
      next =>
        -- An array.
        cases depth with
        | zero => cases read
        | succ depth =>
        dsimp only at read
        split at read
        next => cases read
        next d u gap =>
          rw [gap] at inside
          split at read
          · cases read
            exact ⟨(List.suffix_cons d rest).trans inside, law.arr (List.forall_mem_nil _)⟩
          · obtain ⟨vs, items, rfl⟩ := map_eq_ok (f := Json.arr) read
            obtain ⟨suffix, all⟩ := back.items (law.suffix source inside) items
            exact ⟨suffix.trans inside, law.arr all⟩
      next => exact law.scalar read depth

theorem Establishes.items_succ (law : Hereditary S K G) (back : Establishes S K G fuel)
    {vs : List Json} (source : S t) (read : readItems (fuel + 1) depth t = .ok (vs, rest)) :
    rest <:+ t ∧ ∀ v ∈ vs, G depth v := by
  rw [readItems] at read
  split at read
  next => cases read
  next item afterItem value =>
    obtain ⟨suffix, received⟩ := back.value source value
    have gap := skipGap_suffix afterItem
    split at read
    next => cases read
    next c u skipped =>
      rw [skipped] at gap
      have inside : u <:+ t := ((List.suffix_cons c u).trans gap).trans suffix
      split at read
      next =>
        cases read
        exact ⟨inside, List.forall_mem_singleton.mpr received⟩
      next =>
        split at read
        next =>
          obtain ⟨more, items, rfl⟩ := map_eq_ok (f := (item :: ·)) read
          have inside := (skipGap_suffix u).trans inside
          obtain ⟨suffix, all⟩ := back.items (law.suffix source inside) items
          exact ⟨suffix.trans inside, List.forall_mem_cons.mpr ⟨received, all⟩⟩
        next => cases read

theorem Establishes.members_succ (law : Hereditary S K G) (back : Establishes S K G fuel)
    {ms : Members} (source : S t) (read : readMembers (fuel + 1) depth t = .ok (ms, rest)) :
    rest <:+ t ∧ ∀ p ∈ ms, K p.1 ∧ G depth p.2 := by
  cases t with
  | nil => cases read
  | cons c t =>
  rw [readMembers.eq_def] at read
  dsimp only at read
  split at read
  next =>
    split at read
    next => cases read
    next name afterName string =>
      have inText := List.suffix_cons c t
      obtain ⟨suffix, kept⟩ := law.string (law.suffix source inText) string
      have gap := ((skipGap_suffix afterName).trans suffix).trans inText
      split at read
      next => cases read
      next d u skipped =>
        rw [skipped] at gap
        split at read
        next =>
          have inside := (skipGap_suffix u).trans ((List.suffix_cons d u).trans gap)
          split at read
          next => cases read
          next value afterValue readValue =>
            obtain ⟨suffix, received⟩ := back.value (law.suffix source inside) readValue
            have gap := ((skipGap_suffix afterValue).trans suffix).trans inside
            split at read
            next => cases read
            next e w skipped =>
              rw [skipped] at gap
              have inside := (List.suffix_cons e w).trans gap
              split at read
              next =>
                cases read
                exact ⟨inside, List.forall_mem_singleton.mpr ⟨kept, received⟩⟩
              next =>
                split at read
                next =>
                  obtain ⟨more, members, rfl⟩ := map_eq_ok (f := ((name, value) :: ·)) read
                  have inside := (skipGap_suffix w).trans inside
                  obtain ⟨suffix, all⟩ := back.members (law.suffix source inside) members
                  exact ⟨suffix.trans inside,
                    List.forall_mem_cons.mpr ⟨⟨kept, received⟩, all⟩⟩
                next => cases read
        next => cases read
  next => cases read

theorem Hereditary.establishes (law : Hereditary S K G) (fuel : Nat) :
    Establishes S K G fuel := by
  -- Each of the three readers hands one unit less on to the others.
  induction fuel with
  | zero => exact .zero
  | succ fuel back =>
    exact ⟨back.value_succ law, back.items_succ law, back.members_succ law⟩

/-- What fills a whole text was read as a value. -/
theorem Hereditary.of_read (law : Hereditary S K G) {v : Json} (source : S t)
    (accepted : read t = .ok v) : G depthLimit v := by
  unfold read at accepted
  split at accepted
  next => cases accepted
  next c u =>
    split at accepted
    next => cases accepted
    next =>
      split at accepted
      next => cases accepted
      next value rest readValue =>
        split at accepted
        next =>
          cases accepted
          exact ((law.establishes _).value (law.suffix source (skipGap_suffix _)) readValue).2
        next => cases accepted

end

theorem hereditary_obtained : Hereditary Text.IsScalar Text.Joinless Obtained where
  suffix := Text.IsScalar.suffix
  string scalar read :=
    have received := readString_eq_ok scalar read
    ⟨received.behind, received.joinless⟩
  scalar := readScalar_eq_ok
  str joinless depth := ⟨received_str depth _, List.forall_mem_singleton.mpr joinless⟩
  arr := obtained_arr.mpr
  obj distinct all := obtained_obj.mpr ⟨distinct, all⟩

/-- With this much fuel, whatever a reader gives can be written and read again. -/
structure Receives (fuel : Nat) : Prop where
  value : ∀ {depth : Nat} {t rest : Text} {v : Json}, t.IsScalar →
    readValue fuel depth t = .ok (v, rest) → rest <:+ t ∧ Obtained depth v
  items : ∀ {depth : Nat} {t rest : Text} {vs : List Json}, t.IsScalar →
    readItems fuel depth t = .ok (vs, rest) → rest <:+ t ∧ ∀ v ∈ vs, Obtained depth v
  members : ∀ {depth : Nat} {t rest : Text} {ms : Members}, t.IsScalar →
    readMembers fuel depth t = .ok (ms, rest) →
      rest <:+ t ∧ ∀ p ∈ ms, p.1.Joinless ∧ Obtained depth p.2

theorem receives (fuel : Nat) : Receives fuel :=
  have all := hereditary_obtained.establishes fuel
  ⟨all.value, all.items, all.members⟩

/-- A decoded text is read as a value that can be written as a document and read again. -/
theorem obtained_of_read {t : Text} {v : Json} (scalar : t.IsScalar) (accepted : read t = .ok v) :
    Obtained depthLimit v :=
  hereditary_obtained.of_read scalar accepted

/-- What was read is read again from its document. -/
theorem Received.read_document {v : Json} (received : Received depthLimit v) :
    read (document v) = .ok v.joined.sorted := read_document_joined received.named received.within

end Json

end RedGreen
