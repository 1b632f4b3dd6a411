import RedGreen.Proofs.Json.Floats
import RedGreen.Proofs.Json.Written

/-!
# Documents that are read back joined

A document escapes a character beyond U+FFFF by its two halves, so a reader cannot tell it from the
halves themselves.  `joined` makes that one character of every such pair: a value and its joined
form have the same document, and the joined form is what the document is read back as, whatever
texts and numbers stand in the value.
-/

namespace RedGreen

namespace Text

/-- The text with every high half and the low half behind it made one character. -/
def joined : Text → Text
  | c :: d :: t =>
    if Json.isHighHalf c.val ∧ Json.isLowHalf d.val then Json.joinHalves c.val d.val :: joined t
    else c :: joined (d :: t)
  | t => t

theorem joined_pair {c d : CodePoint}
    (pair : Json.isHighHalf c.val = true ∧ Json.isLowHalf d.val = true) (t : Text) :
    joined (c :: d :: t) = Json.joinHalves c.val d.val :: joined t := by
  rw [joined, if_pos pair]

theorem joined_single {c d : CodePoint}
    (single : ¬(Json.isHighHalf c.val = true ∧ Json.isLowHalf d.val = true)) (t : Text) :
    joined (c :: d :: t) = c :: joined (d :: t) := by
  rw [joined, if_neg single]

/-- A text without a second character stays as it is. -/
theorem joined_short {t : Text} (short : t.length < 2) : joined t = t := by
  rcases t with _ | ⟨c, _ | ⟨d, t⟩⟩
  · rfl
  · rfl
  · simp only [List.length_cons] at short
    omega

/-- Induction along the halves that are joined. -/
@[elab_as_elim]
theorem joined_induction {motive : Text → Prop}
    (pair : ∀ (c d : CodePoint) (t : Text),
      Json.isHighHalf c.val = true ∧ Json.isLowHalf d.val = true → motive t → motive (c :: d :: t))
    (single : ∀ (c d : CodePoint) (t : Text),
      ¬(Json.isHighHalf c.val = true ∧ Json.isLowHalf d.val = true) → motive (d :: t) →
      motive (c :: d :: t))
    (short : ∀ t : Text, t.length < 2 → motive t) (t : Text) : motive t := by
  induction length : t.length using Nat.strongRecOn generalizing t with
  | ind n ih =>
    rcases t with _ | ⟨c, _ | ⟨d, t⟩⟩
    · exact short _ (by decide)
    · exact short _ (by simp only [List.length_cons, List.length_nil]; omega)
    · simp only [List.length_cons] at length
      by_cases halves : Json.isHighHalf c.val = true ∧ Json.isLowHalf d.val = true
      · exact pair c d t halves (ih _ (by omega) t rfl)
      · exact single c d t halves (ih _ (by omega) (d :: t) (List.length_cons))

theorem val_joinHalves {high low : Nat} (isHigh : Json.isHighHalf high = true)
    (isLow : Json.isLowHalf low = true) :
    (Json.joinHalves high low).val = 0x10000 + (high - 0xD800) * 0x400 + (low - 0xDC00) := by
  simp only [Json.isHighHalf, Json.isLowHalf, Bool.and_eq_true, decide_eq_true_eq] at isHigh isLow
  exact CodePoint.val_ofNat (by omega)

theorem not_isLowHalf_joinHalves {high low : Nat} (isHigh : Json.isHighHalf high = true)
    (isLow : Json.isLowHalf low = true) :
    Json.isLowHalf (Json.joinHalves high low).val = false := by
  rw [val_joinHalves isHigh isLow]
  simp only [Json.isLowHalf, Bool.and_eq_false_iff, decide_eq_false_iff_not]
  omega

theorem not_isHighHalf_joinHalves {high low : Nat} (isHigh : Json.isHighHalf high = true)
    (isLow : Json.isLowHalf low = true) :
    Json.isHighHalf (Json.joinHalves high low).val = false := by
  rw [val_joinHalves isHigh isLow]
  simp only [Json.isHighHalf, Bool.and_eq_false_iff, decide_eq_false_iff_not]
  omega

/-- Behind a character that opens no pair, any text without pairs may stand. -/
theorem joinless_cons {c : CodePoint} {t : Text} (rest : t.Joinless)
    (single : Json.isHighHalf c.val = true → ∀ d ∈ t.head?, Json.isLowHalf d.val = false) :
    Joinless (c :: t) := by
  cases t with
  | nil => trivial
  | cons d t =>
    refine ⟨fun ⟨high, low⟩ => ?_, rest⟩
    rw [single high d rfl] at low
    cases low

/-- Joining gives no text a low half to begin with. -/
theorem head_joined (t : Text) :
    ∀ c ∈ (joined t).head?, Json.isLowHalf c.val = true → c ∈ t.head? := by
  intro e mem low
  induction t using joined_induction with
  | pair c d t pair =>
    rw [joined_pair pair, List.head?_cons, Option.mem_some] at mem
    rw [← mem, not_isLowHalf_joinHalves pair.1 pair.2] at low
    cases low
  | single c d t single =>
    rw [joined_single single] at mem
    exact mem
  | short t short =>
    rw [joined_short short] at mem
    exact mem

theorem joinless_joined (t : Text) : (joined t).Joinless := by
  induction t using joined_induction with
  | pair c d t pair ih =>
    rw [joined_pair pair]
    refine joinless_cons ih fun high => ?_
    rw [not_isHighHalf_joinHalves pair.1 pair.2] at high
    cases high
  | single c d t single ih =>
    rw [joined_single single]
    refine joinless_cons ih fun high e mem => ?_
    cases low : Json.isLowHalf e.val with
    | false => rfl
    | true =>
      -- A low half at the head of what follows was there before.
      cases head_joined (d :: t) e mem low
      exact absurd ⟨high, low⟩ single
  | short t short =>
    rw [joined_short short]
    rcases t with _ | ⟨c, _ | ⟨d, t⟩⟩
    · trivial
    · trivial
    · simp only [List.length_cons] at short
      omega

theorem joined_of_joinless {t : Text} (joinless : t.Joinless) : joined t = t := by
  induction t using joined_induction with
  | pair c d t pair _ => exact absurd pair joinless.1
  | single c d t single ih => rw [joined_single single, ih joinless.tail]
  | short t short => exact joined_short short

end Text

namespace Json

/-- The escape of a character beyond U+FFFF is that of its halves. -/
theorem escapeAscii_joinHalves {high low : CodePoint} (isHigh : isHighHalf high.val = true)
    (isLow : isLowHalf low.val = true) :
    escapeAscii (joinHalves high.val low.val) = escapeAscii high ++ escapeAscii low := by
  have number := Text.val_joinHalves isHigh isLow
  simp only [isHighHalf, isLowHalf, Bool.and_eq_true, decide_eq_true_eq] at isHigh isLow
  -- A character from U+D800 on has no escape of its own and is not printable ASCII.
  have written : ∀ c : CodePoint, 0xD800 ≤ c.val → escapeAscii c =
      if c.val < 0x10000 then unitEscape c.val
      else unitEscape (0xD800 + (c.val - 0x10000) / 0x400) ++
        unitEscape (0xDC00 + (c.val - 0x10000) % 0x400) := by
    intro c beyond
    have common : commonEscape? c = none := by
      rw [commonEscape?]
      simp only [CodePoint.eq_ofChar_iff]
      have quote : ¬c.val = '"'.toNat := by
        have : '"'.toNat = 0x22 := rfl
        omega
      have backslash : ¬c.val = '\\'.toNat := by
        have : '\\'.toNat = 0x5C := rfl
        omega
      simp only [quote, backslash, if_false]
      repeat rw [if_neg (by omega)]
    rw [escapeAscii, common]
    dsimp only
    rw [if_neg (by omega)]
  have first : 0xD800 + (0x10000 + (high.val - 0xD800) * 0x400 + (low.val - 0xDC00) - 0x10000) /
      0x400 = high.val := by omega
  have second : 0xDC00 + (0x10000 + (high.val - 0xD800) * 0x400 + (low.val - 0xDC00) - 0x10000) %
      0x400 = low.val := by omega
  have beyond : 0x10000 ≤ (joinHalves high.val low.val).val := by omega
  rw [written high (by omega), written low (by omega), written _ (by omega), if_neg (by omega),
    if_pos (by omega), if_pos (by omega), number, first, second]

theorem escaped_joined (t : Text) : t.joined.flatMap escapeAscii = t.flatMap escapeAscii := by
  induction t using Text.joined_induction with
  | pair c d t pair ih =>
    simp only [Text.joined_pair pair, List.flatMap_cons, ih, escapeAscii_joinHalves pair.1 pair.2,
      List.append_assoc]
  | single c d t single ih =>
    rw [Text.joined_single single, List.flatMap_cons, ih, ← List.flatMap_cons]
  | short t short => rw [Text.joined_short short]

theorem quoteWith_joined (t : Text) :
    quoteWith Style.document.escape t.joined = quoteWith Style.document.escape t := by
  have escaped : t.joined.flatMap Style.document.escape = t.flatMap Style.document.escape :=
    escaped_joined t
  rw [quoteWith, quoteWith, escaped]

/-! ## Joined values -/

mutual

/-- The value with every text joined; the names of members stay as they are. -/
def joined : Json → Json
  | .str t => .str t.joined
  | .arr items => .arr (joinedItems items)
  | .obj members => .obj (joinedMembers members)
  | .null => .null
  | .bool b => .bool b
  | .int i => .int i
  | .float x => .float x

def joinedItems : List Json → List Json
  | [] => []
  | v :: vs => joined v :: joinedItems vs

def joinedMembers : List (Text × Json) → List (Text × Json)
  | [] => []
  | (k, v) :: ms => (k, joined v) :: joinedMembers ms

end

theorem joinedItems_eq_map (vs : List Json) : joinedItems vs = vs.map joined := by
  induction vs with
  | nil => rfl
  | cons v vs ih => rw [joinedItems, ih, List.map_cons]

theorem joinedMembers_eq_map (ms : Members) :
    joinedMembers ms = ms.map fun p => (p.1, joined p.2) := by
  induction ms with
  | nil => rfl
  | cons p ms ih =>
    obtain ⟨k, v⟩ := p
    rw [joinedMembers, ih]
    rfl

theorem names_joinedMembers (ms : Members) :
    (joinedMembers ms).map Prod.fst = ms.map Prod.fst := by
  simp [joinedMembers_eq_map]

theorem Members.Distinct.joined {ms : Members} (distinct : ms.Distinct) :
    Members.Distinct (joinedMembers ms) := by
  rw [Members.Distinct, names_joinedMembers]
  exact distinct

theorem get?_joinedMembers (name : Text) (ms : Members) :
    Members.get? name (joinedMembers ms) = (Members.get? name ms).map joined := by
  induction ms with
  | nil => rfl
  | cons p ms ih =>
    obtain ⟨k, v⟩ := p
    rw [joinedMembers, Members.get?_cons, Members.get?_cons, ih]
    split <;> rfl

mutual

theorem indented_joined (level : Nat) :
    (v : Json) → indented .document level v.joined = indented .document level v
  | .null | .bool _ | .int _ | .float _ => rfl
  | .str t => quoteWith_joined t
  | .arr [] => rfl
  | .arr (v :: vs) => by
    rw [joined, joinedItems, indented, indented, indented_joined (level + 1) v,
      indentedItems_joined level vs]
  | .obj [] => rfl
  | .obj ((k, v) :: ms) => by
    rw [joined, joinedMembers, indented, indented, indented_joined (level + 1) v,
      indentedMembers_joined level ms]

theorem indentedItems_joined (level : Nat) : (vs : List Json) →
    indentedItems .document level (joinedItems vs) = indentedItems .document level vs
  | [] => rfl
  | v :: vs => by
    rw [joinedItems, indentedItems, indentedItems, indented_joined (level + 1) v,
      indentedItems_joined level vs]

theorem indentedMembers_joined (level : Nat) : (ms : List (Text × Json)) →
    indentedMembers .document level (joinedMembers ms) = indentedMembers .document level ms
  | [] => rfl
  | (k, v) :: ms => by
    rw [joinedMembers, indentedMembers, indentedMembers, indented_joined (level + 1) v,
      indentedMembers_joined level ms]

end

/-! ## Sorting -/

theorem insertSorted_map (f : Json → Json) (p : Text × Json) (ms : Members) :
    Members.insertSorted (p.1, f p.2) (ms.map fun q => (q.1, f q.2)) =
      (Members.insertSorted p ms).map fun q => (q.1, f q.2) := by
  induction ms with
  | nil => rfl
  | cons q ms ih =>
    rw [List.map_cons, Members.insertSorted, Members.insertSorted, ih]
    split <;> rfl

/-- Sorting looks at names alone. -/
theorem Members.sorted_map (f : Json → Json) (ms : Members) :
    Members.sorted (ms.map fun q => (q.1, f q.2)) =
      (Members.sorted ms).map fun q => (q.1, f q.2) := by
  induction ms with
  | nil => rfl
  | cons p ms ih =>
    rw [List.map_cons, Members.sorted, List.foldr_cons]
    show Members.insertSorted _ (Members.sorted (ms.map fun q => (q.1, f q.2))) = _
    rw [ih]
    exact insertSorted_map f p (Members.sorted ms)

mutual

theorem sorted_joined : (v : Json) → v.joined.sorted = v.sorted.joined
  | .null | .bool _ | .int _ | .float _ | .str _ => rfl
  | .arr items => by rw [joined, sorted, sorted, joined, sortedItems_joined items]
  | .obj members => by
    rw [joined, sorted, sorted, joined, sortedMembers_joined members, joinedMembers_eq_map,
      Members.sorted_map, joinedMembers_eq_map]

theorem sortedItems_joined : (vs : List Json) →
    sortedItems (joinedItems vs) = joinedItems (sortedItems vs)
  | [] => rfl
  | v :: vs => by
    rw [joinedItems, sortedItems, sortedItems, joinedItems, sorted_joined v, sortedItems_joined vs]

theorem sortedMembers_joined : (ms : List (Text × Json)) →
    sortedMembers (joinedMembers ms) = joinedMembers (sortedMembers ms)
  | [] => rfl
  | (k, v) :: ms => by
    rw [joinedMembers, sortedMembers, sortedMembers, joinedMembers, sorted_joined v,
      sortedMembers_joined ms]

end

/-- A value and its joined form have the same document. -/
theorem document_joined (v : Json) : document v.joined = document v := by
  rw [document, sorted_joined, indented_joined, document]

/-! ## Reading joined values -/

mutual

/-- Every object names its members once each, by texts that a document keeps. -/
def WellNamed : Json → Prop
  | .arr items => WellNamedItems items
  | .obj members => Members.Distinct members ∧ WellNamedMembers members
  | .null | .bool _ | .int _ | .float _ | .str _ => True

def WellNamedItems : List Json → Prop
  | [] => True
  | v :: vs => WellNamed v ∧ WellNamedItems vs

def WellNamedMembers : List (Text × Json) → Prop
  | [] => True
  | (k, v) :: ms => k.Joinless ∧ WellNamed v ∧ WellNamedMembers ms

end

theorem wellNamedItems_iff {vs : List Json} : WellNamedItems vs ↔ ∀ v ∈ vs, WellNamed v := by
  induction vs with
  | nil => simp [WellNamedItems]
  | cons v vs ih => simp [WellNamedItems, ih]

theorem wellNamedMembers_iff {ms : Members} :
    WellNamedMembers ms ↔ ∀ p ∈ ms, p.1.Joinless ∧ WellNamed p.2 := by
  induction ms with
  | nil => simp [WellNamedMembers]
  | cons p ms ih =>
    obtain ⟨k, v⟩ := p
    simp [WellNamedMembers, ih, and_assoc]

/-- The document style has a name for every number that is not finite. -/
theorem keepsFloat_document (x : Binary64) : Style.document.KeepsFloat x := by
  cases x with
  | finite negative m => exact keepsFloat .document rfl
  | infinite negative =>
    cases negative with
    | false =>
      exact ⟨⟨_, _, rfl, by decide⟩,
        fun fuel depth _ _ => readValue_scalar (by decide) (by decide) (by decide) fuel depth _⟩
    | true =>
      exact ⟨⟨_, _, rfl, by decide⟩,
        fun fuel depth _ _ => readValue_scalar (by decide) (by decide) (by decide) fuel depth _⟩
  | notANumber =>
    exact ⟨⟨_, _, rfl, by decide⟩,
      fun fuel depth _ _ => readValue_scalar (by decide) (by decide) (by decide) fuel depth _⟩

mutual

theorem kept_joined : (v : Json) → WellNamed v → Kept .document v.joined
  | .null, _ | .bool _, _ | .int _, _ => trivial
  | .float x, _ => keepsFloat_document x
  | .str t, _ => keepsText_document t.joinless_joined
  | .arr items, named => by
    rw [joined, Kept]
    exact keptItems_joined items named
  | .obj members, named => by
    rw [WellNamed] at named
    rw [joined, Kept]
    exact ⟨named.1.joined, keptMembers_joined members named.2⟩

theorem keptItems_joined :
    (vs : List Json) → WellNamedItems vs → KeptItems .document (joinedItems vs)
  | [], _ => trivial
  | v :: vs, named => ⟨kept_joined v named.1, keptItems_joined vs named.2⟩

theorem keptMembers_joined : (ms : List (Text × Json)) → WellNamedMembers ms →
    KeptMembers .document (joinedMembers ms)
  | [], _ => trivial
  | (_, v) :: ms, named =>
    ⟨keepsText_document named.1, kept_joined v named.2.1, keptMembers_joined ms named.2.2⟩

end

/-! ## Limits of the reader -/

mutual

theorem nesting_joined : (v : Json) → nesting v.joined = nesting v
  | .null | .bool _ | .int _ | .float _ | .str _ => rfl
  | .arr items => by rw [joined, nesting, nesting, nestingItems_joined items]
  | .obj members => by rw [joined, nesting, nesting, nestingMembers_joined members]

theorem nestingItems_joined : (vs : List Json) → nestingItems (joinedItems vs) = nestingItems vs
  | [] => rfl
  | v :: vs => by
    rw [joinedItems, nestingItems, nestingItems, nesting_joined v, nestingItems_joined vs]

theorem nestingMembers_joined :
    (ms : List (Text × Json)) → nestingMembers (joinedMembers ms) = nestingMembers ms
  | [] => rfl
  | (k, v) :: ms => by
    rw [joinedMembers, nestingMembers, nestingMembers, nesting_joined v, nestingMembers_joined ms]

end

mutual

theorem longNumeral?_joined : (v : Json) → longNumeral? v.joined = longNumeral? v
  | .null | .bool _ | .int _ | .float _ | .str _ => rfl
  | .arr items => by rw [joined, longNumeral?, longNumeral?, longNumeralItems?_joined items]
  | .obj members => by rw [joined, longNumeral?, longNumeral?, longNumeralMembers?_joined members]

theorem longNumeralItems?_joined :
    (vs : List Json) → longNumeralItems? (joinedItems vs) = longNumeralItems? vs
  | [] => rfl
  | v :: vs => by
    rw [joinedItems, longNumeralItems?, longNumeralItems?, longNumeral?_joined v,
      longNumeralItems?_joined vs]

theorem longNumeralMembers?_joined :
    (ms : List (Text × Json)) → longNumeralMembers? (joinedMembers ms) = longNumeralMembers? ms
  | [] => rfl
  | (k, v) :: ms => by
    rw [joinedMembers, longNumeralMembers?, longNumeralMembers?, longNumeral?_joined v,
      longNumeralMembers?_joined ms]

end

/-- A value that a reader takes: not nested too deeply, and no integer of too many digits. -/
structure WithinLimits (depth : Nat) (v : Json) : Prop where
  shallow : nesting v ≤ depth
  short : longNumeral? v = none

theorem withinLimits_arr {depth : Nat} {items : List Json} :
    WithinLimits (depth + 1) (.arr items) ↔ ∀ v ∈ items, WithinLimits depth v := by
  constructor
  · rintro ⟨shallow, short⟩ v mem
    rw [nesting, Nat.add_le_add_iff_right, nestingItems_le] at shallow
    rw [longNumeral?, longNumeralItems?_eq_none] at short
    exact ⟨shallow v mem, short v mem⟩
  · intro all
    refine ⟨Nat.succ_le_succ (nestingItems_le.mpr fun v mem => (all v mem).shallow), ?_⟩
    exact longNumeralItems?_eq_none.mpr fun v mem => (all v mem).short

theorem withinLimits_obj {depth : Nat} {members : Members} :
    WithinLimits (depth + 1) (.obj members) ↔ ∀ p ∈ members, WithinLimits depth p.2 := by
  constructor
  · rintro ⟨shallow, short⟩ p mem
    rw [nesting, Nat.add_le_add_iff_right, nestingMembers_le] at shallow
    rw [longNumeral?, longNumeralMembers?_eq_none] at short
    exact ⟨shallow p mem, short p mem⟩
  · intro all
    refine ⟨Nat.succ_le_succ (nestingMembers_le.mpr fun p mem => (all p mem).shallow), ?_⟩
    exact longNumeralMembers?_eq_none.mpr fun p mem => (all p mem).short

theorem WithinLimits.weaken {depth more : Nat} {v : Json} (within : WithinLimits depth v)
    (le : depth ≤ more) : WithinLimits more v :=
  ⟨Nat.le_trans within.shallow le, within.short⟩

theorem WithinLimits.joined {depth : Nat} {v : Json} (within : WithinLimits depth v) :
    WithinLimits depth v.joined :=
  ⟨by rw [nesting_joined]; exact within.shallow, by rw [longNumeral?_joined]; exact within.short⟩

mutual

theorem withinLimits_sorted : (v : Json) → {depth : Nat} → WithinLimits depth v →
    WithinLimits depth v.sorted
  | .null, _, within | .bool _, _, within | .int _, _, within | .float _, _, within
  | .str _, _, within => within
  | .arr _, 0, within => absurd within.shallow (Nat.not_succ_le_zero _)
  | .arr items, _ + 1, within => by
    rw [sorted, withinLimits_arr]
    exact withinLimits_sortedItems items (withinLimits_arr.mp within)
  | .obj _, 0, within => absurd within.shallow (Nat.not_succ_le_zero _)
  | .obj members, _ + 1, within => by
    rw [sorted, withinLimits_obj]
    intro p mem
    -- Sorting only moves members.
    have mem := (Members.sorted_perm _).mem_iff.mp mem
    exact withinLimits_sortedMembers members (withinLimits_obj.mp within) p mem

theorem withinLimits_sortedItems : (vs : List Json) → {depth : Nat} →
    (∀ v ∈ vs, WithinLimits depth v) → ∀ v ∈ sortedItems vs, WithinLimits depth v
  | [], _, _ => nofun
  | v :: vs, _, within => by
    rw [List.forall_mem_cons] at within
    rw [sortedItems, List.forall_mem_cons]
    exact ⟨withinLimits_sorted v within.1, withinLimits_sortedItems vs within.2⟩

theorem withinLimits_sortedMembers : (ms : List (Text × Json)) → {depth : Nat} →
    (∀ p ∈ ms, WithinLimits depth p.2) → ∀ p ∈ sortedMembers ms, WithinLimits depth p.2
  | [], _, _ => nofun
  | (_, v) :: ms, _, within => by
    rw [List.forall_mem_cons] at within
    rw [sortedMembers, List.forall_mem_cons]
    exact ⟨withinLimits_sorted v within.1, withinLimits_sortedMembers ms within.2⟩

end

/-- A document is read back as the joined form of its value, with members in order. -/
theorem read_document_joined {v : Json} (named : WellNamed v)
    (within : WithinLimits depthLimit v) : read (document v) = .ok v.joined.sorted := by
  have within := withinLimits_sorted _ within.joined
  have back := read_document (kept_joined v named) within.shallow
  rw [within.short] at back
  rw [← document_joined, back]

end Json

end RedGreen
