import RedGreen.Proofs.Json.Members
import RedGreen.Proofs.Json.Numbers
import RedGreen.Proofs.Json.Strings

/-!
# Values read back

`Spelled s v t` says that `t` writes the value `v` with the strings and numbers of a style and
with any gaps where gaps may stand.  Both writers spell their values, so what is proved of reading
a spelled value holds of a journal line and of a document alike: `read_of_spelled` says that the
value is read back, or, when it holds an integer of too many digits, that the first such integer
stops the reader.
-/

namespace RedGreen

namespace Json

/-! ## Gaps -/

/-- White space as it may stand around marks. -/
def IsGap (g : Text) : Prop := ∀ c ∈ g, isGap c = true

/-- The text begins with an ASCII character that is neither a gap nor a closing bracket. -/
def Starts (t : Text) : Prop :=
  ∃ c u, t = c :: u ∧ c.val < 0x80 ∧ isGap c = false ∧ c ≠ CodePoint.ofChar ']'

theorem skipGap_append {g t : Text} (gap : IsGap g) : skipGap (g ++ t) = skipGap t := by
  induction g with
  | nil => rfl
  | cons c g ih =>
    have head : isGap c = true := gap c (by simp)
    have tail : IsGap g := fun d mem => gap d (List.mem_cons_of_mem c mem)
    rw [List.cons_append, skipGap, List.dropWhile_cons, if_pos head]
    exact ih tail

theorem skipGap_cons {c : CodePoint} (t : Text) (mark : isGap c = false) :
    skipGap (c :: t) = c :: t := by
  simp [skipGap, mark]

theorem Starts.skipGap {t : Text} (starts : Starts t) (rest : Text) :
    skipGap (t ++ rest) = t ++ rest := by
  obtain ⟨c, u, rfl, -, mark, -⟩ := starts
  exact skipGap_cons _ mark

theorem endsNumber_gap {g : Text} {c : CodePoint} (rest : Text) (gap : IsGap g)
    (mark : c = CodePoint.ofChar ',' ∨ c = CodePoint.ofChar ']' ∨ c = CodePoint.ofChar '\x7d') :
    EndsNumber (g ++ c :: rest) := by
  cases g with
  | nil =>
    rw [List.nil_append, endsNumber_cons]
    rcases mark with rfl | rfl | rfl <;> decide
  | cons d g =>
    have head := gap d (by simp)
    rw [List.cons_append, endsNumber_cons]
    simp only [isGap, Bool.or_eq_true, beq_iff_eq] at head
    simp only [ne_eq, CodePoint.eq_ofChar_iff, CodePoint.digit?, ite_eq_right_iff, reduceCtorEq,
      imp_false, not_and]
    -- White space is none of the characters by which a number goes on.
    rcases head with ((head | head) | head) | head <;> rw [head] <;> decide

theorem endsNumber_comma (rest : Text) : EndsNumber (CodePoint.ofChar ',' :: rest) :=
  endsNumber_cons.mpr (by decide)

/-! ## Nesting and integers of too many digits -/

mutual

/-- How many containers stand inside one another. -/
def nesting : Json → Nat
  | .arr items => nestingItems items + 1
  | .obj members => nestingMembers members + 1
  | .null | .bool _ | .int _ | .float _ | .str _ => 0

def nestingItems : List Json → Nat
  | [] => 0
  | v :: vs => max (nesting v) (nestingItems vs)

def nestingMembers : List (Text × Json) → Nat
  | [] => 0
  | (_, v) :: ms => max (nesting v) (nestingMembers ms)

end

mutual

/-- The number of digits of the first integer that has too many to be read. -/
def longNumeral? : Json → Option Nat
  | .int i => longInt? i
  | .arr items => longNumeralItems? items
  | .obj members => longNumeralMembers? members
  | .null | .bool _ | .float _ | .str _ => none

def longNumeralItems? : List Json → Option Nat
  | [] => none
  | v :: vs => (longNumeral? v).or (longNumeralItems? vs)

def longNumeralMembers? : List (Text × Json) → Option Nat
  | [] => none
  | (_, v) :: ms => (longNumeral? v).or (longNumeralMembers? ms)

end

theorem nestingItems_le {vs : List Json} {depth : Nat} :
    nestingItems vs ≤ depth ↔ ∀ v ∈ vs, nesting v ≤ depth := by
  induction vs with
  | nil => simp [nestingItems]
  | cons v vs ih => simp [nestingItems, ih]

theorem nestingMembers_le {ms : Members} {depth : Nat} :
    nestingMembers ms ≤ depth ↔ ∀ p ∈ ms, nesting p.2 ≤ depth := by
  induction ms with
  | nil => simp [nestingMembers]
  | cons p ms ih =>
    obtain ⟨k, v⟩ := p
    simp [nestingMembers, ih]

theorem longNumeralItems?_eq_none {vs : List Json} :
    longNumeralItems? vs = none ↔ ∀ v ∈ vs, longNumeral? v = none := by
  induction vs with
  | nil => simp [longNumeralItems?]
  | cons v vs ih => simp [longNumeralItems?, ih]

theorem longNumeralMembers?_eq_none {ms : Members} :
    longNumeralMembers? ms = none ↔ ∀ p ∈ ms, longNumeral? p.2 = none := by
  induction ms with
  | nil => simp [longNumeralMembers?]
  | cons p ms ih =>
    obtain ⟨k, v⟩ := p
    simp [longNumeralMembers?, ih]

/-! ## Spellings -/

/-- A style keeps a number when its numeral reads back as the number. -/
structure Style.KeepsFloat (s : Style) (x : Binary64) : Prop where
  starts : Starts (s.numerals.write x)
  reads : ∀ (fuel depth : Nat) (rest : Text), EndsNumber rest →
    readValue (fuel + 1) depth (s.numerals.write x ++ rest) = .ok (.float x, rest)

mutual

/-- The text writes the value, with gaps where they may stand. -/
inductive Spelled (s : Style) : Json → Text → Prop where
  | null : Spelled s .null "null"
  | bool (b : Bool) : Spelled s (.bool b) (boolText b)
  | int (i : Int) : Spelled s (.int i) (Text.ofInt i)
  | float {x : Binary64} (kept : s.KeepsFloat x) : Spelled s (.float x) (s.numerals.write x)
  | str {t : Text} (kept : s.KeepsText t) : Spelled s (.str t) (quoteWith s.escape t)
  | emptyArr : Spelled s (.arr []) [CodePoint.ofChar '[', CodePoint.ofChar ']']
  | arr {items : List Json} {g t : Text} (gap : IsGap g) (spelled : SpelledItems s items t) :
      Spelled s (.arr items) (CodePoint.ofChar '[' :: (g ++ t))
  | emptyObj : Spelled s (.obj []) [CodePoint.ofChar '\x7b', CodePoint.ofChar '\x7d']
  | obj {members : Members} {g t : Text} (gap : IsGap g)
      (distinct : members.Distinct) (spelled : SpelledMembers s members t) :
      Spelled s (.obj members) (CodePoint.ofChar '\x7b' :: (g ++ t))

/-- The text writes items and the bracket that closes them. -/
inductive SpelledItems (s : Style) : List Json → Text → Prop where
  | last {v : Json} {t g : Text} (value : Spelled s v t) (gap : IsGap g) :
      SpelledItems s [v] (t ++ (g ++ [CodePoint.ofChar ']']))
  | more {v : Json} {vs : List Json} {t g u : Text} (value : Spelled s v t) (gap : IsGap g)
      (items : SpelledItems s vs u) :
      SpelledItems s (v :: vs) (t ++ CodePoint.ofChar ',' :: (g ++ u))

/-- The text writes members and the brace that closes them. -/
inductive SpelledMembers (s : Style) : Members → Text → Prop where
  | last {k : Text} {v : Json} {g t h : Text} (kept : s.KeepsText k) (gap : IsGap g)
      (value : Spelled s v t) (gap' : IsGap h) :
      SpelledMembers s [(k, v)]
        (quoteWith s.escape k ++
          CodePoint.ofChar ':' :: (g ++ (t ++ (h ++ [CodePoint.ofChar '\x7d']))))
  | more {k : Text} {v : Json} {ms : Members} {g t h u : Text} (kept : s.KeepsText k)
      (gap : IsGap g) (value : Spelled s v t) (gap' : IsGap h) (members : SpelledMembers s ms u) :
      SpelledMembers s ((k, v) :: ms)
        (quoteWith s.escape k ++
          CodePoint.ofChar ':' :: (g ++ (t ++ CodePoint.ofChar ',' :: (h ++ u))))

end

theorem starts_ofInt (i : Int) : Starts (Text.ofInt i) := by
  cases i with
  | ofNat n =>
    obtain ⟨d, t, small, digits⟩ := ofNat_eq_cons n
    have first := unmarked_digit small
    exact ⟨_, t, digits, first.ascii, first.noGap, first.closing⟩
  | negSucc n => exact ⟨_, _, rfl, by decide⟩

theorem Spelled.starts {s : Style} {v : Json} {t : Text} (spelled : Spelled s v t) : Starts t := by
  cases spelled with
  | null => exact ⟨_, _, rfl, by decide⟩
  | bool b => cases b <;> exact ⟨_, _, rfl, by decide⟩
  | int i => exact starts_ofInt i
  | float kept => exact kept.starts
  | str kept => exact ⟨_, _, rfl, by decide⟩
  | emptyArr | arr _ _ | emptyObj | obj _ _ _ => exact ⟨_, _, rfl, by decide⟩

theorem SpelledItems.starts {s : Style} {vs : List Json} {t : Text}
    (spelled : SpelledItems s vs t) : Starts t := by
  cases spelled with
  | last value gap | more value gap items =>
    obtain ⟨c, u, rfl, head⟩ := value.starts
    exact ⟨c, _, rfl, head⟩

theorem SpelledMembers.starts {s : Style} {ms : Members} {t : Text}
    (spelled : SpelledMembers s ms t) : ∃ u, t = CodePoint.ofChar '"' :: u := by
  cases spelled with
  | last _ _ _ _ | more _ _ _ _ _ => exact ⟨_, rfl⟩

/-! ## Reading -/

theorem readValue_scalar {c : CodePoint} (quote : c ≠ CodePoint.ofChar '"')
    (brace : c ≠ CodePoint.ofChar '\x7b') (bracket : c ≠ CodePoint.ofChar '[') (fuel depth : Nat)
    (t : Text) : readValue (fuel + 1) depth (c :: t) = readScalar (c :: t) := by
  rw [readValue.eq_def]
  simp only [quote, brace, bracket, if_false]

theorem readValue_ofInt (i : Int) (fuel depth : Nat) {rest : Text} (ends : EndsNumber rest) :
    readValue (fuel + 1) depth (Text.ofInt i ++ rest) = outcome (longInt? i) (.int i) rest := by
  rw [← readScalar_ofInt i ends]
  cases i with
  | ofNat n =>
    obtain ⟨d, t, small, digits⟩ := ofNat_eq_cons n
    have first := unmarked_digit small
    rw [Text.ofInt, digits]
    exact readValue_scalar first.quote first.brace first.bracket fuel depth _
  | negSucc n => exact readValue_scalar (by decide) (by decide) (by decide) fuel depth _

theorem readValue_quote {s : Style} {t : Text} (kept : s.KeepsText t) (fuel depth : Nat)
    (rest : Text) :
    readValue (fuel + 1) depth (quoteWith s.escape t ++ rest) = .ok (.str t, rest) := by
  rw [quoteWith, List.cons_append, List.cons_append, List.append_assoc, readValue.eq_def]
  simp only [List.singleton_append, if_true]
  rw [kept _ _ rest (Nat.le_succ _)]
  rfl

/-- Reading a container whose first item or member stands behind a gap. -/
theorem readValue_arr {fuel depth : Nat} {g t : Text} (gap : IsGap g) (starts : Starts t)
    (rest : Text) :
    readValue (fuel + 1) (depth + 1) (CodePoint.ofChar '[' :: (g ++ t) ++ rest) =
      (readItems fuel depth (t ++ rest)).map fun r => (.arr r.1, r.2) := by
  have skipped := starts.skipGap rest
  obtain ⟨c, u, rfl, -, -, bracket⟩ := starts
  rw [List.cons_append, List.append_assoc, readValue.eq_def]
  simp only [skipGap_append gap]
  rw [skipped, if_neg (by decide), if_neg (by decide), if_pos trivial]
  simp only [List.cons_append, bracket, if_false]

theorem readValue_obj {fuel depth : Nat} {g u : Text} (gap : IsGap g) (rest : Text) :
    readValue (fuel + 1) (depth + 1)
        (CodePoint.ofChar '\x7b' :: (g ++ CodePoint.ofChar '"' :: u) ++ rest) =
      (readMembers fuel depth (CodePoint.ofChar '"' :: u ++ rest)).map
        fun r => (.obj (Members.ofList r.1), r.2) := by
  have skipped : skipGap (CodePoint.ofChar '"' :: u ++ rest) = CodePoint.ofChar '"' :: u ++ rest :=
    skipGap_cons _ (by decide)
  have brace : CodePoint.ofChar '"' ≠ CodePoint.ofChar '\x7d' := by decide
  rw [List.cons_append, List.append_assoc, readValue.eq_def]
  simp only [skipGap_append gap]
  rw [skipped, if_neg (by decide), if_pos trivial]
  simp only [List.cons_append, brace, if_false]

/-- Nothing but a value ends at what may follow it inside a container. -/
theorem readItems_last {fuel depth : Nat} {t g rest : Text} {v : Json} {long : Option Nat}
    (value : readValue fuel depth (t ++ (g ++ CodePoint.ofChar ']' :: rest)) =
      outcome long v (g ++ CodePoint.ofChar ']' :: rest)) (gap : IsGap g) :
    readItems (fuel + 1) depth (t ++ (g ++ [CodePoint.ofChar ']']) ++ rest) =
      outcome (long.or none) [v] rest := by
  have shape : t ++ (g ++ [CodePoint.ofChar ']']) ++ rest =
      t ++ (g ++ CodePoint.ofChar ']' :: rest) := by simp
  rw [shape, readItems, value]
  cases long with
  | some n => rfl
  | none =>
    have skipped : skipGap (CodePoint.ofChar ']' :: rest) = CodePoint.ofChar ']' :: rest :=
      skipGap_cons _ (by decide)
    -- Behind the value stand the gap and the bracket, and behind that the rest.
    simp only [outcome, skipGap_append gap]
    rw [skipped]
    rfl

theorem readItems_more {fuel depth : Nat} {t g u rest : Text} {v : Json} {vs : List Json}
    {long longs : Option Nat}
    (value : readValue fuel depth (t ++ CodePoint.ofChar ',' :: (g ++ u ++ rest)) =
      outcome long v (CodePoint.ofChar ',' :: (g ++ u ++ rest)))
    (items : readItems fuel depth (u ++ rest) = outcome longs vs rest)
    (gap : IsGap g) (starts : Starts u) :
    readItems (fuel + 1) depth (t ++ CodePoint.ofChar ',' :: (g ++ u) ++ rest) =
      outcome (long.or longs) (v :: vs) rest := by
  have shape : t ++ CodePoint.ofChar ',' :: (g ++ u) ++ rest =
      t ++ CodePoint.ofChar ',' :: (g ++ u ++ rest) := by simp
  rw [shape, readItems, value]
  cases long with
  | some n => rfl
  | none =>
    have skipped : ∀ x, skipGap (CodePoint.ofChar ',' :: x) = CodePoint.ofChar ',' :: x :=
      fun x => skipGap_cons x (by decide)
    have bracket : CodePoint.ofChar ',' ≠ CodePoint.ofChar ']' := by decide
    simp only [outcome, skipped, bracket, if_false, if_true]
    rw [List.append_assoc, skipGap_append gap, starts.skipGap, items]
    exact map_outcome (v :: ·) longs vs rest

theorem readMembers_last {s : Style} {fuel depth : Nat} {k g t h rest : Text} {v : Json}
    {long : Option Nat} (kept : s.KeepsText k)
    (value : readValue fuel depth (t ++ (h ++ CodePoint.ofChar '\x7d' :: rest)) =
      outcome long v (h ++ CodePoint.ofChar '\x7d' :: rest))
    (gap : IsGap g) (starts : Starts t) (gap' : IsGap h) :
    readMembers (fuel + 1) depth (quoteWith s.escape k ++
        CodePoint.ofChar ':' :: (g ++ (t ++ (h ++ [CodePoint.ofChar '\x7d']))) ++ rest) =
      outcome (long.or none) [(k, v)] rest := by
  have shape : quoteWith s.escape k ++
      CodePoint.ofChar ':' :: (g ++ (t ++ (h ++ [CodePoint.ofChar '\x7d']))) ++ rest =
      CodePoint.ofChar '"' :: (k.flatMap s.escape ++ CodePoint.ofChar '"' ::
        CodePoint.ofChar ':' :: (g ++ (t ++ (h ++ CodePoint.ofChar '\x7d' :: rest)))) := by
    simp [quoteWith]
  have colon : ∀ x, skipGap (CodePoint.ofChar ':' :: x) = CodePoint.ofChar ':' :: x :=
    fun x => skipGap_cons x (by decide)
  rw [shape, readMembers, if_pos rfl, kept _ _ _ (Nat.le_succ _)]
  simp only [colon, if_true]
  rw [skipGap_append gap, starts.skipGap, value]
  cases long with
  | some n => rfl
  | none =>
    have skipped : skipGap (CodePoint.ofChar '\x7d' :: rest) = CodePoint.ofChar '\x7d' :: rest :=
      skipGap_cons _ (by decide)
    simp only [outcome, skipGap_append gap']
    rw [skipped]
    rfl

theorem readMembers_more {s : Style} {fuel depth : Nat} {k g t h u rest : Text} {v : Json}
    {ms : Members} {long longs : Option Nat} (kept : s.KeepsText k)
    (value : readValue fuel depth (t ++ CodePoint.ofChar ',' :: (h ++ u ++ rest)) =
      outcome long v (CodePoint.ofChar ',' :: (h ++ u ++ rest)))
    (members : readMembers fuel depth (u ++ rest) = outcome longs ms rest)
    (gap : IsGap g) (starts : Starts t) (gap' : IsGap h)
    (quoted : ∃ x, u = CodePoint.ofChar '"' :: x) :
    readMembers (fuel + 1) depth (quoteWith s.escape k ++
        CodePoint.ofChar ':' :: (g ++ (t ++ CodePoint.ofChar ',' :: (h ++ u))) ++ rest) =
      outcome (long.or longs) ((k, v) :: ms) rest := by
  have shape : quoteWith s.escape k ++
      CodePoint.ofChar ':' :: (g ++ (t ++ CodePoint.ofChar ',' :: (h ++ u))) ++ rest =
      CodePoint.ofChar '"' :: (k.flatMap s.escape ++ CodePoint.ofChar '"' ::
        CodePoint.ofChar ':' :: (g ++ (t ++ CodePoint.ofChar ',' :: (h ++ u ++ rest)))) := by
    simp [quoteWith]
  have colon : ∀ x, skipGap (CodePoint.ofChar ':' :: x) = CodePoint.ofChar ':' :: x :=
    fun x => skipGap_cons x (by decide)
  rw [shape, readMembers, if_pos rfl, kept _ _ _ (Nat.le_succ _)]
  simp only [colon, if_true]
  rw [skipGap_append gap, starts.skipGap, value]
  cases long with
  | some n => rfl
  | none =>
    have skipped : ∀ x, skipGap (CodePoint.ofChar ',' :: x) = CodePoint.ofChar ',' :: x :=
      fun x => skipGap_cons x (by decide)
    have brace : CodePoint.ofChar ',' ≠ CodePoint.ofChar '\x7d' := by decide
    have first : skipGap (u ++ rest) = u ++ rest := by
      obtain ⟨x, rfl⟩ := quoted
      exact skipGap_cons _ (by decide)
    simp only [outcome, skipped, brace, if_false, if_true]
    rw [List.append_assoc, skipGap_append gap', first, members]
    exact map_outcome ((k, v) :: ·) longs ms rest

/-- With this much fuel every spelled value, list of items and list of members is read back. -/
structure ReadsBack (s : Style) (fuel : Nat) : Prop where
  value : ∀ {v : Json} {t : Text} (depth : Nat) (rest : Text), Spelled s v t → t.length ≤ fuel →
    nesting v ≤ depth → EndsNumber rest →
      readValue fuel depth (t ++ rest) = outcome (longNumeral? v) v rest
  items : ∀ {vs : List Json} {t : Text} (depth : Nat) (rest : Text), SpelledItems s vs t →
    t.length ≤ fuel → nestingItems vs ≤ depth →
      readItems fuel depth (t ++ rest) = outcome (longNumeralItems? vs) vs rest
  members : ∀ {ms : Members} {t : Text} (depth : Nat) (rest : Text), SpelledMembers s ms t →
    t.length ≤ fuel → nestingMembers ms ≤ depth →
      readMembers fuel depth (t ++ rest) = outcome (longNumeralMembers? ms) ms rest

theorem ReadsBack.zero (s : Style) : ReadsBack s 0 where
  value _ _ spelled enough _ _ := by
    obtain ⟨c, u, rfl, -⟩ := spelled.starts
    simp at enough
  items _ _ spelled enough _ := by
    obtain ⟨c, u, rfl, -⟩ := spelled.starts
    simp at enough
  members _ _ spelled enough _ := by
    obtain ⟨u, rfl⟩ := spelled.starts
    simp at enough

theorem ReadsBack.value_succ {s : Style} {fuel : Nat} (back : ReadsBack s fuel) {v : Json}
    {t : Text} (depth : Nat) (rest : Text) (spelled : Spelled s v t) (enough : t.length ≤ fuel + 1)
    (shallow : nesting v ≤ depth) (ends : EndsNumber rest) :
    readValue (fuel + 1) depth (t ++ rest) = outcome (longNumeral? v) v rest := by
  cases spelled with
  | null => exact readValue_scalar (by decide) (by decide) (by decide) fuel depth _
  | bool b =>
    cases b <;> exact readValue_scalar (by decide) (by decide) (by decide) fuel depth _
  | int i => exact readValue_ofInt i fuel depth ends
  | float kept => exact kept.reads fuel depth rest ends
  | str kept => exact readValue_quote kept fuel depth rest
  | emptyArr =>
    cases depth with
    | zero => simp [nesting] at shallow
    | succ depth => rfl
  | emptyObj =>
    cases depth with
    | zero => simp [nesting] at shallow
    | succ depth => rfl
  | arr gap spelled =>
    cases depth with
    | zero => simp [nesting] at shallow
    | succ depth =>
      rw [nesting] at shallow
      simp only [List.length_cons, List.length_append] at enough
      rw [readValue_arr gap spelled.starts, back.items depth rest spelled (by omega) (by omega)]
      exact map_outcome Json.arr _ _ rest
  | obj gap distinct spelled =>
    cases depth with
    | zero => simp [nesting] at shallow
    | succ depth =>
      rw [nesting] at shallow
      simp only [List.length_cons, List.length_append] at enough
      have read := back.members depth rest spelled (by omega) (by omega)
      obtain ⟨u, rfl⟩ := spelled.starts
      rw [readValue_obj gap, read]
      refine (map_outcome (fun ms => Json.obj (Members.ofList ms)) _ _ rest).trans ?_
      -- No name stands twice, so the object keeps all its members in their order.
      rw [Members.ofList_of_distinct distinct, longNumeral?]

theorem ReadsBack.items_succ {s : Style} {fuel : Nat} (back : ReadsBack s fuel) {vs : List Json}
    {t : Text} (depth : Nat) (rest : Text) (spelled : SpelledItems s vs t)
    (enough : t.length ≤ fuel + 1) (shallow : nestingItems vs ≤ depth) :
    readItems (fuel + 1) depth (t ++ rest) = outcome (longNumeralItems? vs) vs rest := by
  cases spelled with
  | last value gap =>
    simp only [nestingItems, List.length_append, List.length_cons] at enough shallow
    have ends := endsNumber_gap rest gap (.inr (.inl rfl))
    have read := back.value depth _ value (by omega) (by omega) ends
    rw [longNumeralItems?, longNumeralItems?]
    exact readItems_last read gap
  | more value gap items =>
    simp only [nestingItems, List.length_append, List.length_cons] at enough shallow
    have first := fun u => back.value depth _ value (by omega) (by omega) (endsNumber_comma u)
    have others := back.items depth rest items (by omega) (by omega)
    rw [longNumeralItems?]
    exact readItems_more (first _) others gap items.starts

theorem ReadsBack.members_succ {s : Style} {fuel : Nat} (back : ReadsBack s fuel) {ms : Members}
    {t : Text} (depth : Nat) (rest : Text) (spelled : SpelledMembers s ms t)
    (enough : t.length ≤ fuel + 1) (shallow : nestingMembers ms ≤ depth) :
    readMembers (fuel + 1) depth (t ++ rest) = outcome (longNumeralMembers? ms) ms rest := by
  cases spelled with
  | last kept gap value gap' =>
    simp only [nestingMembers, List.length_append, List.length_cons] at enough shallow
    have ends := endsNumber_gap rest gap' (.inr (.inr rfl))
    have read := back.value depth _ value (by omega) (by omega) ends
    rw [longNumeralMembers?, longNumeralMembers?]
    exact readMembers_last kept read gap value.starts gap'
  | more kept gap value gap' members =>
    simp only [nestingMembers, List.length_append, List.length_cons] at enough shallow
    have first := fun u => back.value depth _ value (by omega) (by omega) (endsNumber_comma u)
    have others := back.members depth rest members (by omega) (by omega)
    rw [longNumeralMembers?]
    exact readMembers_more kept (first _) others gap value.starts gap' members.starts

theorem readsBack (s : Style) (fuel : Nat) : ReadsBack s fuel := by
  -- Each of the three readers hands one unit less on to the others.
  induction fuel with
  | zero => exact .zero s
  | succ fuel back => exact ⟨back.value_succ, back.items_succ, back.members_succ⟩

/-- A whole text that spells a value, not nested too deeply, is read as the value. -/
theorem read_of_spelled {s : Style} {v : Json} {t : Text} (spelled : Spelled s v t)
    (shallow : nesting v ≤ depthLimit) :
    read t = match longNumeral? v with
      | some n => .error (.tooManyDigits n)
      | none => .ok v := by
  have skipped := spelled.starts.skipGap []
  have back := (readsBack s (2 * t.length + 2)).value depthLimit [] spelled (by omega) shallow
    endsNumber_nil
  rw [List.append_nil] at skipped back
  obtain ⟨c, u, rfl, ascii, -⟩ := spelled.starts
  -- What a value begins with is ASCII, so no byte order mark is taken off.
  have noMark : c.val ≠ 0xFEFF := by omega
  rw [read]
  simp only [noMark, if_false, skipped, back]
  cases longNumeral? v with
  | some n => rfl
  | none => rfl

end Json

end RedGreen
