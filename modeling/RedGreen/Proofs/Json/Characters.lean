import RedGreen.Proofs.Json.Floats
import RedGreen.Proofs.Text.Lines

/-!
# Which characters are written

Marks, numerals and escapes are printable ASCII.  So a value on one line holds no line end, a
document is ASCII, and what else stands in a line comes from the texts of the value.
-/

namespace RedGreen

/-- Printable ASCII. -/
def CodePoint.IsPlain (c : CodePoint) : Prop := 0x20 ≤ c.val ∧ c.val < 0x7F

instance (c : CodePoint) : Decidable c.IsPlain := inferInstanceAs (Decidable (_ ∧ _))

theorem CodePoint.IsPlain.isScalar {c : CodePoint} (plain : c.IsPlain) : c.IsScalar := by
  have := plain.2
  exact .inl (by omega)

namespace Text

/-- Printable ASCII throughout. -/
def IsPlain (t : Text) : Prop := ∀ c ∈ t, c.IsPlain

instance (t : Text) : Decidable t.IsPlain := inferInstanceAs (Decidable (∀ c ∈ t, c.IsPlain))

theorem isPlain_nil : IsPlain [] := nofun

@[simp] theorem isPlain_cons {c : CodePoint} {t : Text} :
    IsPlain (c :: t) ↔ c.IsPlain ∧ IsPlain t := List.forall_mem_cons

@[simp] theorem isPlain_append {t u : Text} : IsPlain (t ++ u) ↔ IsPlain t ∧ IsPlain u :=
  List.forall_mem_append

theorem IsPlain.isScalar {t : Text} (plain : t.IsPlain) : t.IsScalar :=
  fun c mem => (plain c mem).isScalar

theorem isPlain_ofDigits {ds : List Nat} (digits : ∀ d ∈ ds, d < 10) : IsPlain (ofDigits ds) := by
  have all : ∀ d < 10, (CodePoint.ofChar (Nat.digitChar d)).IsPlain := by decide
  intro c mem
  obtain ⟨d, isDigit, rfl⟩ := List.mem_map.mp mem
  exact all d (digits d isDigit)

theorem isPlain_ofNat (n : Nat) : IsPlain (ofNat n) := by
  rw [ofNat_eq_ofDigits]
  exact isPlain_ofDigits fun _ => lt_ten_of_mem_decimalDigits

theorem isPlain_ofInt (i : Int) : IsPlain (ofInt i) := by
  cases i with
  | ofNat n => exact isPlain_ofNat n
  | negSucc n => exact isPlain_cons.mpr ⟨by decide, isPlain_ofNat _⟩

theorem isPlain_padNat (width n : Nat) : IsPlain (padNat width n) := by
  intro c mem
  rcases List.mem_append.mp mem with zero | mem
  · rw [List.eq_of_mem_replicate zero]
    decide
  · exact isPlain_ofNat n c mem

theorem isPlain_hex (width n : Nat) : IsPlain (hex width n) := by
  have all : ∀ d < 16, (CodePoint.hexDigit d).IsPlain := by decide
  induction width generalizing n with
  | zero => exact isPlain_nil
  | succ width ih =>
    have last := all _ (Nat.mod_lt n (by decide))
    exact isPlain_append.mpr ⟨ih _, isPlain_cons.mpr ⟨last, isPlain_nil⟩⟩

end Text

namespace Json

open Numeral (Unsigned pointed exponential)

/-! ## Numerals -/

theorem isPlain_writeMagnitude (f : NumeralFormat) (m : Magnitude) :
    (f.writeMagnitude m).IsPlain := by
  rw [NumeralFormat.writeMagnitude]
  cases zero : m.isZero with
  | true =>
    rw [if_pos rfl]
    decide
  | false =>
    rw [if_neg Bool.false_ne_true]
    obtain ⟨fits, draws, least, most⟩ := Decimal.shortest_names (units_pos zero)
    dsimp only
    split
    · obtain ⟨whole, fraction, shape, nonempty, renders⟩ := Numeral.positional_renders fits
      rw [shape, pointed, Text.isPlain_append, Text.isPlain_cons]
      exact ⟨Text.isPlain_ofDigits renders.proper.whole_lt, by decide,
        Text.isPlain_ofDigits renders.proper.fraction_lt⟩
    · obtain ⟨c, ds, shape, renders⟩ :=
        Numeral.scientific_renders fits least most f.exponentWidth
      have digit : ∀ d < 10, (CodePoint.ofChar (Nat.digitChar d)).IsPlain := by decide
      have behind :
          Text.IsPlain (if ds = [] then [] else CodePoint.ofChar '.' :: Text.ofDigits ds) := by
        split
        · exact Text.isPlain_nil
        · exact Text.isPlain_cons.mpr ⟨by decide, Text.isPlain_ofDigits renders.proper.fraction_lt⟩
      have sign : (if (Decimal.shortest m).exponent < 0 then CodePoint.ofChar '-'
          else CodePoint.ofChar '+').IsPlain := by
        split <;> decide
      rw [shape, exponential, List.cons_append, Text.isPlain_cons, Text.isPlain_append,
        Text.isPlain_cons, Text.isPlain_cons]
      exact ⟨digit c (renders.proper.whole_lt c (List.mem_singleton.mpr rfl)), behind, by decide,
        sign, Text.isPlain_padNat _ _⟩

/-- A style writes numbers in printable ASCII, whatever they are. -/
def Style.PlainNumbers (s : Style) : Prop := ∀ x, (s.numerals.write x).IsPlain

theorem plainNumbers {s : Style} (infinity : s.numerals.infinity.IsPlain)
    (negativeInfinity : s.numerals.negativeInfinity.IsPlain)
    (notANumber : s.numerals.notANumber.IsPlain) : s.PlainNumbers := by
  intro x
  cases x with
  | finite negative m =>
    have plain := isPlain_writeMagnitude s.numerals m
    cases negative with
    | false => exact plain
    | true => exact Text.isPlain_cons.mpr ⟨by decide, plain⟩
  | infinite negative =>
    cases negative with
    | false => exact infinity
    | true => exact negativeInfinity
  | notANumber => exact notANumber

theorem plainNumbers_line : Style.line.PlainNumbers :=
  plainNumbers (by decide) (by decide) (by decide)

theorem plainNumbers_document : Style.document.PlainNumbers :=
  plainNumbers (by decide) (by decide) (by decide)

/-! ## Texts -/

mutual

/-- The texts of a value, the names of members among them. -/
def strings : Json → List Text
  | .str t => [t]
  | .arr items => itemStrings items
  | .obj members => memberStrings members
  | .null | .bool _ | .int _ | .float _ => []

def itemStrings : List Json → List Text
  | [] => []
  | v :: vs => strings v ++ itemStrings vs

def memberStrings : List (Text × Json) → List Text
  | [] => []
  | (k, v) :: ms => k :: strings v ++ memberStrings ms

end

theorem forall_itemStrings {vs : List Json} {P : Text → Prop} :
    (∀ t ∈ itemStrings vs, P t) ↔ ∀ v ∈ vs, ∀ t ∈ strings v, P t := by
  induction vs with
  | nil => simp [itemStrings]
  | cons v vs ih => rw [itemStrings, List.forall_mem_append, List.forall_mem_cons, ih]

theorem forall_memberStrings {ms : Members} {P : Text → Prop} :
    (∀ t ∈ memberStrings ms, P t) ↔ ∀ p ∈ ms, P p.1 ∧ ∀ t ∈ strings p.2, P t := by
  induction ms with
  | nil => simp [memberStrings]
  | cons p ms ih =>
    obtain ⟨k, v⟩ := p
    rw [memberStrings, List.forall_mem_append, List.forall_mem_cons, List.forall_mem_cons, ih]

theorem isPlain_unitEscape (n : Nat) : (unitEscape n).IsPlain :=
  Text.isPlain_append.mpr ⟨by decide, Text.isPlain_hex 4 n⟩

theorem isPlain_commonEscape? {c : CodePoint} {t : Text} (h : commonEscape? c = some t) :
    t.IsPlain := by
  unfold commonEscape? at h
  repeat' split at h
  all_goals try contradiction
  all_goals
    cases h
    decide

/-- A document escapes everything but printable ASCII. -/
theorem isPlain_escapeAscii (c : CodePoint) : (escapeAscii c).IsPlain := by
  rw [escapeAscii]
  cases escape : commonEscape? c with
  | some t => exact isPlain_commonEscape? escape
  | none =>
    dsimp only
    split
    next plain => exact Text.isPlain_cons.mpr ⟨⟨plain.1, by omega⟩, Text.isPlain_nil⟩
    next =>
      split
      · exact isPlain_unitEscape _
      · exact Text.isPlain_append.mpr ⟨isPlain_unitEscape _, isPlain_unitEscape _⟩

/-- A line escapes control characters; every other character stands for itself. -/
theorem mem_escapeRaw {c d : CodePoint} (mem : d ∈ escapeRaw c) :
    d.IsPlain ∨ d = c ∧ 0x20 ≤ c.val := by
  rw [escapeRaw] at mem
  cases escape : commonEscape? c with
  | some t =>
    rw [escape] at mem
    exact .inl (isPlain_commonEscape? escape d mem)
  | none =>
    simp only [escape] at mem
    split at mem
    · exact .inl (isPlain_unitEscape _ d mem)
    · exact .inr ⟨List.mem_singleton.mp mem, by omega⟩

/-! ## Values -/

section

variable {s : Style} {P : CodePoint → Prop}

/-- What holds of printable ASCII and of the escaped texts of a value holds of all characters that
are written. -/
theorem quoteWith_admits {t : Text} (plain : ∀ c : CodePoint, c.IsPlain → P c)
    (escaped : ∀ c ∈ t.flatMap s.escape, P c) : ∀ c ∈ quoteWith s.escape t, P c := by
  have quote : P (CodePoint.ofChar '"') := plain _ (by decide)
  rw [quoteWith]
  exact List.forall_mem_append.mpr ⟨List.forall_mem_cons.mpr ⟨quote, escaped⟩,
    List.forall_mem_singleton.mpr quote⟩

theorem flatMap_admits (escaped : ∀ c, ∀ d ∈ s.escape c, P d) (t : Text) :
    ∀ c ∈ t.flatMap s.escape, P c := by
  intro c mem
  obtain ⟨d, -, mem⟩ := List.mem_flatMap.mp mem
  exact escaped d c mem

theorem newLine_admits (plain : ∀ c : CodePoint, c.IsPlain → P c)
    (feed : P (CodePoint.ofChar '\n')) (level : Nat) : ∀ c ∈ newLine level, P c := by
  intro c mem
  rw [newLine, List.mem_cons, List.mem_replicate] at mem
  rcases mem with rfl | ⟨-, rfl⟩
  · exact feed
  · exact plain _ (by decide)

mutual

theorem compact_admits (plain : ∀ c : CodePoint, c.IsPlain → P c) (numbers : s.PlainNumbers) :
    (v : Json) → (∀ t ∈ strings v, ∀ c ∈ t.flatMap s.escape, P c) → ∀ c ∈ compact s v, P c
  | .null, _ => fun c mem => plain c ((by decide : Text.IsPlain "null") c mem)
  | .bool true, _ => fun c mem => plain c ((by decide : Text.IsPlain "true") c mem)
  | .bool false, _ => fun c mem => plain c ((by decide : Text.IsPlain "false") c mem)
  | .int i, _ => fun c mem => plain c (Text.isPlain_ofInt i c mem)
  | .float x, _ => fun c mem => plain c (numbers x c mem)
  | .str t, escaped => quoteWith_admits plain (escaped t (List.mem_singleton.mpr rfl))
  | .arr items, escaped => by
    rw [compact]
    exact List.forall_mem_append.mpr ⟨List.forall_mem_cons.mpr ⟨plain _ (by decide),
      compactItems_admits plain numbers items escaped⟩,
      List.forall_mem_singleton.mpr (plain _ (by decide))⟩
  | .obj members, escaped => by
    rw [compact]
    exact List.forall_mem_append.mpr ⟨List.forall_mem_cons.mpr ⟨plain _ (by decide),
      compactMembers_admits plain numbers members escaped⟩,
      List.forall_mem_singleton.mpr (plain _ (by decide))⟩

theorem compactItems_admits (plain : ∀ c : CodePoint, c.IsPlain → P c)
    (numbers : s.PlainNumbers) : (vs : List Json) →
      (∀ t ∈ itemStrings vs, ∀ c ∈ t.flatMap s.escape, P c) → ∀ c ∈ compactItems s vs, P c
  | [], _ => nofun
  | [v], escaped => by
    rw [itemStrings, itemStrings, List.append_nil] at escaped
    exact compact_admits plain numbers v escaped
  | v :: w :: vs, escaped => by
    rw [itemStrings, List.forall_mem_append] at escaped
    rw [compactItems]
    · exact List.forall_mem_append.mpr ⟨compact_admits plain numbers v escaped.1,
        List.forall_mem_cons.mpr ⟨plain _ (by decide),
          compactItems_admits plain numbers (w :: vs) escaped.2⟩⟩
    · nofun

theorem compactMembers_admits (plain : ∀ c : CodePoint, c.IsPlain → P c)
    (numbers : s.PlainNumbers) : (ms : List (Text × Json)) →
      (∀ t ∈ memberStrings ms, ∀ c ∈ t.flatMap s.escape, P c) → ∀ c ∈ compactMembers s ms, P c
  | [], _ => nofun
  | [(k, v)], escaped => by
    rw [memberStrings, memberStrings, List.append_nil, List.forall_mem_cons] at escaped
    rw [compactMembers]
    exact List.forall_mem_append.mpr ⟨quoteWith_admits plain escaped.1,
      List.forall_mem_cons.mpr ⟨plain _ (by decide), compact_admits plain numbers v escaped.2⟩⟩
  | (k, v) :: p :: ms, escaped => by
    rw [memberStrings, List.forall_mem_append, List.forall_mem_cons] at escaped
    rw [compactMembers]
    · refine List.forall_mem_append.mpr ⟨List.forall_mem_append.mpr
        ⟨quoteWith_admits plain escaped.1.1, List.forall_mem_cons.mpr ⟨plain _ (by decide),
          compact_admits plain numbers v escaped.1.2⟩⟩, List.forall_mem_cons.mpr
            ⟨plain _ (by decide), compactMembers_admits plain numbers (p :: ms) escaped.2⟩⟩
    · nofun

end

/-- A value on one line holds no line end. -/
theorem isLine_compact (v : Json) : Text.IsLine (compact .line v) := by
  refine compact_admits (fun c plain => ?_) plainNumbers_line v fun t _ c mem => ?_
  · simp only [CodePoint.isLineFeed, CodePoint.isCarriageReturn, beq_eq_false_iff_ne, ne_eq]
    have := plain.1
    omega
  · obtain ⟨d, -, mem⟩ := List.mem_flatMap.mp mem
    simp only [CodePoint.isLineFeed, CodePoint.isCarriageReturn, beq_eq_false_iff_ne, ne_eq]
    rcases mem_escapeRaw mem with plain | ⟨rfl, visible⟩
    · have := plain.1
      omega
    · omega

/-- What holds of printable ASCII and of the texts of a value holds of the value on one line. -/
theorem compact_admits_raw (plain : ∀ c : CodePoint, c.IsPlain → P c) (raw : s.escape = escapeRaw)
    (numbers : s.PlainNumbers) {v : Json} (texts : ∀ t ∈ strings v, ∀ c ∈ t, P c) :
    ∀ c ∈ compact s v, P c := by
  refine compact_admits plain numbers v fun t text c mem => ?_
  rw [raw] at mem
  obtain ⟨d, inText, mem⟩ := List.mem_flatMap.mp mem
  rcases mem_escapeRaw mem with escaped | ⟨rfl, -⟩
  · exact plain c escaped
  · exact texts t text c inText

/-- A value on one line can be encoded when its texts can. -/
theorem isScalar_compact (raw : s.escape = escapeRaw) (numbers : s.PlainNumbers) {v : Json}
    (scalar : ∀ t ∈ strings v, t.IsScalar) : Text.IsScalar (compact s v) :=
  compact_admits_raw (fun _ => CodePoint.IsPlain.isScalar) raw numbers scalar

theorem isPlain_compact (raw : s.escape = escapeRaw) (numbers : s.PlainNumbers) {v : Json}
    (plain : ∀ t ∈ strings v, t.IsPlain) : Text.IsPlain (compact s v) :=
  compact_admits_raw (fun _ => id) raw numbers plain

/-! ## Documents -/

mutual

theorem indented_admits (plain : ∀ c : CodePoint, c.IsPlain → P c)
    (feed : P (CodePoint.ofChar '\n')) (numbers : s.PlainNumbers)
    (escaped : ∀ c, ∀ d ∈ s.escape c, P d) :
    (level : Nat) → (v : Json) → ∀ c ∈ indented s level v, P c
  | _, .null => fun c mem => plain c ((by decide : Text.IsPlain "null") c mem)
  | _, .bool true => fun c mem => plain c ((by decide : Text.IsPlain "true") c mem)
  | _, .bool false => fun c mem => plain c ((by decide : Text.IsPlain "false") c mem)
  | _, .int i => fun c mem => plain c (Text.isPlain_ofInt i c mem)
  | _, .float x => fun c mem => plain c (numbers x c mem)
  | _, .str t => quoteWith_admits plain (flatMap_admits escaped t)
  | _, .arr [] => fun c mem => plain c ((by decide : Text.IsPlain "[]") c mem)
  | level, .arr (v :: vs) => by
    rw [indented]
    exact List.forall_mem_append.mpr ⟨List.forall_mem_append.mpr ⟨List.forall_mem_cons.mpr
      ⟨plain _ (by decide), newLine_admits plain feed _⟩,
      indented_admits plain feed numbers escaped (level + 1) v⟩,
      indentedItems_admits plain feed numbers escaped level vs⟩
  | _, .obj [] => fun c mem => plain c ((by decide : Text.IsPlain "\x7b\x7d") c mem)
  | level, .obj ((k, v) :: ms) => by
    rw [indented]
    exact List.forall_mem_append.mpr ⟨List.forall_mem_append.mpr ⟨List.forall_mem_append.mpr
      ⟨List.forall_mem_append.mpr ⟨List.forall_mem_cons.mpr
        ⟨plain _ (by decide), newLine_admits plain feed _⟩,
        quoteWith_admits plain (flatMap_admits escaped k)⟩,
        fun c mem => plain c ((by decide : Text.IsPlain ": ") c mem)⟩,
      indented_admits plain feed numbers escaped (level + 1) v⟩,
      indentedMembers_admits plain feed numbers escaped level ms⟩

theorem indentedItems_admits (plain : ∀ c : CodePoint, c.IsPlain → P c)
    (feed : P (CodePoint.ofChar '\n')) (numbers : s.PlainNumbers)
    (escaped : ∀ c, ∀ d ∈ s.escape c, P d) (level : Nat) :
    (vs : List Json) → ∀ c ∈ indentedItems s level vs, P c
  | [] => List.forall_mem_append.mpr ⟨newLine_admits plain feed _,
      List.forall_mem_singleton.mpr (plain _ (by decide))⟩
  | v :: vs => by
    rw [indentedItems]
    exact List.forall_mem_append.mpr ⟨List.forall_mem_append.mpr ⟨List.forall_mem_cons.mpr
      ⟨plain _ (by decide), newLine_admits plain feed _⟩,
      indented_admits plain feed numbers escaped (level + 1) v⟩,
      indentedItems_admits plain feed numbers escaped level vs⟩

theorem indentedMembers_admits (plain : ∀ c : CodePoint, c.IsPlain → P c)
    (feed : P (CodePoint.ofChar '\n')) (numbers : s.PlainNumbers)
    (escaped : ∀ c, ∀ d ∈ s.escape c, P d) (level : Nat) :
    (ms : List (Text × Json)) → ∀ c ∈ indentedMembers s level ms, P c
  | [] => List.forall_mem_append.mpr ⟨newLine_admits plain feed _,
      List.forall_mem_singleton.mpr (plain _ (by decide))⟩
  | (k, v) :: ms => by
    rw [indentedMembers]
    exact List.forall_mem_append.mpr ⟨List.forall_mem_append.mpr ⟨List.forall_mem_append.mpr
      ⟨List.forall_mem_append.mpr ⟨List.forall_mem_cons.mpr
        ⟨plain _ (by decide), newLine_admits plain feed _⟩,
        quoteWith_admits plain (flatMap_admits escaped k)⟩,
        fun c mem => plain c ((by decide : Text.IsPlain ": ") c mem)⟩,
      indented_admits plain feed numbers escaped (level + 1) v⟩,
      indentedMembers_admits plain feed numbers escaped level ms⟩

end

end

/-- A document can always be encoded. -/
theorem isScalar_document (v : Json) : Text.IsScalar (document v) :=
  indented_admits (fun _ => CodePoint.IsPlain.isScalar) (by decide) plainNumbers_document
    (fun c d mem => (isPlain_escapeAscii c d mem).isScalar) 0 v.sorted

end Json

end RedGreen
