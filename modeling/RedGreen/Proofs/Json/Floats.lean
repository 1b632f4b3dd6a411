import RedGreen.Proofs.Number.Decimals
import RedGreen.Proofs.Json.Written

/-!
# Floats read back

Whatever the format, a finite float is written as a numeral with a point or an exponent, so that
it is not taken for an integer, and the numeral reads back as the float.  Together with what is
known of texts this settles which values the two styles keep.
-/

namespace RedGreen

namespace Json

open Numeral (Unsigned pointed exponential)

/-! ## Parts of a numeral -/

theorem readWhole?_proper {u : Unsigned} (proper : u.Proper) {rest : Text}
    (ends : Text.EndsDigits rest) :
    readWhole? (Text.ofDigits u.whole ++ rest) = some (u.whole, rest) := by
  rw [readWhole?, Text.spanDigits_ofDigits proper.whole_lt ends]
  -- A leading zero stands alone, or the reader would stop behind it.
  obtain zero | ⟨d, ds, shape, nonzero⟩ := proper.whole
  · rw [zero]
    rfl
  · rw [shape]
    cases d with
    | zero => contradiction
    | succ d => rfl

theorem readFraction?_digits {ds : List Nat} (digits : ∀ d ∈ ds, d < 10) (nonempty : ds ≠ [])
    {rest : Text} (ends : Text.EndsDigits rest) :
    readFraction? (CodePoint.ofChar '.' :: Text.ofDigits ds ++ rest) = some (ds, rest) := by
  rw [List.cons_append, readFraction?, if_pos rfl, Text.spanDigits_ofDigits digits ends]
  cases ds with
  | nil => contradiction
  | cons d ds => rfl

theorem readSign_sign (e : Int) (t : Text) :
    Numeral.readSign ((if e < 0 then CodePoint.ofChar '-' else CodePoint.ofChar '+') :: t) =
      (decide (e < 0), t) := by
  by_cases negative : e < 0
  · rw [if_pos negative, decide_eq_true negative]
    rfl
  · rw [if_neg negative, decide_eq_false negative]
    rfl

/-- The exponent of a numeral, and what stands behind it. -/
def exponentPart (width : Nat) (e : Int) (rest : Text) : Text :=
  CodePoint.ofChar 'e' :: (if e < 0 then CodePoint.ofChar '-' else CodePoint.ofChar '+') ::
    (Text.padNat width e.natAbs ++ rest)

theorem readExponent?_exponentPart (width : Nat) (e : Int) {rest : Text}
    (ends : Text.EndsDigits rest) : readExponent? (exponentPart width e rest) = some (e, rest) := by
  obtain ⟨ds, text, digits, value, length⟩ := Text.padNat_digits width e.natAbs
  have span := Text.spanDigits_ofDigits digits ends
  rw [exponentPart, readExponent?, if_pos (.inl rfl), readSign_sign, text]
  dsimp only
  rw [span]
  cases ds with
  | nil =>
    have some := List.length_pos_iff.mpr (Text.decimalDigits_ne_nil e.natAbs)
    rw [List.length_nil] at length
    omega
  | cons d ds =>
    dsimp only
    rw [value]
    by_cases negative : e < 0
    · rw [if_pos (decide_eq_true negative)]
      congr 2
      omega
    · rw [if_neg (by simpa using negative)]
      congr 2
      omega

/-! ## Whole numerals -/

/-- A minus sign, if there is to be one. -/
def signed (negative : Bool) (t : Text) : Text := if negative then CodePoint.ofChar '-' :: t else t

/-- What a reader makes of a numeral with a point: no sign, and a digit in front. -/
def HeadDigit (t : Text) : Prop :=
  ∃ d u, d < 10 ∧ t = CodePoint.ofChar (Nat.digitChar d) :: u

/-- A numeral with a point is a float. -/
theorem readNumber?_point {t r₀ rest : Text} {whole fraction : List Nat} (head : HeadDigit t)
    (readsWhole : readWhole? t = some (whole, r₀))
    (readsFraction : readFraction? r₀ = some (fraction, rest))
    (noExponent : readExponent? rest = none) (negative : Bool) :
    readNumber? (signed negative t) =
      some (.ok (.float (Unsigned.value negative ⟨whole, fraction, 0⟩), rest)) := by
  obtain ⟨d, u, small, rfl⟩ := head
  have minus := (unmarked_digit small).minus
  cases negative with
  | true =>
    simp only [signed, if_true, readNumber?, readsWhole, Option.map_some, readsFraction, noExponent,
      Option.getD_some, Option.getD_none]
  | false =>
    simp only [signed, Bool.false_eq_true, if_false, readNumber?, minus, readsWhole,
      Option.map_some, readsFraction, noExponent, Option.getD_some, Option.getD_none]

/-- A numeral with an exponent is a float, with a point or without. -/
theorem readNumber?_exponent {t r₀ r₁ rest : Text} {whole fraction : List Nat} {e : Int}
    (head : HeadDigit t) (readsWhole : readWhole? t = some (whole, r₀))
    (readsFraction : readFraction? r₀ = some (fraction, r₁) ∨
      readFraction? r₀ = none ∧ fraction = [] ∧ r₁ = r₀)
    (readsExponent : readExponent? r₁ = some (e, rest)) (negative : Bool) :
    readNumber? (signed negative t) =
      some (.ok (.float (Unsigned.value negative ⟨whole, fraction, e⟩), rest)) := by
  obtain ⟨d, u, small, rfl⟩ := head
  have minus := (unmarked_digit small).minus
  rcases readsFraction with readsFraction | ⟨readsFraction, rfl, rfl⟩ <;> cases negative <;>
    simp only [signed, Bool.false_eq_true, if_false, if_true, readNumber?, minus,
      readsWhole, Option.map_some, readsFraction, readsExponent, Option.getD_some, Option.getD_none]

theorem headDigit_ofDigits {ds : List Nat} (digits : ∀ d ∈ ds, d < 10) (nonempty : ds ≠ [])
    (rest : Text) : HeadDigit (Text.ofDigits ds ++ rest) := by
  cases ds with
  | nil => contradiction
  | cons d ds => exact ⟨d, _, digits d (by simp), rfl⟩

theorem whole_ne_nil {u : Unsigned} (proper : u.Proper) : u.whole ≠ [] := by
  obtain zero | ⟨d, ds, shape, -⟩ := proper.whole
  · simp [zero]
  · simp [shape]

theorem readNumber?_pointed {whole fraction : List Nat} {d : Decimal}
    (renders : Unsigned.Renders ⟨whole, fraction, 0⟩ d) (nonempty : fraction ≠ [])
    {m : Magnitude} (draws : m.Draws d.value) (negative : Bool) {rest : Text}
    (ends : EndsNumber rest) :
    readNumber? (signed negative (pointed whole fraction ++ rest)) =
      some (.ok (.float (.finite negative m), rest)) := by
  have proper := renders.proper
  have point : Text.EndsDigits (CodePoint.ofChar '.' :: Text.ofDigits fraction ++ rest) :=
    Text.endsDigits_cons.mpr (by decide)
  rw [← renders.value draws negative, pointed, List.append_assoc]
  exact readNumber?_point (headDigit_ofDigits proper.whole_lt (whole_ne_nil proper) _)
    (readWhole?_proper proper point)
    (readFraction?_digits proper.fraction_lt nonempty ends.endsDigits)
    (readExponent?_of_ends ends) negative

theorem readNumber?_exponential {c : Nat} {ds : List Nat} {e : Int} {d : Decimal}
    (renders : Unsigned.Renders ⟨[c], ds, e⟩ d) {m : Magnitude} (draws : m.Draws d.value)
    (width : Nat) (negative : Bool) {rest : Text} (ends : EndsNumber rest) :
    readNumber? (signed negative (exponential c ds width e ++ rest)) =
      some (.ok (.float (.finite negative m), rest)) := by
  have proper := renders.proper
  have readsExponent := readExponent?_exponentPart width e ends.endsDigits
  have mark : Text.EndsDigits (exponentPart width e rest) := Text.endsDigits_cons.mpr (by decide)
  rw [← renders.value draws negative]
  by_cases none : ds = []
  · -- Without more digits no point is written, and the exponent follows at once.
    subst none
    have shape : exponential c [] width e ++ rest =
        Text.ofDigits [c] ++ exponentPart width e rest := by
      simp [exponential, exponentPart]
    have noPoint : readFraction? (exponentPart width e rest) = none := by
      rw [exponentPart, readFraction?, if_neg (by decide)]
    rw [shape]
    exact readNumber?_exponent (headDigit_ofDigits proper.whole_lt (List.cons_ne_nil c []) _)
      (readWhole?_proper proper mark) (.inr ⟨noPoint, rfl, rfl⟩) readsExponent negative
  · have shape : exponential c ds width e ++ rest = Text.ofDigits [c] ++
        (CodePoint.ofChar '.' :: Text.ofDigits ds ++ exponentPart width e rest) := by
      simp [exponential, exponentPart, none]
    rw [shape]
    exact readNumber?_exponent (headDigit_ofDigits proper.whole_lt (List.cons_ne_nil c []) _)
      (readWhole?_proper proper (Text.endsDigits_cons.mpr (by decide)))
      (.inl (readFraction?_digits proper.fraction_lt none mark)) readsExponent negative

/-! ## Finite floats -/

theorem write_finite (f : NumeralFormat) (negative : Bool) (m : Magnitude) :
    f.write (.finite negative m) = signed negative (f.writeMagnitude m) := by
  cases negative <;> rfl

theorem zero_of_isZero {m : Magnitude} (zero : m.isZero = true) : m = .zero := by
  have significand : m.significand = 0 := by simpa [Magnitude.isZero] using zero
  -- A significand below the normal ones belongs to the finest scale.
  have scale : m.scale = 0 := by
    refine m.normal.resolve_left fun large => ?_
    rw [significand] at large
    exact absurd large (by decide)
  exact Magnitude.ext significand scale

theorem units_pos {m : Magnitude} (nonzero : m.isZero = false) : 0 < m.units := by
  have significand : m.significand ≠ 0 := by simpa [Magnitude.isZero] using nonzero
  exact Nat.mul_pos (Nat.pos_of_ne_zero significand) (Nat.two_pow_pos _)

theorem readNumber?_writeMagnitude (f : NumeralFormat) (m : Magnitude) (negative : Bool)
    {rest : Text} (ends : EndsNumber rest) :
    readNumber? (signed negative (f.writeMagnitude m ++ rest)) =
      some (.ok (.float (.finite negative m), rest)) := by
  rw [NumeralFormat.writeMagnitude]
  cases zero : m.isZero with
  | true =>
    rw [zero_of_isZero zero, if_pos rfl]
    -- Zero has no shortest digits; it is written by itself.
    have proper : Unsigned.Proper ⟨[0], [0], 0⟩ := ⟨by decide, by decide, .inl rfl⟩
    exact readNumber?_point ⟨0, _, by decide, rfl⟩
      (readWhole?_proper proper (Text.endsDigits_cons.mpr (by decide)))
      (readFraction?_digits proper.fraction_lt (List.cons_ne_nil _ _) ends.endsDigits)
      (readExponent?_of_ends ends) negative
  | false =>
    rw [if_neg Bool.false_ne_true]
    obtain ⟨fits, draws, least, most⟩ := Decimal.shortest_names (units_pos zero)
    dsimp only
    split
    · obtain ⟨whole, fraction, shape, nonempty, renders⟩ := Numeral.positional_renders fits
      rw [shape]
      exact readNumber?_pointed renders nonempty draws negative ends
    · obtain ⟨c, ds, shape, renders⟩ :=
        Numeral.scientific_renders fits least most f.exponentWidth
      rw [shape]
      exact readNumber?_exponential renders draws f.exponentWidth negative ends

theorem headDigit_writeMagnitude (f : NumeralFormat) (m : Magnitude) :
    HeadDigit (f.writeMagnitude m) := by
  rw [NumeralFormat.writeMagnitude]
  cases zero : m.isZero with
  | true => exact ⟨0, _, by decide, rfl⟩
  | false =>
    rw [if_neg Bool.false_ne_true]
    obtain ⟨fits, draws, least, most⟩ := Decimal.shortest_names (units_pos zero)
    dsimp only
    split
    · obtain ⟨whole, fraction, shape, nonempty, renders⟩ := Numeral.positional_renders fits
      rw [shape, pointed]
      exact headDigit_ofDigits renders.proper.whole_lt (whole_ne_nil renders.proper) _
    · obtain ⟨c, ds, shape, renders⟩ :=
        Numeral.scientific_renders fits least most f.exponentWidth
      rw [shape]
      exact ⟨c, _, renders.proper.whole_lt c (List.mem_singleton.mpr rfl), rfl⟩

theorem HeadDigit.append {t : Text} (head : HeadDigit t) (rest : Text) : HeadDigit (t ++ rest) := by
  obtain ⟨d, u, small, rfl⟩ := head
  exact ⟨d, _, small, rfl⟩

theorem signed_append (negative : Bool) (t rest : Text) :
    signed negative t ++ rest = signed negative (t ++ rest) := by
  cases negative <;> rfl

theorem readScalar_signed {t : Text} (head : HeadDigit t) (negative : Bool) {r : Reading Json}
    (number : readNumber? (signed negative t) = some r) : readScalar (signed negative t) = r := by
  have literal : readLiteral? (signed negative t) = none := by
    obtain ⟨d, u, small, rfl⟩ := head
    cases negative with
    | true => exact readLiteral?_minus_digit small u
    | false => exact readLiteral?_digit small u
  rw [readScalar, literal, number]

theorem readValue_signed {t : Text} (head : HeadDigit t) (negative : Bool) (fuel depth : Nat) :
    readValue (fuel + 1) depth (signed negative t) = readScalar (signed negative t) := by
  obtain ⟨d, u, small, rfl⟩ := head
  have first := unmarked_digit small
  cases negative with
  | true => exact readValue_scalar (by decide) (by decide) (by decide) fuel depth _
  | false => exact readValue_scalar first.quote first.brace first.bracket fuel depth _

theorem starts_signed {t : Text} (head : HeadDigit t) (negative : Bool) :
    Starts (signed negative t) := by
  obtain ⟨d, u, small, rfl⟩ := head
  have first := unmarked_digit small
  cases negative with
  | true => exact ⟨_, _, rfl, by decide⟩
  | false => exact ⟨_, _, rfl, first.ascii, first.noGap, first.closing⟩

/-- Every style keeps every finite float. -/
theorem keepsFloat (s : Style) {x : Binary64} (finite : x.isFinite = true) : s.KeepsFloat x := by
  cases x with
  | finite negative m =>
    have head := headDigit_writeMagnitude s.numerals m
    refine ⟨?_, fun fuel depth rest ends => ?_⟩
    · rw [write_finite]
      exact starts_signed head negative
    · rw [write_finite, signed_append, readValue_signed (head.append rest)]
      exact readScalar_signed (head.append rest) negative
        (readNumber?_writeMagnitude s.numerals m negative ends)
  | infinite _ => cases finite
  | notANumber => cases finite

end Json

end RedGreen
