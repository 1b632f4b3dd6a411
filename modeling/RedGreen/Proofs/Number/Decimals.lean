import RedGreen.Number.Numeral
import RedGreen.Proofs.Number.Shortest
import RedGreen.Proofs.Text.Digits

/-!
# Decimals read back

A decimal that draws to a magnitude is read as it, whatever its digits and its exponent are: only
the number it stands for counts.  `positional` and `scientific` arrange the digits of a decimal
around a point; both stand for the number of the decimal.
-/

namespace RedGreen

namespace Numeral

open Decimal (tenTo_pos cast_tenTo)

namespace Unsigned

/-- All digits of a numeral, without the point. -/
def coefficient (u : Unsigned) : Nat := Text.digitsValue (u.whole ++ u.fraction)

/-- The number that a numeral stands for. -/
def amount (u : Unsigned) : ℚ := u.coefficient * 10 ^ (u.exponent - u.fraction.length)

/-- What a reader takes for the digits of a numeral: no leading zeros but a lone one. -/
structure Proper (u : Unsigned) : Prop where
  whole_lt : ∀ d ∈ u.whole, d < 10
  fraction_lt : ∀ d ∈ u.fraction, d < 10
  whole : u.whole = [0] ∨ ∃ d ds, u.whole = d :: ds ∧ d ≠ 0

end Unsigned

/-- A ratio that draws to a magnitude is rounded to it. -/
theorem ofRatio_of_draws {m : Magnitude} {negative : Bool} {num den : Nat} (pos : 0 < den)
    (draws : m.Draws ((num : ℚ) / den)) :
    Binary64.ofRatio negative num den = .finite negative m := by
  have ratio : ∀ one : Nat, ((4 * (num * one) : Nat) : ℚ) / den = 4 * one * ((num : ℚ) / den) := by
    intro one
    push_cast
    ring
  have inside : m.interval.contains (4 * (num * Magnitude.unitsPerOne)) den = true := by
    rw [Magnitude.Interval.contains_iff pos, ratio]
    exact draws
  rw [Binary64.ofRatio, Magnitude.ofRatio?_of_contains pos inside, Option.elim_some]

/-- A decimal that draws to a magnitude is read as it. -/
theorem ofDecimal_of_draws {m : Magnitude} {negative : Bool} {coefficient count : Nat}
    {exponent : ℤ} (nonzero : coefficient ≠ 0) (least : -400 ≤ (count : ℤ) + exponent)
    (most : exponent ≤ 400) (draws : m.Draws (coefficient * 10 ^ exponent)) :
    Binary64.ofDecimal negative coefficient count exponent = .finite negative m := by
  rw [Binary64.ofDecimal, if_neg nonzero, if_neg (by omega), if_neg (by omega)]
  split
  -- A negative exponent is a power of ten in the denominator.
  next small =>
    obtain ⟨k, rfl⟩ : ∃ k : Nat, exponent = -(k : ℤ) := ⟨exponent.natAbs, by omega⟩
    have ratio : (coefficient : ℚ) * 10 ^ (-(k : ℤ)) = coefficient / (tenTo k : Nat) := by
      rw [cast_tenTo, zpow_neg, zpow_natCast, div_eq_mul_inv]
    rw [ratio] at draws
    rw [Int.natAbs_neg, Int.natAbs_natCast]
    exact ofRatio_of_draws (tenTo_pos _) draws
  next large =>
    obtain ⟨k, rfl⟩ : ∃ k : Nat, exponent = (k : ℤ) := ⟨exponent.toNat, by omega⟩
    have ratio : (coefficient : ℚ) * 10 ^ (k : ℤ) =
        ((coefficient * tenTo k : Nat) : ℚ) / (1 : Nat) := by
      rw [Nat.cast_mul, cast_tenTo, Nat.cast_one, div_one, zpow_natCast]
    rw [ratio] at draws
    exact ofRatio_of_draws Nat.one_pos draws

theorem Unsigned.value_of_draws {m : Magnitude} {u : Unsigned} (nonzero : u.coefficient ≠ 0)
    (least : -400 ≤ (u.whole.length : ℤ) + u.exponent)
    (most : u.exponent - u.fraction.length ≤ 400) (draws : m.Draws u.amount) (negative : Bool) :
    u.value negative = .finite negative m := by
  refine ofDecimal_of_draws nonzero ?_ most draws
  rw [List.length_append]
  push_cast
  omega

/-! ## The digits of a decimal -/

theorem length_decimalDigits {n k : Nat} (lower : tenTo k ≤ n) (upper : n < tenTo (k + 1)) :
    (Text.decimalDigits n).length = k + 1 := by
  -- The last digit is split off, which is a quotient by ten.
  induction k generalizing n with
  | zero =>
    rw [Text.decimalDigits_of_lt upper]
    rfl
  | succ k ih =>
    have low : tenTo k * 10 ≤ n := lower
    have high : n < tenTo (k + 1) * 10 := upper
    have some := tenTo_pos k
    rw [Text.decimalDigits_of_ge (by omega), List.length_append, ih (by omega) (by omega)]
    rfl

theorem digits_ne_zero {d : Decimal} (fits : d.Fits) : d.digits ≠ 0 :=
  Nat.ne_of_gt (Nat.lt_of_lt_of_le (tenTo_pos _) fits.lower)

theorem length_of_fits {d : Decimal} (fits : d.Fits) :
    (Text.decimalDigits d.digits).length = d.count := by
  obtain ⟨digits, count, exponent⟩ := d
  obtain ⟨pos, lower, upper⟩ := fits
  obtain ⟨k, rfl⟩ := Nat.exists_eq_succ_of_ne_zero (Nat.ne_of_gt pos)
  exact length_decimalDigits lower upper

/-- The digits of a decimal: as many as it says, and no leading zero. -/
theorem digits_of_fits {d : Decimal} (fits : d.Fits) :
    ∃ c ds, Text.decimalDigits d.digits = c :: ds ∧ c ≠ 0 ∧ ds.length + 1 = d.count := by
  have length := length_of_fits fits
  cases shape : Text.decimalDigits d.digits with
  | nil => exact absurd shape (Text.decimalDigits_ne_nil _)
  | cons c ds =>
    rw [shape] at length
    refine ⟨c, ds, rfl, ?_, length⟩
    rintro rfl
    exact digits_ne_zero fits (Text.decimalDigits_eq_zero_cons shape).1

/-! ## Digits around a point -/

/-- A numeral that stands for the number of a decimal and is within the range in which decimals are
read exactly. -/
structure Unsigned.Renders (u : Unsigned) (d : Decimal) : Prop where
  proper : u.Proper
  amount : u.amount = d.value
  nonzero : u.coefficient ≠ 0
  least : -400 ≤ (u.whole.length : ℤ) + u.exponent
  most : u.exponent - u.fraction.length ≤ 400

theorem Unsigned.Renders.value {u : Unsigned} {d : Decimal} (h : u.Renders d) {m : Magnitude}
    (draws : m.Draws d.value) (negative : Bool) : u.value negative = .finite negative m :=
  value_of_draws h.nonzero h.least h.most (by rw [h.amount]; exact draws) negative

/-- The text of digits around a point. -/
def pointed (whole fraction : List Nat) : Text :=
  Text.ofDigits whole ++ CodePoint.ofChar '.' :: Text.ofDigits fraction

theorem ofDigits_replicate_zero (k : Nat) :
    Text.ofDigits (List.replicate k 0) = List.replicate k (CodePoint.ofChar '0') := by
  rw [Text.ofDigits, List.map_replicate]
  rfl

theorem ofDigits_take (k : Nat) (ds : List Nat) :
    (Text.ofDigits ds).take k = Text.ofDigits (ds.take k) := by
  simp [Text.ofDigits]

theorem ofDigits_drop (k : Nat) (ds : List Nat) :
    (Text.ofDigits ds).drop k = Text.ofDigits (ds.drop k) := by
  simp [Text.ofDigits]

theorem digitsValue_zeros (k : Nat) : Text.digitsValue (List.replicate k 0) = 0 := by
  have split := Text.digitsValue_replicate_zero k []
  rwa [List.append_nil] at split

/-- Below one, zeros stand between the point and the digits. -/
theorem renders_below {d : Decimal} (fits : d.Fits) (low : d.exponent < 0) :
    Unsigned.Renders
      ⟨[0], List.replicate (d.exponent.natAbs - 1) 0 ++ Text.decimalDigits d.digits, 0⟩ d := by
  obtain ⟨c, ds, shape, nonzero, length⟩ := digits_of_fits fits
  have coefficient : Unsigned.coefficient
      ⟨[0], List.replicate (d.exponent.natAbs - 1) 0 ++ Text.decimalDigits d.digits, 0⟩ =
        d.digits := by
    rw [Unsigned.coefficient]
    dsimp only
    -- The zero in front of the point is one more of the zeros behind it.
    rw [List.singleton_append, ← List.cons_append, ← List.replicate_succ,
      Text.digitsValue_replicate_zero, Text.digitsValue_decimalDigits]
  refine ⟨⟨by simp, fun e mem => ?_, .inl rfl⟩, ?_, ?_, ?_, ?_⟩
  · rcases List.mem_append.mp mem with zero | mem
    · rw [List.eq_of_mem_replicate zero]
      decide
    · exact Text.lt_ten_of_mem_decimalDigits mem
  · have exponent : (0 : ℤ) - ((d.exponent.natAbs - 1 + d.count : Nat) : ℤ) =
        d.exponent - ((d.count : ℤ) - 1) := by
      omega
    rw [Unsigned.amount, coefficient, Decimal.value]
    dsimp only
    rw [List.length_append, List.length_replicate, length_of_fits fits, exponent]
  · rw [coefficient]
    exact digits_ne_zero fits
  · show (-400 : ℤ) ≤ 1 + 0
    decide
  · dsimp only
    omega

/-- Zeros fill up the digits as far as the point. -/
theorem renders_filled {d : Decimal} (fits : d.Fits) (high : 0 ≤ d.exponent)
    (few : d.count ≤ d.exponent.toNat + 1) :
    Unsigned.Renders ⟨Text.decimalDigits d.digits ++
      List.replicate (d.exponent.toNat + 1 - d.count) 0, [0], 0⟩ d := by
  obtain ⟨c, ds, shape, nonzero, length⟩ := digits_of_fits fits
  have coefficient : Unsigned.coefficient ⟨Text.decimalDigits d.digits ++
      List.replicate (d.exponent.toNat + 1 - d.count) 0, [0], 0⟩ =
        d.digits * 10 ^ (d.exponent.toNat + 1 - d.count + 1) := by
    rw [Unsigned.coefficient]
    dsimp only
    -- The zero behind the point is one more of the zeros that fill up.
    rw [List.append_assoc, ← List.replicate_succ', Text.digitsValue_append, digitsValue_zeros,
      Text.digitsValue_decimalDigits, List.length_replicate, Nat.add_zero]
  refine ⟨⟨fun e mem => ?_, by simp, .inr ⟨c, _, by rw [shape]; rfl, nonzero⟩⟩, ?_, ?_, ?_, ?_⟩
  · rcases List.mem_append.mp mem with mem | zero
    · exact Text.lt_ten_of_mem_decimalDigits mem
    · rw [List.eq_of_mem_replicate zero]
      decide
  · have exponent : ((d.exponent.toNat + 1 - d.count + 1 : Nat) : ℤ) + (0 - (1 : Nat)) =
        d.exponent - ((d.count : ℤ) - 1) := by
      omega
    rw [Unsigned.amount, coefficient, Decimal.value, ← exponent, zpow_add₀ (by norm_num),
      zpow_natCast, Nat.cast_mul, Nat.cast_pow, Nat.cast_ofNat, mul_assoc, List.length_singleton]
  · rw [coefficient]
    exact Nat.mul_ne_zero (digits_ne_zero fits) (Nat.pow_pos (by decide)).ne'
  · dsimp only
    omega
  · simp

/-- The point stands between the digits. -/
theorem renders_between {d : Decimal} (fits : d.Fits) (high : 0 ≤ d.exponent)
    (many : d.exponent.toNat + 1 < d.count) :
    Unsigned.Renders ⟨(Text.decimalDigits d.digits).take (d.exponent.toNat + 1),
      (Text.decimalDigits d.digits).drop (d.exponent.toNat + 1), 0⟩ d := by
  obtain ⟨c, ds, shape, nonzero, length⟩ := digits_of_fits fits
  have coefficient : Unsigned.coefficient
      ⟨(Text.decimalDigits d.digits).take (d.exponent.toNat + 1),
        (Text.decimalDigits d.digits).drop (d.exponent.toNat + 1), 0⟩ = d.digits := by
    rw [Unsigned.coefficient]
    dsimp only
    rw [List.take_append_drop, Text.digitsValue_decimalDigits]
  refine ⟨⟨fun e mem => ?_, fun e mem => ?_, .inr ⟨c, _, by rw [shape]; rfl, nonzero⟩⟩, ?_, ?_,
    ?_, ?_⟩
  · exact Text.lt_ten_of_mem_decimalDigits (List.mem_of_mem_take mem)
  · exact Text.lt_ten_of_mem_decimalDigits (List.mem_of_mem_drop mem)
  · have exponent : (0 : ℤ) - ((d.count - (d.exponent.toNat + 1) : Nat) : ℤ) =
        d.exponent - ((d.count : ℤ) - 1) := by
      omega
    rw [Unsigned.amount, coefficient, Decimal.value]
    dsimp only
    rw [List.length_drop, length_of_fits fits, exponent]
  · rw [coefficient]
    exact digits_ne_zero fits
  · dsimp only
    omega
  · dsimp only
    omega

/-- Positional notation is digits around a point. -/
theorem positional_renders {d : Decimal} (fits : d.Fits) :
    ∃ whole fraction, NumeralFormat.positional (Text.ofNat d.digits) d.exponent =
        pointed whole fraction ∧ fraction ≠ [] ∧ Unsigned.Renders ⟨whole, fraction, 0⟩ d := by
  obtain ⟨c, ds, shape, nonzero, length⟩ := digits_of_fits fits
  have whole := length_of_fits fits
  rw [NumeralFormat.positional, Text.ofNat_eq_ofDigits]
  dsimp only
  by_cases low : d.exponent < 0
  · rw [if_pos low]
    refine ⟨_, _, ?_, ?_, renders_below fits low⟩
    · rw [pointed, Text.ofDigits_append, ofDigits_replicate_zero]
      rfl
    · rw [shape]
      simp
  · rw [if_neg low, ofDigits_take, ofDigits_drop, Text.length_ofDigits, whole]
    by_cases few : d.count ≤ d.exponent.toNat + 1
    -- All digits stand in front of the point.
    · refine ⟨_, [0], ?_, List.cons_ne_nil _ _, renders_filled fits (by omega) few⟩
      rw [List.take_of_length_le (by omega), List.drop_of_length_le (by omega), pointed,
        Text.ofDigits_append, ofDigits_replicate_zero]
      rfl
    · refine ⟨_, _, ?_, ?_, renders_between fits (by omega) (by omega)⟩
      · have none : d.exponent.toNat + 1 - d.count = 0 := by omega
        have more : (Text.ofDigits ((Text.decimalDigits d.digits).drop
            (d.exponent.toNat + 1))).isEmpty = false := by
          rw [List.isEmpty_eq_false_iff, ne_eq, ← List.length_eq_zero_iff, Text.length_ofDigits,
            List.length_drop, whole]
          omega
        rw [none, more, pointed]
        simp
      · rw [ne_eq, List.drop_eq_nil_iff, whole]
        omega

/-- The text of one digit, the digits behind the point if there are any, and an exponent. -/
def exponential (c : Nat) (ds : List Nat) (width : Nat) (exponent : ℤ) : Text :=
  CodePoint.ofChar c.digitChar ::
    (if ds = [] then [] else CodePoint.ofChar '.' :: Text.ofDigits ds) ++
    CodePoint.ofChar 'e' :: (if exponent < 0 then CodePoint.ofChar '-' else CodePoint.ofChar '+') ::
      Text.padNat width exponent.natAbs

/-- Scientific notation is one digit, a point, more digits and an exponent. -/
theorem scientific_renders {d : Decimal} (fits : d.Fits) (least : -400 ≤ d.exponent)
    (most : d.exponent < 400) (width : Nat) :
    ∃ c ds, NumeralFormat.scientific width (Text.ofNat d.digits) d.exponent =
        exponential c ds width d.exponent ∧ Unsigned.Renders ⟨[c], ds, d.exponent⟩ d := by
  obtain ⟨c, ds, shape, nonzero, length⟩ := digits_of_fits fits
  have digits_lt : ∀ e ∈ c :: ds, e < 10 := by
    rw [← shape]
    exact fun _ => Text.lt_ten_of_mem_decimalDigits
  have coefficient : Unsigned.coefficient ⟨[c], ds, d.exponent⟩ = d.digits := by
    rw [Unsigned.coefficient]
    dsimp only
    rw [List.singleton_append, ← shape, Text.digitsValue_decimalDigits]
  refine ⟨c, ds, ?_, ⟨fun e mem => ?_, fun e mem => ?_, .inr ⟨c, [], rfl, nonzero⟩⟩, ?_, ?_, ?_, ?_⟩
  · rw [Text.ofNat_eq_ofDigits, shape, exponential]
    cases ds <;> rfl
  · exact digits_lt e (by rw [List.mem_singleton.mp mem]; exact List.mem_cons_self)
  · exact digits_lt e (List.mem_cons_of_mem c mem)
  · have exponent : d.exponent - (ds.length : ℤ) = d.exponent - ((d.count : ℤ) - 1) := by omega
    rw [Unsigned.amount, coefficient, Decimal.value]
    dsimp only
    rw [exponent]
  · rw [coefficient]
    exact digits_ne_zero fits
  · show (-400 : ℤ) ≤ 1 + d.exponent
    omega
  · dsimp only
    omega

end Numeral

end RedGreen
