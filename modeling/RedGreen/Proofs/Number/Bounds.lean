import RedGreen.Proofs.Number.Rounding

/-!
# Bounds of rounded numbers

Rounding never passes a number that needs no rounding, and powers of two need none.  So a ratio of
at most `2 ^ k` is rounded to a finite number of at most `2 ^ k`.
-/

namespace RedGreen

theorem roundHalfEven_le {num den n : Nat} (le : num ≤ n * den) : roundHalfEven num den ≤ n := by
  rcases Nat.eq_zero_or_pos den with rfl | pos
  · have zero : num = 0 := by omega
    rw [zero, roundHalfEven]
    simp
  have split : num / den * den + num % den = num := Nat.div_add_mod' num den
  have quotient : num / den ≤ n := Nat.div_le_of_le_mul (by rwa [Nat.mul_comm])
  rcases Nat.lt_or_ge (num / den) n with less | most
  · unfold roundHalfEven
    dsimp only
    split_ifs <;> omega
  -- Otherwise the quotient is the bound itself, and nothing is left to be rounded.
  · have same : num / den = n := Nat.le_antisymm quotient most
    have rest : num % den = 0 := by
      rw [same] at split
      omega
    unfold roundHalfEven
    simp only [rest, Nat.mul_zero, pos, if_true]
    exact quotient

theorem le_roundHalfEven {num den n : Nat} (pos : 0 < den) (le : n * den ≤ num) :
    n ≤ roundHalfEven num den := by
  have quotient : n ≤ num / den := (Nat.le_div_iff_mul_le pos).mpr le
  unfold roundHalfEven
  dsimp only
  split_ifs <;> omega

namespace Magnitude

/-- A significand of at most `2 ^ 53` makes a magnitude, possibly of the next scale. -/
theorem ofParts?_of_le {significand scale k : Nat} (most : significand ≤ 2 ^ 53)
    (normal : twoTo 52 ≤ significand ∨ scale = 0) (scale_le : scale + 1 ≤ 2045)
    (bounded : significand * twoTo scale ≤ 2 ^ k) :
    ∃ m, ofParts? significand scale = some m ∧ m.units ≤ 2 ^ k := by
  rcases Nat.lt_or_eq_of_le most with inside | carry
  · exact ⟨⟨significand, scale, inside, by omega, normal⟩,
      by rw [ofParts?, dif_pos ⟨inside, by omega, normal⟩], bounded⟩
  · subst carry
    refine ⟨⟨twoTo 52, scale + 1, by decide, scale_le, .inl (Nat.le_refl _)⟩,
      ofParts?_carry rfl rfl, ?_⟩
    have same : twoTo 52 * twoTo (scale + 1) = 2 ^ 53 * twoTo scale := by
      show 2 ^ 52 * 2 ^ (scale + 1) = 2 ^ 53 * 2 ^ scale
      ring
    show twoTo 52 * twoTo (scale + 1) ≤ 2 ^ k
    rw [same]
    exact bounded

theorem two_pow_le_of_coarse {n : Nat} (coarse : 0 < n.log2 + 1 - 53) :
    2 ^ (52 + (n.log2 + 1 - 53)) ≤ n := by
  have exponent : 52 + (n.log2 + 1 - 53) = n.log2 := by omega
  have nonzero : n ≠ 0 := by
    intro zero
    rw [zero, Nat.log2_zero] at coarse
    omega
  rw [exponent]
  exact Nat.log2_self_le nonzero

/-- The scale that a ratio is rounded at leaves between 52 and 53 bits for the significand. -/
theorem ofParts?_le {num den k : Nat} (pos : 0 < den) (small : k ≤ 2000) (le : num ≤ 2 ^ k * den) :
    ∃ m, ofParts? (roundHalfEven num (den * twoTo ((num / den).log2 + 1 - 53)))
      ((num / den).log2 + 1 - 53) = some m ∧ m.units ≤ 2 ^ k := by
  have quotient : num / den ≤ 2 ^ k := Nat.div_le_of_le_mul (by rwa [Nat.mul_comm])
  have above : num / den < 2 ^ ((num / den).log2 + 1) := Nat.lt_log2_self
  have least := @two_pow_le_of_coarse (num / den)
  generalize scaled : (num / den).log2 + 1 - 53 = scale at least ⊢
  have fits : scale ≤ k := by
    rcases Nat.eq_zero_or_pos scale with fine | coarse
    · omega
    · have exponent := (Nat.pow_le_pow_iff_right (by decide)).mp ((least coarse).trans quotient)
      omega
  have most : roundHalfEven num (den * twoTo scale) ≤ 2 ^ 53 := by
    refine roundHalfEven_le ?_
    rw [← two_pow_add_mul]
    have limit : num / den < 2 ^ (53 + scale) :=
      Nat.lt_of_lt_of_le above (Nat.pow_le_pow_right (by decide) (by omega))
    exact Nat.le_of_lt ((Nat.div_lt_iff_lt_mul pos).mp limit)
  have normal : twoTo 52 ≤ roundHalfEven num (den * twoTo scale) ∨ scale = 0 := by
    rcases Nat.eq_zero_or_pos scale with fine | coarse
    · exact .inr fine
    · refine .inl (le_roundHalfEven (Nat.mul_pos pos (Nat.two_pow_pos _)) ?_)
      show 2 ^ 52 * (den * twoTo scale) ≤ num
      rw [← two_pow_add_mul]
      exact (Nat.le_div_iff_mul_le pos).mp (least coarse)
  have bounded : roundHalfEven num (den * twoTo scale) * twoTo scale ≤ 2 ^ k := by
    -- The bound is itself a number of steps of this scale, so rounding does not pass it.
    have factor : 2 ^ k = 2 ^ (k - scale) * twoTo scale := by
      show 2 ^ k = 2 ^ (k - scale) * 2 ^ scale
      rw [← Nat.pow_add, Nat.sub_add_cancel fits]
    rw [factor]
    refine Nat.mul_le_mul_right _ (roundHalfEven_le ?_)
    rw [← two_pow_add_mul, Nat.sub_add_cancel fits]
    exact le
  exact ofParts?_of_le most normal (by omega) bounded

/-- The exponent is kept out of sight, where nothing is tempted to compute its power. -/
theorem unitsPerOne_eq : ∃ e, e ≤ 1074 ∧ unitsPerOne = 2 ^ e :=
  ⟨1074, Nat.le_refl _, by decide +kernel⟩

theorem ofRatio?_le {num den k : Nat} (pos : 0 < den) (small : k ≤ 900) (le : num ≤ 2 ^ k * den) :
    ∃ m, ofRatio? num den = some m ∧ m.units ≤ 2 ^ k * unitsPerOne := by
  obtain ⟨e, bound, power⟩ := unitsPerOne_eq
  have scaled : num * unitsPerOne ≤ 2 ^ (k + e) * den := by
    rw [power, Nat.pow_add, Nat.mul_right_comm]
    exact Nat.mul_le_mul_right _ le
  obtain ⟨m, rounded, most⟩ := ofParts?_le pos (by omega) scaled
  refine ⟨m, rounded, ?_⟩
  rwa [power, ← Nat.pow_add]

end Magnitude

namespace Binary64

/-- A number from zero to `2 ^ k`. -/
def AtMost (k : Nat) (x : Binary64) : Prop :=
  ∃ m, x = .finite false m ∧ m.units ≤ 2 ^ k * Magnitude.unitsPerOne

section

variable {x y : Binary64} {j k : Nat}

theorem atMost_zero (k : Nat) : AtMost k .zero :=
  ⟨.zero, rfl, Nat.zero_le _⟩

theorem AtMost.isFinite (atMost : AtMost k x) : x.isFinite = true := by
  obtain ⟨m, rfl, _⟩ := atMost
  rfl

theorem AtMost.zero_le (atMost : AtMost k x) : Binary64.le .zero x = true := by
  obtain ⟨m, rfl, _⟩ := atMost
  have none : Magnitude.units .zero = 0 := rfl
  rcases Nat.eq_zero_or_pos m.units with zero | pos
  · simp [Binary64.le, lt, equals, isNaN, Binary64.zero, none, zero]
  · simp [Binary64.le, lt, Binary64.zero, none, pos]

theorem ofRatio_atMost {num den : Nat} (pos : 0 < den) (small : k ≤ 900)
    (le : num ≤ 2 ^ k * den) : AtMost k (ofRatio false num den) := by
  obtain ⟨m, rounded, bound⟩ := Magnitude.ofRatio?_le pos small le
  exact ⟨m, by rw [ofRatio, rounded, Option.elim_some], bound⟩

theorem ofUnits_atMost {units : Int} {den : Nat} (pos : 0 < den) (small : k ≤ 900)
    (least : 0 ≤ units) (most : units ≤ ((2 ^ k * (Magnitude.unitsPerOne * den) : Nat) : Int)) :
    AtMost k (ofUnits false units den) := by
  rw [ofUnits]
  split
  next => exact atMost_zero k
  next =>
    have sign : decide (units < 0) = false := decide_eq_false (Int.not_lt.mpr least)
    rw [sign]
    refine ofRatio_atMost (Nat.mul_pos Magnitude.unitsPerOne_pos pos) small ?_
    rw [← Int.natAbs_of_nonneg least] at most
    exact Int.ofNat_le.mp most

theorem AtMost.fraction (atMost : AtMost k x) : AtMost 0 x.fraction := by
  obtain ⟨m, rfl, _⟩ := atMost
  refine ofRatio_atMost Magnitude.unitsPerOne_pos (by decide) ?_
  rw [Nat.pow_zero, Nat.one_mul]
  exact Nat.le_of_lt (Nat.mod_lt _ Magnitude.unitsPerOne_pos)

theorem AtMost.mul (first : AtMost j x) (second : AtMost k y) (small : j + k ≤ 900) :
    AtMost (j + k) (x.mul y) := by
  obtain ⟨m, rfl, boundM⟩ := first
  obtain ⟨n, rfl, boundN⟩ := second
  refine ofRatio_atMost (Nat.mul_pos Magnitude.unitsPerOne_pos Magnitude.unitsPerOne_pos) small ?_
  refine (Nat.mul_le_mul boundM boundN).trans (Nat.le_of_eq ?_)
  ring

theorem AtMost.add (first : AtMost k x) (second : AtMost k y) (small : k + 1 ≤ 900) :
    AtMost (k + 1) (x.add y) := by
  obtain ⟨m, rfl, boundM⟩ := first
  obtain ⟨n, rfl, boundN⟩ := second
  show AtMost (k + 1) (ofUnits false ((m.units : Int) + n.units) 1)
  refine ofUnits_atMost Nat.one_pos small (by omega) ?_
  -- The sum of two numbers is at most twice their bound.
  have double : 2 ^ (k + 1) * (Magnitude.unitsPerOne * 1) =
      2 ^ k * Magnitude.unitsPerOne + 2 ^ k * Magnitude.unitsPerOne := by
    ring
  rw [double]
  exact_mod_cast Nat.add_le_add boundM boundN

theorem AtMost.half (atMost : AtMost (k + 1) x) (small : k ≤ 900) : AtMost k (x.divNat 2) := by
  obtain ⟨m, rfl, bound⟩ := atMost
  refine ofRatio_atMost (Nat.mul_pos Magnitude.unitsPerOne_pos (by decide)) small ?_
  refine bound.trans (Nat.le_of_eq ?_)
  ring

theorem ofNat_atMost {n : Nat} (small : k ≤ 900) (le : n ≤ 2 ^ k) : AtMost k (ofNat n) :=
  ofRatio_atMost Nat.one_pos small (by omega)

end

end Binary64

end RedGreen
