import RedGreen.Proofs.Number.Exact

/-!
# Rounding keeps the order

Of two ratios, the smaller one is not rounded to the larger number.  As numbers are rounded to
themselves, rounding never passes a number, and what lies between two numbers stays there.
-/

namespace RedGreen

/-! ## Rounding to a natural number -/

theorem roundHalfEven_mul_right {num den k : Nat} (pos : 0 < k) :
    roundHalfEven (num * k) (den * k) = roundHalfEven num den := by
  have rest : 2 * (num * k % (den * k)) = 2 * (num % den) * k := by
    rw [Nat.mul_mod_mul_right, Nat.mul_assoc]
  unfold roundHalfEven
  dsimp only
  simp only [rest, Nat.mul_div_mul_right _ _ pos, Nat.mul_lt_mul_right pos]

theorem roundHalfEven_mono_left {num num' den : Nat} (le : num ≤ num') :
    roundHalfEven num den ≤ roundHalfEven num' den := by
  have quotient : num / den ≤ num' / den := Nat.div_le_div_right le
  have split : num / den * den + num % den = num := Nat.div_add_mod' num den
  have split' : num' / den * den + num' % den = num' := Nat.div_add_mod' num' den
  unfold roundHalfEven
  dsimp only
  rcases Nat.lt_or_eq_of_le quotient with less | same
  · split_ifs <;> omega
  · -- The same quotient leaves the larger rest to the larger numerator.
    rw [← same] at split' ⊢
    have rest : num % den ≤ num' % den := by omega
    split_ifs <;> omega

theorem roundHalfEven_mono {num den num' den' : Nat} (pos : 0 < den) (pos' : 0 < den')
    (le : num * den' ≤ num' * den) : roundHalfEven num den ≤ roundHalfEven num' den' := by
  have common : roundHalfEven num' den' = roundHalfEven (num' * den) (den * den') := by
    rw [Nat.mul_comm den den', roundHalfEven_mul_right pos]
  rw [← roundHalfEven_mul_right pos', common]
  exact roundHalfEven_mono_left le

namespace Magnitude

/-! ## Rounding to 53 bits -/

/-- The scale at which `num / den` least units are rounded. -/
def gridScale (num den : Nat) : Nat := (num / den).log2 + 1 - 53

/-- The significand to which `num / den` least units are rounded. -/
def gridSteps (num den : Nat) : Nat := roundHalfEven num (den * twoTo (gridScale num den))

/-- `num / den` least units rounded to 53 bits, as if there were no greatest magnitude. -/
def rounded (num den : Nat) : Nat := gridSteps num den * twoTo (gridScale num den)

section

variable {num den num' den' : Nat}

theorem lt_grid (pos : 0 < den) : num < 2 ^ 53 * (den * twoTo (gridScale num den)) := by
  have above : num / den < 2 ^ ((num / den).log2 + 1) := Nat.lt_log2_self
  have limit : num / den < 2 ^ (53 + gridScale num den) :=
    Nat.lt_of_lt_of_le above (Nat.pow_le_pow_right (by decide) (by rw [gridScale]; omega))
  rw [← two_pow_add_mul]
  exact (Nat.div_lt_iff_lt_mul pos).mp limit

theorem gridSteps_le (pos : 0 < den) : gridSteps num den ≤ 2 ^ 53 :=
  roundHalfEven_le (Nat.le_of_lt (lt_grid pos))

theorem le_gridSteps (pos : 0 < den) : twoTo 52 ≤ gridSteps num den ∨ gridScale num den = 0 := by
  rcases Nat.eq_zero_or_pos (gridScale num den) with fine | coarse
  · exact .inr fine
  · refine .inl (le_roundHalfEven (Nat.mul_pos pos (Nat.two_pow_pos _)) ?_)
    show 2 ^ 52 * (den * twoTo (gridScale num den)) ≤ num
    rw [← two_pow_add_mul]
    exact (Nat.le_div_iff_mul_le pos).mp (two_pow_le_of_coarse coarse)

theorem gridScale_mono (pos : 0 < den) (pos' : 0 < den') (le : num * den' ≤ num' * den) :
    gridScale num den ≤ gridScale num' den' := by
  have quotient : num / den ≤ num' / den' := by
    rw [Nat.le_div_iff_mul_le pos']
    apply Nat.le_of_mul_le_mul_right _ pos
    rw [Nat.mul_right_comm]
    exact (Nat.mul_le_mul_right den' (Nat.div_mul_le_self num den)).trans le
  have logs : (num / den).log2 ≤ (num' / den').log2 := by
    rcases Nat.eq_zero_or_pos (num / den) with zero | positive
    · rw [zero, Nat.log2_zero]
      exact Nat.zero_le _
    · refine (Nat.le_log2 (by omega)).mpr ((Nat.log2_self_le (by omega)).trans quotient)
  rw [gridScale, gridScale]
  omega

theorem rounded_mono (pos : 0 < den) (pos' : 0 < den') (le : num * den' ≤ num' * den) :
    rounded num den ≤ rounded num' den' := by
  rcases Nat.lt_or_eq_of_le (gridScale_mono pos pos' le) with finer | same
  · -- A coarser grid begins where the finer one ends.
    have normal : twoTo 52 ≤ gridSteps num' den' := (le_gridSteps pos').resolve_right (by omega)
    calc rounded num den ≤ 2 ^ 53 * 2 ^ gridScale num den :=
          Nat.mul_le_mul_right _ (gridSteps_le pos)
      _ = 2 ^ 52 * 2 ^ (gridScale num den + 1) := by ring
      _ ≤ 2 ^ 52 * 2 ^ gridScale num' den' :=
          Nat.mul_le_mul_left _ (Nat.pow_le_pow_right (by decide) finer)
      _ ≤ rounded num' den' := Nat.mul_le_mul_right _ normal
  · rw [rounded, rounded, gridSteps, gridSteps, ← same]
    have step := Nat.two_pow_pos (gridScale num den)
    refine Nat.mul_le_mul_right _
      (roundHalfEven_mono (Nat.mul_pos pos step) (Nat.mul_pos pos' step) ?_)
    rw [← Nat.mul_assoc, ← Nat.mul_assoc]
    exact Nat.mul_le_mul_right _ le

/-- What has 53 significant bits is rounded to itself. -/
theorem rounded_exact {significand e : Nat} (small : significand < 2 ^ 53) (pos : 0 < den) :
    rounded (significand * 2 ^ e * den) den = significand * 2 ^ e := by
  generalize counted : significand * 2 ^ e = v
  obtain ⟨q, split, _, _⟩ := scaled_bounds small counted.symm
  have scale : gridScale (v * den) den = v.log2 + 1 - 53 := by
    rw [gridScale, Nat.mul_div_cancel _ pos]
  rw [rounded, gridSteps, scale]
  generalize v.log2 + 1 - 53 = scale at split
  have product : v * den = q * (den * twoTo scale) := by
    rw [split]
    show q * 2 ^ scale * den = q * (den * 2 ^ scale)
    ring
  have step : 0 < den * twoTo scale := Nat.mul_pos pos (Nat.two_pow_pos _)
  rw [product, roundHalfEven_mul q step]
  exact split.symm

theorem rounded_mul_right {k : Nat} (pos : 0 < k) :
    rounded (num * k) (den * k) = rounded num den := by
  have scale : gridScale (num * k) (den * k) = gridScale num den := by
    rw [gridScale, Nat.mul_div_mul_right _ _ pos, gridScale]
  rw [rounded, gridSteps, scale, Nat.mul_right_comm, roundHalfEven_mul_right pos]
  rfl

/-- A rounded ratio of at most `2 ^ (53 + scale)` is at most half a step of the scale away. -/
theorem rounded_near (pos : 0 < den) {scale : Nat} (bits : num ≤ 2 ^ (53 + scale) * den) :
    2 * num ≤ 2 * (rounded num den * den) + den * 2 ^ scale ∧
      2 * (rounded num den * den) ≤ 2 * num + den * 2 ^ scale := by
  rcases Nat.lt_or_eq_of_le bits with inside | whole
  · have quotient : num / den < 2 ^ (53 + scale) := (Nat.div_lt_iff_lt_mul pos).mpr inside
    have fits : gridScale num den ≤ scale := by
      rcases Nat.eq_zero_or_pos (gridScale num den) with fine | coarse
      · omega
      · have least := two_pow_le_of_coarse coarse
        have exponent :=
          (Nat.pow_lt_pow_iff_right (by decide)).mp (Nat.lt_of_le_of_lt least quotient)
        rw [gridScale] at coarse ⊢
        omega
    have step : den * twoTo (gridScale num den) ≤ den * 2 ^ scale :=
      Nat.mul_le_mul_left _ (Nat.pow_le_pow_right (by decide) fits)
    have unit : 0 < den * twoTo (gridScale num den) := Nat.mul_pos pos (Nat.two_pow_pos _)
    have bounds := @roundHalfEven_bounds num _ unit
    have product : rounded num den * den =
        gridSteps num den * (den * twoTo (gridScale num den)) := by
      rw [rounded]
      ring
    rw [product, gridSteps]
    omega
  · -- The bound itself is a power of two, so there is nothing to round.
    have exact : rounded num den = 2 ^ (53 + scale) := by
      rw [whole, ← Nat.one_mul (2 ^ (53 + scale))]
      exact rounded_exact (by decide) pos
    rw [exact, ← whole]
    omega

end

/-! ## Magnitudes -/

theorem units_of_ofParts? {significand scale : Nat} {m : Magnitude}
    (made : ofParts? significand scale = some m) : m.units = significand * 2 ^ scale := by
  unfold ofParts? at made
  split at made
  next =>
    cases made
    rfl
  next =>
    split at made
    next carry =>
      cases made
      show 2 ^ 52 * 2 ^ (scale + 1) = significand * 2 ^ scale
      rw [carry.1]
      show 2 ^ 52 * 2 ^ (scale + 1) = 2 ^ 53 * 2 ^ scale
      ring
    next => cases made

/-- What does not lie beyond all magnitudes is one. -/
theorem ofParts?_isSome {significand scale : Nat} (most : significand ≤ 2 ^ 53)
    (normal : twoTo 52 ≤ significand ∨ scale = 0) {m : Magnitude}
    (bounded : significand * 2 ^ scale ≤ m.units) : ∃ n, ofParts? significand scale = some n := by
  rcases Nat.lt_or_eq_of_le most with inside | rfl
  · have within : scale ≤ 2045 := by
      by_contra beyond
      have least : 2 ^ 52 * 2 ^ scale ≤ significand * 2 ^ scale :=
        Nat.mul_le_mul_right _ (normal.resolve_right (by omega))
      rw [← Nat.pow_add] at least
      have less := m.units_lt_two_pow (Nat.lt_of_not_le beyond)
      omega
    exact ⟨_, by rw [ofParts?, dif_pos ⟨inside, within, normal⟩]⟩
  · have within : scale + 1 ≤ 2045 := by
      by_contra beyond
      have same : 2 ^ 53 * 2 ^ scale = 2 ^ (52 + (scale + 1)) := by ring
      have less := m.units_lt_two_pow (Nat.lt_of_not_le beyond)
      omega
    have whole : ¬(2 ^ 53 < twoTo 53 ∧ scale ≤ 2045 ∧ (twoTo 52 ≤ 2 ^ 53 ∨ scale = 0)) :=
      fun all => absurd all.1 (Nat.lt_irrefl _)
    exact ⟨_, by rw [ofParts?, dif_neg whole, dif_pos ⟨rfl, within⟩]⟩

section

variable {m n : Magnitude} {num den : Nat}

theorem rounded_units (m : Magnitude) (pos : 0 < den) : rounded (m.units * den) den = m.units :=
  rounded_exact m.significand_lt pos

/-- What lies between two magnitudes is rounded to something between them. -/
theorem rounded_between (pos : 0 < den) (lower : m.units * den ≤ num)
    (upper : num ≤ n.units * den) : m.units ≤ rounded num den ∧ rounded num den ≤ n.units := by
  constructor
  · rw [← m.rounded_units pos]
    exact rounded_mono pos pos (Nat.mul_le_mul_right _ lower)
  · rw [← n.rounded_units pos]
    exact rounded_mono pos pos (Nat.mul_le_mul_right _ upper)

theorem units_of_ofRatio? (made : ofRatio? num den = some m) :
    m.units = rounded (num * unitsPerOne) den :=
  units_of_ofParts? made

/-- A ratio that is not rounded beyond some magnitude has a magnitude. -/
theorem ofRatio?_isSome (pos : 0 < den) (bounded : rounded (num * unitsPerOne) den ≤ n.units) :
    ∃ m, ofRatio? num den = some m ∧ m.units = rounded (num * unitsPerOne) den := by
  obtain ⟨m, made⟩ := ofParts?_isSome (gridSteps_le pos) (le_gridSteps pos) bounded
  exact ⟨m, made, units_of_ofRatio? made⟩

end

/-- A magnitude is rounded to itself. -/
theorem attracts_units (m : Magnitude) {den : Nat} (pos : 0 < den) :
    m.Attracts (m.units * den) den := by
  have unit : 0 < den * twoTo m.scale := Nat.mul_pos pos (Nat.two_pow_pos _)
  have value : m.units * den = m.significand * (den * twoTo m.scale) := by
    rw [units]
    ring
  rw [value]
  exact ⟨by omega, by omega, .inr (by omega), fun _ _ => by omega⟩

theorem ofRatio?_units (m : Magnitude) : ofRatio? m.units unitsPerOne = some m :=
  (m.attracts_units unitsPerOne_pos).ofParts? unitsPerOne_pos

/-- Magnitudes with the same value are the same. -/
theorem units_injective {m n : Magnitude} (same : m.units = n.units) : m = n := by
  have left := m.ofRatio?_units
  rw [same, n.ofRatio?_units] at left
  exact (Option.some.inj left).symm

end Magnitude

namespace Binary64

/-- Of the numbers with a minus sign only zero is not below zero. -/
theorem nonneg_cases {x : Binary64} (nonneg : le .zero x = true) :
    (∃ m, x = .finite false m) ∨ x = .finite true .zero ∨ x = .infinite false := by
  cases x with
  | notANumber => cases nonneg
  | infinite negative =>
    cases negative with
    | false => exact .inr (.inr rfl)
    | true => cases nonneg
  | finite negative m =>
    cases negative with
    | false => exact .inl ⟨m, rfl⟩
    | true =>
      have below : lt (.finite true m) .zero = false := by
        rw [le_eq_not_lt rfl rfl] at nonneg
        simpa using nonneg
      have none : Magnitude.units .zero = 0 := rfl
      have zero : m.units = Magnitude.units .zero := by
        simp only [lt, Binary64.zero, decide_eq_false_iff_not] at below
        omega
      rw [Magnitude.units_injective zero]
      exact .inr (.inl rfl)

theorem le_finite (m n : Magnitude) :
    le (.finite false m) (.finite false n) = decide (m.units ≤ n.units) := by
  rw [le_eq_not_lt rfl rfl, lt, ← decide_not]
  exact decide_eq_decide.mpr Nat.not_lt

/-- A count of units divided by a number is rounded once. -/
theorem ofUnits_rounded {u den k : Nat} (pos : 0 < den) (small : k ≤ 900)
    (le : u ≤ 2 ^ k * (Magnitude.unitsPerOne * den)) :
    ∃ m, ofUnits false u den = .finite false m ∧ m.units = Magnitude.rounded u den := by
  have product := Nat.mul_pos Magnitude.unitsPerOne_pos pos
  obtain ⟨m, made, _⟩ := Magnitude.ofRatio?_le product small le
  have units := Magnitude.units_of_ofRatio? made
  rw [Nat.mul_comm Magnitude.unitsPerOne, Magnitude.rounded_mul_right Magnitude.unitsPerOne_pos]
    at units
  rcases Nat.eq_zero_or_pos u with rfl | positive
  · have zero := Magnitude.rounded_units .zero pos
    rw [show Magnitude.units .zero = 0 from rfl, Nat.zero_mul] at zero
    exact ⟨.zero, rfl, zero.symm⟩
  · have nonzero : (u : Int) ≠ 0 := by omega
    have sign : decide ((u : Int) < 0) = false := decide_eq_false (by omega)
    rw [ofUnits, if_neg nonzero, sign, Int.natAbs_natCast, ofRatio, made]
    exact ⟨m, rfl, units⟩

/-- Dividing a number by a natural number rounds once. -/
theorem divNat_rounded (m : Magnitude) {den : Nat} (pos : 0 < den) :
    ∃ n, (finite false m).divNat den = .finite false n ∧
      n.units = Magnitude.rounded m.units den := by
  have product := Nat.mul_pos Magnitude.unitsPerOne_pos pos
  have cancel := @Magnitude.rounded_mul_right m.units den _ Magnitude.unitsPerOne_pos
  rw [Nat.mul_comm den] at cancel
  have smaller : Magnitude.rounded m.units den ≤ m.units := by
    calc Magnitude.rounded m.units den ≤ Magnitude.rounded (m.units * den) den :=
          Magnitude.rounded_mono pos pos
            (Nat.mul_le_mul_right _ (Nat.le_mul_of_pos_right _ pos))
      _ = m.units := m.rounded_units pos
  rw [← cancel] at smaller
  obtain ⟨n, made, units⟩ := Magnitude.ofRatio?_isSome product smaller
  rw [cancel] at units
  refine ⟨n, ?_, units⟩
  rw [divNat, ofRatio, made, Option.elim_some]

end Binary64

end RedGreen
