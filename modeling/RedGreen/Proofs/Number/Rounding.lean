import RedGreen.Number.Shortest
import Mathlib.Tactic.Ring
import Mathlib.Tactic.Linarith

/-!
# Rounding inside the interval

`Magnitude.interval` is the set of reals that round to a magnitude: every ratio inside it is
rounded to that magnitude by `ofRatio?`.  The binade below has half the gap, so a ratio just below
a power of two is rounded on the finer grid, up to a significand of `2 ^ 53`, and carried over.
-/

namespace RedGreen

/-- A number at most half a unit from a ratio is the nearest one, when it wins the ties. -/
theorem roundHalfEven_eq {num den n : Nat} (pos : 0 < den)
    (lower : 2 * (n * den) ≤ 2 * num + den) (upper : 2 * num ≤ 2 * (n * den) + den)
    (ties : n % 2 = 0 ∨ 2 * (n * den) < 2 * num + den ∧ 2 * num < 2 * (n * den) + den) :
    roundHalfEven num den = n := by
  have split : num / den * den + num % den = num := Nat.div_add_mod' num den
  have small : num % den < den := Nat.mod_lt num pos
  have near : n = num / den ∨ n = num / den + 1 := by
    have above : n * den < (num / den + 2) * den := by
      rw [Nat.add_mul]
      omega
    have below : num / den * den < (n + 1) * den := by
      rw [Nat.add_mul]
      omega
    have above := Nat.lt_of_mul_lt_mul_right above
    have below := Nat.lt_of_mul_lt_mul_right below
    omega
  unfold roundHalfEven
  rcases near with same | next
  · rw [same] at lower upper ties ⊢
    have half : 2 * (num % den) ≤ den := by omega
    dsimp only
    split_ifs <;> omega
  · rw [next] at lower upper ties ⊢
    rw [Nat.add_mul] at lower upper ties
    have half : den ≤ 2 * (num % den) := by omega
    dsimp only
    split_ifs <;> omega

/-- The nearest number is at most half a unit away. -/
theorem roundHalfEven_bounds {num den : Nat} (pos : 0 < den) :
    2 * num ≤ 2 * (roundHalfEven num den * den) + den ∧
      2 * (roundHalfEven num den * den) ≤ 2 * num + den := by
  have split : num / den * den + num % den = num := Nat.div_add_mod' num den
  have small : num % den < den := Nat.mod_lt num pos
  unfold roundHalfEven
  dsimp only
  split_ifs <;> (try rw [Nat.add_mul]) <;> omega

namespace Magnitude

theorem unitsPerOne_pos : 0 < unitsPerOne := by decide +kernel

theorem ofParts?_self (m : Magnitude) : ofParts? m.significand m.scale = some m := by
  rw [ofParts?, dif_pos ⟨m.significand_lt, m.scale_le, m.normal⟩]

/-- A significand of `2 ^ 53` is carried over to the next scale. -/
theorem ofParts?_carry {m : Magnitude} {scale : Nat} (least : m.significand = twoTo 52)
    (next : m.scale = scale + 1) : ofParts? (twoTo 53) scale = some m := by
  have bound := m.scale_le
  rw [ofParts?, dif_neg (by simp), dif_pos ⟨rfl, by omega⟩]
  simp only [Option.some.injEq]
  exact Magnitude.ext least.symm next.symm

/-- What it means, without divisions, that `num / den` least units round to a magnitude. -/
structure Attracts (m : Magnitude) (num den : Nat) : Prop where
  lower : 2 * (m.significand * (den * twoTo m.scale)) ≤ 2 * num + den * twoTo m.scale
  upper : 2 * num ≤ 2 * (m.significand * (den * twoTo m.scale)) + den * twoTo m.scale
  ties : m.significand % 2 = 0 ∨
    2 * (m.significand * (den * twoTo m.scale)) < 2 * num + den * twoTo m.scale ∧
      2 * num < 2 * (m.significand * (den * twoTo m.scale)) + den * twoTo m.scale
  /-- Below a power of two the gap is half as large. -/
  binade : m.significand = twoTo 52 → 0 < m.scale →
    4 * (m.significand * (den * twoTo m.scale)) ≤ 4 * num + den * twoTo m.scale

theorem attracts_of_contains {m : Magnitude} {num den : Nat}
    (inside : m.interval.contains (4 * num) den = true) : m.Attracts num den := by
  have units : 4 * m.units * den = 4 * (m.significand * (den * twoTo m.scale)) := by
    rw [Magnitude.units]
    ring
  have gap : twoTo m.scale * den = den * twoTo m.scale := Nat.mul_comm _ _
  have gaps : 2 * twoTo m.scale * den = 2 * (den * twoTo m.scale) := by rw [Nat.mul_assoc, gap]
  by_cases even : m.significand % 2 = 0
  · simp only [Interval.contains, interval, even, decide_true, if_true, Bool.and_eq_true,
      decide_eq_true_eq, Nat.sub_mul, Nat.add_mul, units, gaps] at inside
    split_ifs at inside with least
    · exact ⟨by omega, by omega, .inl even, fun _ _ => by omega⟩
    · exact ⟨by omega, by omega, .inl even, fun half pos => absurd ⟨half, pos⟩ least⟩
  · have odd : m.significand ≠ twoTo 52 := by
      intro least
      rw [least] at even
      exact even rfl
    simp only [Interval.contains, interval, even, odd, decide_false, Bool.false_eq_true, if_false,
      false_and, Bool.and_eq_true, decide_eq_true_eq, Nat.sub_mul, Nat.add_mul, units,
      gaps] at inside
    exact ⟨by omega, by omega, .inr (by omega), fun half => absurd half odd⟩

theorem log2_div {num den k : Nat} (pos : 0 < den) (lower : 2 ^ k * den ≤ num)
    (upper : num < 2 ^ (k + 1) * den) : (num / den).log2 = k := by
  have least : 2 ^ k ≤ num / den := (Nat.le_div_iff_mul_le pos).mpr lower
  have nonzero : num / den ≠ 0 := by
    have := Nat.two_pow_pos k
    omega
  exact (Nat.log2_eq_iff nonzero).mpr ⟨least, (Nat.div_lt_iff_lt_mul pos).mpr upper⟩

theorem Attracts.below_limit {m : Magnitude} {num den : Nat} (h : m.Attracts num den)
    (pos : 0 < den) : num < 2 ^ 53 * (den * twoTo m.scale) := by
  have unit : 0 < den * twoTo m.scale := Nat.mul_pos pos (Nat.two_pow_pos _)
  have most : m.significand * (den * twoTo m.scale) ≤ (2 ^ 53 - 1) * (den * twoTo m.scale) :=
    Nat.mul_le_mul_right _ (Nat.le_pred_of_lt m.significand_lt)
  have upper := h.upper
  omega

/-- Rounding on the grid of the magnitude itself. -/
theorem Attracts.round {m : Magnitude} {num den : Nat} (h : m.Attracts num den) (pos : 0 < den) :
    roundHalfEven num (den * twoTo m.scale) = m.significand :=
  roundHalfEven_eq (Nat.mul_pos pos (Nat.two_pow_pos _)) h.lower h.upper h.ties

theorem two_pow_add_mul (den a b : Nat) : 2 ^ (a + b) * den = 2 ^ a * (den * twoTo b) := by
  show 2 ^ (a + b) * den = 2 ^ a * (den * 2 ^ b)
  ring

/-- On the finest grid nothing is shifted away. -/
theorem Attracts.ofParts?_fine {m : Magnitude} {num den : Nat} (h : m.Attracts num den)
    (pos : 0 < den) (fine : m.scale = 0) :
    ofParts? (roundHalfEven num (den * twoTo ((num / den).log2 + 1 - 53)))
      ((num / den).log2 + 1 - 53) = some m := by
  have limit := h.below_limit pos
  rw [fine] at limit
  have upper : num / den < 2 ^ 53 := (Nat.div_lt_iff_lt_mul pos).mpr (by simpa using limit)
  have small : (num / den).log2 + 1 - 53 = 0 := by
    rcases Nat.eq_zero_or_pos (num / den) with none | some
    · rw [none]
      rfl
    · have := (Nat.log2_lt (by omega)).mpr upper
      omega
  have round := h.round pos
  have whole := ofParts?_self m
  rw [fine] at round whole
  rw [small, round, whole]

theorem Attracts.ofParts?_aligned {m : Magnitude} {num den : Nat} (h : m.Attracts num den)
    (pos : 0 < den) (aligned : 2 ^ 52 * (den * twoTo m.scale) ≤ num) :
    ofParts? (roundHalfEven num (den * twoTo ((num / den).log2 + 1 - 53)))
      ((num / den).log2 + 1 - 53) = some m := by
  have same : (num / den).log2 = 52 + m.scale := by
    refine log2_div pos ?_ ?_
    · rwa [two_pow_add_mul]
    · rw [Nat.add_right_comm, two_pow_add_mul]
      exact h.below_limit pos
  have scale : (num / den).log2 + 1 - 53 = m.scale := by omega
  rw [scale, h.round pos, ofParts?_self]

/-- Just below a power of two the ratio is rounded on the grid of the binade below, and carried
back. -/
theorem Attracts.ofParts?_below {m : Magnitude} {num den : Nat} (h : m.Attracts num den)
    (pos : 0 < den) (coarse : m.scale ≠ 0) (below : ¬2 ^ 52 * (den * twoTo m.scale) ≤ num) :
    ofParts? (roundHalfEven num (den * twoTo ((num / den).log2 + 1 - 53)))
      ((num / den).log2 + 1 - 53) = some m := by
  have unit : 0 < den * twoTo m.scale := Nat.mul_pos pos (Nat.two_pow_pos _)
  have least : m.significand = twoTo 52 := by
    have normal := m.normal.resolve_right coarse
    by_contra differs
    have more : (2 ^ 52 + 1) * (den * twoTo m.scale) ≤ m.significand * (den * twoTo m.scale) :=
      Nat.mul_le_mul_right _ (Nat.lt_of_le_of_ne normal (Ne.symm differs))
    have lower := h.lower
    omega
  have binade := h.binade least (by omega)
  obtain ⟨k, next⟩ := Nat.exists_eq_succ_of_ne_zero coarse
  -- From here on everything is counted in steps of the finer grid, which are half as wide.
  have double : den * twoTo m.scale = 2 * (den * twoTo k) := by
    rw [next, Nat.succ_eq_add_one]
    show den * 2 ^ (k + 1) = 2 * (den * 2 ^ k)
    ring
  rw [double] at below binade
  rw [least] at binade
  have pow : twoTo 52 = 2 ^ 52 := rfl
  have pow' : twoTo 53 = 2 ^ 53 := rfl
  rw [pow] at binade
  have same : (num / den).log2 = 52 + k := by
    refine log2_div pos ?_ ?_
    · rw [two_pow_add_mul]
      omega
    · rw [Nat.add_right_comm, two_pow_add_mul]
      omega
  have scale : (num / den).log2 + 1 - 53 = k := by omega
  have round : roundHalfEven num (den * twoTo k) = twoTo 53 := by
    refine roundHalfEven_eq (Nat.mul_pos pos (Nat.two_pow_pos _)) ?_ ?_ (.inl (by decide))
    · rw [pow']
      omega
    · rw [pow']
      omega
  rw [scale, round, ofParts?_carry least next]

theorem Attracts.ofParts? {m : Magnitude} {num den : Nat} (h : m.Attracts num den)
    (pos : 0 < den) :
    ofParts? (roundHalfEven num (den * twoTo ((num / den).log2 + 1 - 53)))
      ((num / den).log2 + 1 - 53) = some m := by
  by_cases fine : m.scale = 0
  · exact h.ofParts?_fine pos fine
  by_cases aligned : 2 ^ 52 * (den * twoTo m.scale) ≤ num
  · exact h.ofParts?_aligned pos aligned
  · exact h.ofParts?_below pos fine aligned

/-- A ratio inside the interval of a magnitude is rounded to it. -/
theorem ofRatio?_of_contains {m : Magnitude} {num den : Nat} (pos : 0 < den)
    (inside : m.interval.contains (4 * (num * unitsPerOne)) den = true) :
    ofRatio? num den = some m :=
  (attracts_of_contains inside).ofParts? pos

end Magnitude

end RedGreen
