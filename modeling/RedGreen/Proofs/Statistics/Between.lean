import RedGreen.Proofs.Statistics.Figures
import RedGreen.Proofs.Time.Conversion

/-!
# Figures between the least and the greatest

The mean and the median of numbers lie between the least and the greatest of them, however they are
rounded, and neither depends on the order of the numbers.
-/

namespace RedGreen

namespace Statistics

/-- A number between two magnitudes. -/
def Between (lo hi : Magnitude) (x : Binary64) : Prop :=
  ∃ m, x = .finite false m ∧ lo.units ≤ m.units ∧ m.units ≤ hi.units

section

variable {lo hi : Magnitude} {xs : List Binary64} {k : Nat}

/-! ## The mean -/

theorem totalUnits_between (inside : ∀ x ∈ xs, Between lo hi x) :
    ∃ total : Nat, totalUnits xs = total ∧ lo.units * xs.length ≤ total ∧
      total ≤ hi.units * xs.length := by
  induction xs with
  | nil => exact ⟨0, rfl, Nat.le_refl 0, Nat.le_refl 0⟩
  | cons x xs ih =>
    obtain ⟨⟨m, rfl, lower, upper⟩, others⟩ := List.forall_mem_cons.mp inside
    obtain ⟨total, sum, least, most⟩ := ih others
    refine ⟨m.units + total, ?_, ?_, ?_⟩
    · have step : totalUnits (.finite false m :: xs) = m.units + totalUnits xs := rfl
      rw [step, sum, Nat.cast_add]
    · rw [List.length_cons, Nat.mul_succ]
      omega
    · rw [List.length_cons, Nat.mul_succ]
      omega

theorem mean_between (inside : ∀ x ∈ xs, Between lo hi x) (nonempty : xs ≠ [])
    (small : k ≤ 900) (bounded : hi.units ≤ 2 ^ k * Magnitude.unitsPerOne) :
    Between lo hi (mean xs) := by
  obtain ⟨total, sum, least, most⟩ := totalUnits_between inside
  have pos : 0 < xs.length := List.length_pos_iff.mpr nonempty
  have range : total ≤ 2 ^ k * (Magnitude.unitsPerOne * xs.length) := by
    rw [← Nat.mul_assoc]
    exact most.trans (Nat.mul_le_mul_right _ bounded)
  obtain ⟨m, made, units⟩ := Binary64.ofUnits_rounded pos small range
  have inside := Magnitude.rounded_between pos least most
  rw [← units] at inside
  exact ⟨m, by rw [mean, sum, made], inside⟩

/-! ## The median -/

/-- Half the sum of two numbers, where both the sum and its half are rounded. -/
theorem half_between {x y : Binary64} (first : Between lo hi x) (second : Between lo hi y)
    (small : k ≤ 800) (bounded : hi.units ≤ 2 ^ k * Magnitude.unitsPerOne) :
    Between lo hi ((x.add y).divNat 2) := by
  obtain ⟨m, rfl, lowerM, upperM⟩ := first
  obtain ⟨n, rfl, lowerN, upperN⟩ := second
  have range : m.units + n.units ≤ 2 ^ (k + 1) * (Magnitude.unitsPerOne * 1) := by
    rw [Nat.pow_succ, Nat.mul_one, Nat.mul_right_comm]
    omega
  obtain ⟨s, sum, units⟩ := Binary64.ofUnits_rounded Nat.one_pos (by omega) range
  have added : (Binary64.finite false m).add (.finite false n) = .finite false s := by
    rw [← sum, Nat.cast_add]
    rfl
  -- Twice a number has the same significant bits, so the sum stays between the doubles.
  have double (p : Magnitude) : Magnitude.rounded (p.units * 2 * 1) 1 = p.units * 2 := by
    have split : p.units * 2 = p.significand * 2 ^ (p.scale + 1) := by
      rw [Magnitude.units, Nat.pow_succ, Nat.mul_assoc]
      rfl
    rw [split]
    exact Magnitude.rounded_exact p.significand_lt Nat.one_pos
  have lower : lo.units * 2 ≤ s.units := by
    rw [units, ← double lo]
    exact Magnitude.rounded_mono Nat.one_pos Nat.one_pos (by omega)
  have upper : s.units ≤ hi.units * 2 := by
    rw [units, ← double hi]
    exact Magnitude.rounded_mono Nat.one_pos Nat.one_pos (by omega)
  obtain ⟨h, halved, units⟩ := Binary64.divNat_rounded s Nat.two_pos
  have inside := Magnitude.rounded_between (by decide) lower upper
  rw [← units] at inside
  exact ⟨h, by rw [added, halved], inside⟩

theorem getD_between (inside : ∀ x ∈ xs, Between lo hi x) {i : Nat} (found : i < xs.length) :
    Between lo hi (xs.getD i .zero) := by
  rw [List.getD_eq_getElem?_getD, List.getElem?_eq_getElem found, Option.getD_some]
  exact inside _ (List.getElem_mem found)

theorem medianOf_between (inside : ∀ x ∈ xs, Between lo hi x) (nonempty : xs ≠ [])
    (small : k ≤ 800) (bounded : hi.units ≤ 2 ^ k * Magnitude.unitsPerOne) :
    Between lo hi (medianOf xs) := by
  have sorted : ∀ x ∈ xs.mergeSort Binary64.le, Between lo hi x := fun x mem =>
    inside x (List.mem_mergeSort.mp mem)
  have length : (xs.mergeSort Binary64.le).length = xs.length := List.length_mergeSort _
  have pos : 0 < xs.length := List.length_pos_iff.mpr nonempty
  rw [medianOf, middle]
  split
  next odd => exact getD_between sorted (by omega)
  next even =>
    exact half_between (getD_between sorted (by omega)) (getD_between sorted (by omega)) small
      bounded

/-! ## Any order -/

theorem totalUnits_perm {ys : List Binary64} (same : xs.Perm ys) :
    totalUnits xs = totalUnits ys := by
  induction same with
  | nil => rfl
  | cons x _ ih =>
    show x.units?.getD 0 + totalUnits _ = x.units?.getD 0 + totalUnits _
    rw [ih]
  | swap x y zs =>
    show y.units?.getD 0 + (x.units?.getD 0 + totalUnits zs) =
      x.units?.getD 0 + (y.units?.getD 0 + totalUnits zs)
    omega
  | trans _ _ first second => exact first.trans second

theorem mean_perm {ys : List Binary64} (same : xs.Perm ys) : mean xs = mean ys := by
  rw [mean, mean, totalUnits_perm same, same.length_eq]

/-- Magnitudes are sorted by their values. -/
def ascending (m n : Magnitude) : Bool := m.units ≤ n.units

theorem mergeSort_perm {ms ns : List Magnitude} (same : ms.Perm ns) :
    ms.mergeSort ascending = ns.mergeSort ascending := by
  have trans (a b c : Magnitude) (ab : ascending a b) (bc : ascending b c) : ascending a c := by
    simp only [ascending, decide_eq_true_eq] at ab bc ⊢
    omega
  have total (a b : Magnitude) : (ascending a b || ascending b a) = true := by
    simp only [ascending, Bool.or_eq_true, decide_eq_true_eq]
    omega
  have antisymm (a b : Magnitude) (ab : ascending a b) (ba : ascending b a) : a = b := by
    simp only [ascending, decide_eq_true_eq] at ab ba
    exact Magnitude.units_injective (Nat.le_antisymm ab ba)
  have rearranged : (ms.mergeSort ascending).Perm (ns.mergeSort ascending) :=
    (List.mergeSort_perm ms _).trans (same.trans (List.mergeSort_perm ns _).symm)
  exact rearranged.eq_of_pairwise (fun a b _ _ => antisymm a b)
    (List.pairwise_mergeSort trans total ms) (List.pairwise_mergeSort trans total ns)

theorem medianOf_perm {ms ns : List Magnitude} (same : ms.Perm ns) :
    medianOf (ms.map (.finite false)) = medianOf (ns.map (.finite false)) := by
  have sorted (ps : List Magnitude) : (ps.map (Binary64.finite false)).mergeSort Binary64.le =
      (ps.mergeSort ascending).map (.finite false) :=
    (List.map_mergeSort fun m _ n _ => (Binary64.le_finite m n).symm).symm
  rw [medianOf, medianOf, sorted, sorted, mergeSort_perm same]

end

end Statistics

end RedGreen
