import RedGreen.Delivery.Publish
import RedGreen.Proofs.Number.Exact

/-!
# Waits between attempts

The wait after a failed attempt is the base doubled as often as there were attempts before, or the
bound if that is less: no rounding comes in between.
-/

namespace RedGreen

namespace Delivery

theorem backoff_eq (d : Settings.Delivery) {attempt : Nat} (first : 1 ≤ attempt)
    (small : attempt ≤ 900) :
    backoff d attempt = some (if Binary64.lt d.backoffMax
        (d.backoffBase.mul (.ofNat (twoTo (attempt - 1)))) then d.backoffMax
      else d.backoffBase.mul (.ofNat (twoTo (attempt - 1)))) := by
  have exponent : ((attempt : Int) - 1).toNat = attempt - 1 := by omega
  rw [backoff, if_neg (by omega), if_neg (by omega), if_pos (by omega), exponent]
  rfl

/-- The wait after an attempt, counted in the least units of a number. -/
theorem units?_backoff {d : Settings.Delivery} {base most attempt : Nat}
    (ofBase : d.backoffBase.units? = some (base : Int))
    (ofMax : d.backoffMax.units? = some (most : Int)) (first : 1 ≤ attempt)
    (small : attempt ≤ 900) :
    ∃ delay, backoff d attempt = some delay ∧
      delay.units? = some ((min (base * 2 ^ (attempt - 1)) most : Nat) : Int) := by
  refine ⟨_, backoff_eq d first small, ?_⟩
  have doubled := Binary64.units?_mul_two_pow (k := attempt - 1) ofBase (by omega)
  generalize d.backoffBase.mul (.ofNat (twoTo (attempt - 1))) = delay at doubled ⊢
  rcases doubled with value | ⟨rfl, beyond⟩
  · rw [Binary64.lt_eq_decide ofMax value]
    by_cases less : (most : Int) < (base * 2 ^ (attempt - 1) : Nat)
    · rw [if_pos (decide_eq_true less), ofMax, Nat.min_eq_right (by omega)]
    · rw [if_neg (by simpa using less), value, Nat.min_eq_left (by omega)]
  · -- A wait beyond all numbers gives way to the bound.
    cases bound : d.backoffMax with
    | notANumber => rw [bound] at ofMax; cases ofMax
    | infinite negative => rw [bound] at ofMax; cases ofMax
    | finite negative m =>
      rw [bound] at ofMax
      have less : most < base * 2 ^ (attempt - 1) := by
        have below := beyond m
        cases negative <;> simp only [Binary64.units?, Option.some.injEq] at ofMax <;> omega
      have beneath : Binary64.lt (.finite negative m) (.infinite false) = true := by
        cases negative <;> rfl
      rw [if_pos beneath, ofMax, Nat.min_eq_right (Nat.le_of_lt less)]

end Delivery

end RedGreen
