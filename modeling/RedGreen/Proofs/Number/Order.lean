import RedGreen.Proofs.Number.Bounds

/-!
# The order of binary floating point numbers

Where neither side is a NaN, one number is at most another exactly when the other is not below it.
A sum of finite numbers may be infinite, but it is never a NaN.
-/

namespace RedGreen

namespace Binary64

theorem lt_asymm {x y : Binary64} (below : lt x y = true) : lt y x = false := by
  cases x with
  | notANumber => cases below
  | infinite s =>
    cases y with
    | notANumber => cases s <;> cases below
    | infinite t => cases s <;> cases t <;> simp_all [lt]
    | finite t n => cases s <;> simp_all [lt]
  | finite s m =>
    cases y with
    | notANumber => cases below
    | infinite t => cases t <;> simp_all [lt]
    | finite t n =>
      cases s <;> cases t <;> simp only [lt, decide_eq_true_eq, decide_eq_false_iff_not,
        Bool.false_eq_true] at below ⊢
      · omega
      · omega

theorem le_eq_not_lt {x y : Binary64} (left : x.isNaN = false) (right : y.isNaN = false) :
    le x y = !lt y x := by
  rw [le, equals, left, right]
  by_cases below : lt x y = true
  · rw [below, lt_asymm below]
    rfl
  · simp [below]

theorem isNaN_of_isFinite {x : Binary64} (finite : x.isFinite = true) : x.isNaN = false := by
  cases x with
  | finite s m => rfl
  | infinite s => rfl
  | notANumber => cases finite

theorem isNaN_ofRatio (negative : Bool) (num den : Nat) :
    (ofRatio negative num den).isNaN = false := by
  rw [ofRatio]
  cases Magnitude.ofRatio? num den <;> rfl

theorem isNaN_ofUnits (zeroNegative : Bool) (units : Int) (den : Nat) :
    (ofUnits zeroNegative units den).isNaN = false := by
  rw [ofUnits]
  split
  · rfl
  · exact isNaN_ofRatio _ _ _

theorem isNaN_add {x y : Binary64} (left : x.isFinite = true) (right : y.isFinite = true) :
    (x.add y).isNaN = false := by
  cases x with
  | finite s m =>
    cases y with
    | finite t n => exact isNaN_ofUnits _ _ _
    | infinite t => cases right
    | notANumber => cases right
  | infinite s => cases left
  | notANumber => cases left

end Binary64

end RedGreen
