import RedGreen.Time.DateTime

/-!
# Days are dates of the calendar

Every day from the first of January of the year 1 to the last of December 9999 is a date that the
calendar has.  What needs care is the last day of February: an era gives a year its 366th day, the
one numbered 365, only when the calendar year in which it ends is a leap year.
-/

namespace RedGreen

namespace Date

/-- The year that has a day 365 ends in a leap year. -/
theorem splitEra_leap {d : Int} (lower : 0 ≤ d) (upper : d < 146097)
    (last : (splitEra d).2 = 365) :
    ((splitEra d).1 + 1) % 4 = 0 ∧
      (((splitEra d).1 + 1) % 100 ≠ 0 ∨ ((splitEra d).1 + 1) % 400 = 0) := by
  simp only [splitEra] at last ⊢
  generalize century : min 3 (d / 36524) = c at *
  generalize group : (d - c * 36524) / 1461 = g at *
  generalize year : min 3 ((d - c * 36524 - g * 1461) / 365) = y at *
  have groups : 0 ≤ g ∧ g ≤ 24 := by omega
  have fourth : y = 3 := by omega
  have four : (c * 100 + g * 4 + y + 1) % 4 = 0 := by omega
  refine ⟨four, ?_⟩
  by_cases more : g < 24
  · left
    omega
  · right
    omega

/-- Every month but February, which comes last, has its full length. -/
theorem splitYear_bounds {d : Int} (lower : 0 ≤ d) (upper : d ≤ 365) :
    1 ≤ (splitYear d).1 ∧ (splitYear d).1 ≤ 12 ∧ 1 ≤ (splitYear d).2 ∧
      ((splitYear d).1 = 2 → (splitYear d).2 ≤ 29 ∧ (d ≤ 364 → (splitYear d).2 ≤ 28)) ∧
      ((splitYear d).1 = 4 ∨ (splitYear d).1 = 6 ∨ (splitYear d).1 = 9 ∨ (splitYear d).1 = 11 →
        (splitYear d).2 ≤ 30) ∧ (splitYear d).2 ≤ 31 ∧ ((splitYear d).1 ≤ 2 ↔ 306 ≤ d) := by
  simp only [splitYear]
  split
  · omega
  · omega

theorem ofDays_valid {days : Int} (lower : -719162 ≤ days) (upper : days ≤ 2932896) :
    (ofDays days).IsValid ∧ 1 ≤ (ofDays days).year := by
  have era : (days + 719468).fdiv 146097 = (days + 719468) / 146097 :=
    Int.fdiv_eq_ediv_of_nonneg _ (by decide)
  have least : 0 ≤ days + 719468 - (days + 719468) / 146097 * 146097 := by omega
  have most : days + 719468 - (days + 719468) / 146097 * 146097 < 146097 := by omega
  have bounds := splitEra_bounds least most
  have whole := splitEra_eq least most
  have leap := splitEra_leap least most
  have months := splitYear_bounds bounds.2.2.1 bounds.2.2.2
  simp only [ofDays, IsValid, era]
  generalize splitEra (days + 719468 - (days + 719468) / 146097 * 146097) = p at *
  obtain ⟨yearOfEra, dayOfYear⟩ := p
  dsimp only at *
  generalize splitYear dayOfYear = q at *
  obtain ⟨month, day⟩ := q
  dsimp only at *
  obtain ⟨month_pos, month_le, day_pos, february, short, day_le, winter⟩ := months
  generalize eras : (days + 719468) / 146097 = e at *
  have year_pos : 1 ≤ if month ≤ 2 then yearOfEra + e * 400 + 1 else yearOfEra + e * 400 := by
    split <;> omega
  have year_le : (if month ≤ 2 then yearOfEra + e * 400 + 1 else yearOfEra + e * 400) ≤ 9999 := by
    split <;> omega
  refine ⟨⟨by omega, year_le, month_pos, month_le, day_pos, ?_⟩, year_pos⟩
  rw [daysInMonth]
  split
  next second =>
    subst second
    obtain ⟨long, common⟩ := february rfl
    by_cases last : dayOfYear = 365
    · have isLeap : isLeapYear (yearOfEra + e * 400 + 1) = true := by
        obtain ⟨four, hundred⟩ := leap last
        simp only [isLeapYear, Bool.and_eq_true, Bool.or_eq_true, beq_iff_eq, bne_iff_ne]
        omega
      rw [if_pos (Nat.le_refl 2), isLeap]
      exact long
    · have usual := common (by omega)
      cases isLeapYear (if 2 ≤ 2 then yearOfEra + e * 400 + 1 else yearOfEra + e * 400) with
      | true => exact long
      | false => exact usual
  next =>
    split
    next thirty => exact short thirty
    next => exact day_le

end Date

end RedGreen
