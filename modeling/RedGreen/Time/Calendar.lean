/-!
# The Gregorian calendar

Days are counted from the first of January 1970.  The conversions go through eras of four
hundred years that begin in March, so that the day a leap year adds comes last.
-/

namespace RedGreen

/-- A day of the proleptic Gregorian calendar. -/
structure Date where
  year : Int
  month : Nat
  day : Nat
  deriving DecidableEq

namespace Date

def isLeapYear (year : Int) : Bool :=
  year % 4 == 0 && (year % 100 != 0 || year % 400 == 0)

def daysInMonth (year : Int) (month : Nat) : Nat :=
  if month = 2 then (if isLeapYear year then 29 else 28)
  else if month = 4 ∨ month = 6 ∨ month = 9 ∨ month = 11 then 30
  else 31

/-- A date that the calendar has, in a year of at most four digits. -/
def IsValid (d : Date) : Prop :=
  0 ≤ d.year ∧ d.year ≤ 9999 ∧ 1 ≤ d.month ∧ d.month ≤ 12 ∧ 1 ≤ d.day ∧
    d.day ≤ daysInMonth d.year d.month

instance (d : Date) : Decidable d.IsValid :=
  inferInstanceAs (Decidable (_ ∧ _ ∧ _ ∧ _ ∧ _ ∧ _))

/-- Days from the first of January 1970 to a date. -/
def toDays (d : Date) : Int :=
  let year : Int := if d.month ≤ 2 then d.year - 1 else d.year
  let era := year.fdiv 400
  let yearOfEra := year - era * 400
  let monthFromMarch : Int := if d.month ≤ 2 then d.month + 9 else d.month - 3
  let dayOfYear := (153 * monthFromMarch + 2) / 5 + d.day - 1
  let dayOfEra := yearOfEra * 365 + yearOfEra / 4 - yearOfEra / 100 + dayOfYear
  era * 146097 + dayOfEra - 719468

/-- The year of an era and the day of that year, from the day of the era.  The last century of
an era and the last year of a group of four may be a day longer than the others. -/
def splitEra (dayOfEra : Int) : Int × Int :=
  let century := min 3 (dayOfEra / 36524)
  let inCentury := dayOfEra - century * 36524
  let group := inCentury / 1461
  let inGroup := inCentury - group * 1461
  let year := min 3 (inGroup / 365)
  (century * 100 + group * 4 + year, inGroup - year * 365)

/-- Month and day from the day of a year that begins in March. -/
def splitYear (dayOfYear : Int) : Nat × Nat :=
  let fromMarch := (5 * dayOfYear + 2) / 153
  let month := if fromMarch < 10 then fromMarch + 3 else fromMarch - 9
  (month.toNat, (dayOfYear - (153 * fromMarch + 2) / 5 + 1).toNat)

/-- The date that many days after the first of January 1970. -/
def ofDays (days : Int) : Date :=
  let shifted := days + 719468
  let era := shifted.fdiv 146097
  let (yearOfEra, dayOfYear) := splitEra (shifted - era * 146097)
  let (month, day) := splitYear dayOfYear
  let year := yearOfEra + era * 400
  ⟨if month ≤ 2 then year + 1 else year, month, day⟩

/-! ## Days and dates are in step -/

theorem splitEra_bounds {d : Int} (h₀ : 0 ≤ d) (h₁ : d < 146097) :
    0 ≤ (splitEra d).1 ∧ (splitEra d).1 ≤ 399 ∧ 0 ≤ (splitEra d).2 ∧ (splitEra d).2 ≤ 365 := by
  simp only [splitEra]
  omega

theorem splitEra_eq {d : Int} (h₀ : 0 ≤ d) (h₁ : d < 146097) :
    (splitEra d).1 * 365 + (splitEra d).1 / 4 - (splitEra d).1 / 100 + (splitEra d).2 = d := by
  simp only [splitEra]
  generalize hc : min 3 (d / 36524) = c
  generalize hg : (d - c * 36524) / 1461 = g
  generalize hy : min 3 ((d - c * 36524 - g * 1461) / 365) = y
  have hc' : 0 ≤ c ∧ c ≤ 3 := by omega
  have hg' : 0 ≤ g ∧ g ≤ 24 := by omega
  have hy' : 0 ≤ y ∧ y ≤ 3 := by omega
  have h4 : (c * 100 + g * 4 + y) / 4 = c * 25 + g := by omega
  have h100 : (c * 100 + g * 4 + y) / 100 = c := by omega
  rw [h4, h100]
  omega

theorem splitYear_eq {d : Int} (h₀ : 0 ≤ d) (h₁ : d ≤ 365) :
    (153 * (if (splitYear d).1 ≤ 2 then ((splitYear d).1 : Int) + 9 else (splitYear d).1 - 3) + 2)
      / 5 + (splitYear d).2 - 1 = d := by
  simp only [splitYear]
  split <;> split <;> omega

theorem toDays_ofDays (days : Int) : (ofDays days).toDays = days := by
  have hera : (days + 719468).fdiv 146097 = (days + 719468) / 146097 :=
    Int.fdiv_eq_ediv_of_nonneg _ (by decide)
  have h₀ : 0 ≤ days + 719468 - (days + 719468) / 146097 * 146097 := by omega
  have h₁ : days + 719468 - (days + 719468) / 146097 * 146097 < 146097 := by omega
  have hb := splitEra_bounds h₀ h₁
  have he := splitEra_eq h₀ h₁
  have hy := splitYear_eq hb.2.2.1 hb.2.2.2
  simp only [ofDays, toDays, hera]
  generalize splitEra (days + 719468 - (days + 719468) / 146097 * 146097) = p at *
  generalize splitYear p.2 = q at *
  have hfd : (p.1 + (days + 719468) / 146097 * 400).fdiv 400 = (days + 719468) / 146097 := by
    rw [Int.fdiv_eq_ediv_of_nonneg _ (by decide)]; omega
  by_cases hm : q.1 ≤ 2
  · simp only [hm, if_true, Int.add_sub_cancel, hfd] at hy ⊢
    omega
  · simp only [hm, if_false, Int.add_sub_cancel, hfd] at hy ⊢
    omega

end Date

end RedGreen
