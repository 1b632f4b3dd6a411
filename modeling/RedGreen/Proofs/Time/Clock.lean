import RedGreen.Proofs.Text.Digits
import RedGreen.Proofs.Time.Conversion

/-!
# Durations on a clock

A duration is shown as the nearest whole second, in hours, minutes and seconds.  It is first
measured as a number of seconds, and only that number is rounded to a whole one.  Below `2 ^ 33`
seconds the detour changes nothing: half a second is a number, and every other duration is further
from it than from its own number.
-/

namespace RedGreen

namespace Duration

open Magnitude (unitsPerOne unitsPerOne_pos rounded rounded_exact rounded_near)

/-! ## The nearest second -/

/-- A number of whole seconds that is nearest to a duration; of two, it is the even one. -/
structure RoundsTo (d : Duration) (total : Int) : Prop where
  least : 1000000 * total ≤ d.micros + 500000
  most : d.micros ≤ 1000000 * total + 500000
  tie : d.micros % 1000000 = 500000 → total % 2 = 0

theorem RoundsTo.unique {d : Duration} {a b : Int} (first : d.RoundsTo a) (second : d.RoundsTo b) :
    a = b := by
  obtain ⟨least, most, tie⟩ := first
  obtain ⟨least', most', tie'⟩ := second
  omega

theorem roundHalfEven_tie {n : Nat} (tie : n % 1000000 = 500000) :
    roundHalfEven n 1000000 % 2 = 0 := by
  unfold roundHalfEven
  dsimp only
  split_ifs <;> omega

theorem roundsTo_roundRatioEven (d : Duration) :
    d.RoundsTo (Int.roundRatioEven d.micros 1000000) := by
  cases micros : d.micros with
  | ofNat n =>
    have near := @roundHalfEven_bounds n 1000000 (by decide)
    have even := @roundHalfEven_tie n
    constructor <;> rw [micros, Int.roundRatioEven, Int.ofNat_eq_natCast] <;> omega
  | negSucc n =>
    have near := @roundHalfEven_bounds (n + 1) 1000000 (by decide)
    have even := @roundHalfEven_tie (n + 1)
    constructor <;> rw [micros, Int.roundRatioEven, Int.negSucc_eq] <;> omega

/-- Up to `2 ^ 33` seconds it does not matter that a duration is rounded to a number before that is
rounded to a second. -/
theorem roundHalfEven_rounded {n : Nat} (small : n ≤ 2 ^ 33 * 1000000) :
    roundHalfEven (rounded (n * unitsPerOne) 1000000) unitsPerOne = roundHalfEven n 1000000 := by
  obtain ⟨e, one⟩ := unitsPerOne_fine
  have million : 0 < 1000000 := by decide
  by_cases whole : n % 500000 = 0
  · -- Half seconds are numbers, so nothing is rounded before the ties are broken.
    obtain ⟨halves, rfl⟩ := Nat.dvd_of_mod_eq_zero whole
    have value : 500000 * halves * unitsPerOne = halves * 2 ^ (32 + e) * 1000000 := by
      rw [one]
      ring
    have exact : rounded (500000 * halves * unitsPerOne) 1000000 = halves * 2 ^ (32 + e) := by
      rw [value]
      exact rounded_exact (by omega) million
    have unit : unitsPerOne = 2 * 2 ^ (32 + e) := by
      rw [one]
      ring
    rw [exact, unit, roundHalfEven_mul_right (Nat.two_pow_pos _), Nat.mul_comm 500000]
    exact (@roundHalfEven_mul_right halves 2 500000 (by decide)).symm
  · -- Anything else is a microsecond away from the next tie, which is more than it is rounded by.
    have bits : n * unitsPerOne ≤ 2 ^ (53 + (13 + e)) * 1000000 := by
      calc n * unitsPerOne ≤ 2 ^ 33 * 1000000 * 2 ^ (33 + e) := by
            rw [one]
            exact Nat.mul_le_mul_right _ small
        _ = 2 ^ (53 + (13 + e)) * 1000000 := by ring
    have near := rounded_near million bits
    generalize rounded (n * unitsPerOne) 1000000 = u at near
    have second := @roundHalfEven_bounds n _ million
    generalize roundHalfEven n 1000000 = k at second
    have below : 2 * (k * unitsPerOne) * 1000000 + 2 * unitsPerOne ≤
        2 * (n * unitsPerOne) + 1000000 * unitsPerOne := by
      calc 2 * (k * unitsPerOne) * 1000000 + 2 * unitsPerOne
          = (2 * (k * 1000000) + 2) * unitsPerOne := by ring
        _ ≤ (2 * n + 1000000) * unitsPerOne := Nat.mul_le_mul_right _ (by omega)
        _ = 2 * (n * unitsPerOne) + 1000000 * unitsPerOne := by ring
    have above : 2 * (n * unitsPerOne) + 2 * unitsPerOne ≤
        2 * (k * unitsPerOne) * 1000000 + 1000000 * unitsPerOne := by
      calc 2 * (n * unitsPerOne) + 2 * unitsPerOne = (2 * n + 2) * unitsPerOne := by ring
        _ ≤ (2 * (k * 1000000) + 1000000) * unitsPerOne := Nat.mul_le_mul_right _ (by omega)
        _ = 2 * (k * unitsPerOne) * 1000000 + 1000000 * unitsPerOne := by ring
    have step : unitsPerOne = 1048576 * 2 ^ (13 + e) := by
      rw [one]
      ring
    have positive := Nat.two_pow_pos (13 + e)
    refine roundHalfEven_eq unitsPerOne_pos ?_ ?_ (.inr ⟨?_, ?_⟩) <;> omega

theorem roundEven?_toSeconds {d : Duration} (small : d.micros.natAbs ≤ 2 ^ 33 * 1000000) :
    d.toSeconds.roundEven? = some (Int.roundRatioEven d.micros 1000000) := by
  obtain ⟨m, seconds, _, units⟩ := d.exists_toSeconds
  have nearest := roundHalfEven_rounded small
  rw [← units] at nearest
  rw [seconds]
  cases micros : d.micros with
  | ofNat n =>
    rw [micros] at nearest
    exact congrArg (fun k : Nat => some (k : Int)) nearest
  | negSucc n =>
    have sign : decide (Int.negSucc n < 0) = true := decide_eq_true (Int.negSucc_lt_zero n)
    rw [micros] at nearest
    rw [sign]
    exact congrArg (fun k : Nat => some (-(k : Int))) nearest

/-! ## Hours, minutes and seconds -/

/-- What a text of hours, minutes and seconds names.  Hours are left out when there are none, and
minutes when there are neither hours nor minutes. -/
inductive Names : Text → Int → Int → Int → Prop where
  | hours {h : Int} (some : h ≠ 0) (m s : Int) :
      Names (Text.ofInt h ++ (("h " : Text) ++ (Text.ofInt m ++ (("m " : Text) ++
        (Text.ofInt s ++ ("s" : Text)))))) h m s
  | minutes {m : Int} (some : m ≠ 0) (s : Int) :
      Names (Text.ofInt m ++ (("m " : Text) ++ (Text.ofInt s ++ ("s" : Text)))) 0 m s
  | seconds (s : Int) : Names (Text.ofInt s ++ ("s" : Text)) 0 0 s

theorem names_clockText (total : Int) :
    Names (clockText total) (total / 3600) (total % 3600 / 60) (total % 60) := by
  have hours : total.fdiv 3600 = total / 3600 := Int.fdiv_eq_ediv_of_nonneg total (by decide)
  have remainder : total - total / 3600 * 3600 = total % 3600 := by omega
  have seconds : total % 3600 % 60 = total % 60 := by omega
  simp only [clockText, hours, remainder, seconds]
  split
  next some =>
    simp only [List.append_assoc]
    exact .hours some _ _
  next none =>
    rw [not_not.mp none]
    split
    next some =>
      simp only [List.append_assoc]
      exact .minutes some _
    next none =>
      rw [not_not.mp none]
      exact .seconds _

/-- The letter behind a number tells what it counts. -/
theorem number_injective {i j : Int} {x y : CodePoint} {s t : Text} (letter : x.digit? = none)
    (letter' : y.digit? = none) (same : Text.ofInt i ++ x :: s = Text.ofInt j ++ y :: t) :
    i = j ∧ x = y ∧ s = t := by
  obtain ⟨number, rest⟩ := Text.ofInt_append_injective (Text.endsDigits_cons.mpr letter)
    (Text.endsDigits_cons.mpr letter') same
  exact ⟨number, List.cons.inj rest⟩

/-- Behind its letter and a blank the text goes on. -/
theorem part_injective {i j : Int} {x blank : CodePoint} {s t : Text} (letter : x.digit? = none)
    (same : Text.ofInt i ++ x :: blank :: s = Text.ofInt j ++ x :: blank :: t) :
    i = j ∧ s = t := by
  obtain ⟨number, _, rest⟩ := number_injective letter letter same
  exact ⟨number, (List.cons.inj rest).2⟩

theorem seconds_injective {i j : Int}
    (same : Text.ofInt i ++ ("s" : Text) = Text.ofInt j ++ ("s" : Text)) : i = j :=
  (number_injective (by decide) (by decide) same).1

/-- Numbers in front of different letters make different texts. -/
theorem number_ne {i j : Int} {x y : CodePoint} {s t : Text} (letter : x.digit? = none)
    (letter' : y.digit? = none) (other : x ≠ y) :
    Text.ofInt i ++ x :: s ≠ Text.ofInt j ++ y :: t :=
  fun same => other (number_injective letter letter' same).2.1

theorem Names.unique {t : Text} {h m s h' m' s' : Int} (first : Names t h m s)
    (second : Names t h' m' s') : h = h' ∧ m = m' ∧ s = s' := by
  cases first with
  | hours =>
    generalize same : Text.ofInt h ++ _ = t at second
    cases second with
    | hours =>
      obtain ⟨hours, rest⟩ := part_injective (by decide) same
      obtain ⟨minutes, rest⟩ := part_injective (by decide) rest
      exact ⟨hours, minutes, seconds_injective rest⟩
    | minutes => exact absurd same (number_ne (by decide) (by decide) (by decide))
    | seconds => exact absurd same (number_ne (by decide) (by decide) (by decide))
  | minutes =>
    generalize same : Text.ofInt m ++ _ = t at second
    cases second with
    | hours => exact absurd same (number_ne (by decide) (by decide) (by decide))
    | minutes =>
      obtain ⟨minutes, rest⟩ := part_injective (by decide) same
      exact ⟨rfl, minutes, seconds_injective rest⟩
    | seconds => exact absurd same (number_ne (by decide) (by decide) (by decide))
  | seconds =>
    generalize same : Text.ofInt s ++ _ = t at second
    cases second with
    | hours => exact absurd same (number_ne (by decide) (by decide) (by decide))
    | minutes => exact absurd same (number_ne (by decide) (by decide) (by decide))
    | seconds => exact ⟨rfl, rfl, seconds_injective same⟩

theorem Names.ends {t : Text} {h m s : Int} (names : Names t h m s) :
    ∃ front, t = front ++ ("s" : Text) := by
  cases names with
  | hours =>
    exact ⟨Text.ofInt h ++ (("h " : Text) ++ (Text.ofInt m ++ (("m " : Text) ++ Text.ofInt s))),
      by simp only [List.append_assoc]⟩
  | minutes =>
    exact ⟨Text.ofInt m ++ (("m " : Text) ++ Text.ofInt s), by simp only [List.append_assoc]⟩
  | seconds => exact ⟨Text.ofInt s, rfl⟩

theorem Names.ne_dash {t : Text} {h m s : Int} (names : Names t h m s) : t ≠ "-" := by
  obtain ⟨front, rfl⟩ := names.ends
  intro dash
  have dash : front ++ ("s" : Text) = [] ++ ("-" : Text) := dash
  exact absurd (List.append_inj_right' dash rfl) (by decide)

/-! ## What is shown -/

theorem format_eq_clockText {d : Duration} (small : d.micros.natAbs < 2 ^ 33 * 1000000) :
    format (some d) = clockText (Int.roundRatioEven d.micros 1000000) := by
  rw [format, Option.bind_some, roundEven?_toSeconds (Nat.le_of_lt small), Option.elim_some]

/-- What a duration is shown as names the second to which it rounds, and no other. -/
theorem format_faithful {d : Duration} (small : d.micros.natAbs < 2 ^ 33 * 1000000) :
    ∃ total h m s, (∀ other, d.RoundsTo other ↔ other = total) ∧
      (∀ h' m' s', Names (format (some d)) h' m' s' ↔ h' = h ∧ m' = m ∧ s' = s) ∧
      (0 ≤ m ∧ m < 60) ∧ (0 ≤ s ∧ s < 60) ∧ 3600 * h + 60 * m + s = total ∧
      (∀ e : Duration, e.micros.natAbs < 2 ^ 33 * 1000000 →
        (format (some d) = format (some e) ↔ e.RoundsTo total)) ∧
      format none = "-" ∧ format (some d) ≠ "-" := by
  have rounds := d.roundsTo_roundRatioEven
  have shown := format_eq_clockText small
  generalize Int.roundRatioEven d.micros 1000000 = total at rounds shown
  have names := names_clockText total
  rw [shown]
  refine ⟨total, _, _, _, fun other => ⟨fun found => found.unique rounds, ?_⟩,
    fun h m s => ⟨fun read => read.unique names, ?_⟩, by omega, by omega, by omega, ?_, rfl,
    names.ne_dash⟩
  · rintro rfl
    exact rounds
  · rintro ⟨rfl, rfl, rfl⟩
    exact names
  · intro e near
    have rounds' := e.roundsTo_roundRatioEven
    rw [format_eq_clockText near]
    generalize Int.roundRatioEven e.micros 1000000 = total' at rounds'
    constructor
    · intro same
      -- The text names the same hours, minutes and seconds for both.
      have names' := names_clockText total'
      rw [← same] at names'
      obtain ⟨hours, minutes, seconds⟩ := names.unique names'
      have total_eq : total = total' := by omega
      rwa [total_eq]
    · intro found
      rw [found.unique rounds']

/-- A quarter of an hour and half a second, backwards: the tie goes to the even second, and hours
are counted from below. -/
def backwards : Duration := ⟨-900500000, by decide, by decide⟩

theorem format_faithful_backwards :
    backwards.micros.natAbs < 2 ^ 33 * 1000000 ∧ backwards.RoundsTo (-900) ∧
      ∃ h m s, Names (format (some backwards)) h m s ∧ 3600 * h + 60 * m + s = -900 ∧
        (0 ≤ m ∧ m < 60) ∧ (0 ≤ s ∧ s < 60) ∧
        format (some backwards) = format (some ⟨-899500001, by decide, by decide⟩) := by
  have small : backwards.micros.natAbs < 2 ^ 33 * 1000000 := by decide
  have rounds : backwards.RoundsTo (-900) := ⟨by decide, by decide, by decide⟩
  obtain ⟨total, h, m, s, only, read, minutes, seconds, sum, same, _⟩ := format_faithful small
  obtain rfl := (only (-900)).mp rounds
  refine ⟨small, rounds, h, m, s, (read h m s).mpr ⟨rfl, rfl, rfl⟩, sum, minutes, seconds, ?_⟩
  exact (same _ (by decide)).mpr ⟨by decide, by decide, by decide⟩

example : format (some backwards) = "-1h 45m 0s" := by decide +kernel

end Duration

end RedGreen
