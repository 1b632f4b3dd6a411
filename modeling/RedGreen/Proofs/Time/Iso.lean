import RedGreen.Proofs.Time.Stamps

/-!
# Times told apart by their full form

The full form of a time gives its date, its clock time to the microsecond and its offset to the
second, so no two times share it.  Each number in it ends where its digits do, and a number that is
padded stands for itself alone.
-/

namespace RedGreen

/-- A padded number that ends where its digits end is told by its text. -/
theorem Text.padNat_append_inj {width m n : Nat} {u v : Text} (ends : EndsDigits u)
    (ends' : EndsDigits v) (same : padNat width m ++ u = padNat width n ++ v) : m = n ∧ u = v := by
  obtain ⟨ds, text, digits, value, _⟩ := padNat_digits width m
  obtain ⟨es, text', digits', value', _⟩ := padNat_digits width n
  have spans := spanDigits_ofDigits digits ends
  rw [← text, same, text', spanDigits_ofDigits digits' ends', Prod.mk.injEq] at spans
  exact ⟨by rw [← value, ← value', spans.1], spans.2.symm⟩

namespace DateTime

/-! ## Offsets -/

/-- The seconds of an offset, when there are any. -/
def offsetSeconds (n : Nat) : Text :=
  if n % 60 = 0 then [] else CodePoint.ofChar ':' :: Text.padNat 2 (n % 60)

theorem offsetText_eq (o : Int) : offsetText o = offsetSign o ::
    (Text.padNat 2 (o.natAbs / 3600) ++ (CodePoint.ofChar ':' ::
      (Text.padNat 2 (o.natAbs / 60 % 60) ++ offsetSeconds o.natAbs))) := by
  simp [offsetText, offsetSeconds]

theorem endsDigits_offsetSeconds (n : Nat) : Text.EndsDigits (offsetSeconds n) := by
  rw [offsetSeconds]
  split
  · exact nofun
  · exact Text.endsDigits_cons.mpr (by decide)

theorem offsetSeconds_inj {m n : Nat} (same : offsetSeconds m = offsetSeconds n) :
    m % 60 = n % 60 := by
  rw [offsetSeconds, offsetSeconds] at same
  by_cases whole : m % 60 = 0
  · by_cases whole' : n % 60 = 0
    · rw [whole, whole']
    · rw [if_pos whole, if_neg whole'] at same
      cases same
  · by_cases whole' : n % 60 = 0
    · rw [if_neg whole, if_pos whole'] at same
      cases same
    · rw [if_neg whole, if_neg whole', List.cons.injEq] at same
      have ends : Text.EndsDigits [] := nofun
      have padded : Text.padNat 2 (m % 60) ++ [] = Text.padNat 2 (n % 60) ++ [] := by
        rw [same.2]
      exact (Text.padNat_append_inj ends ends padded).1

theorem offsetSign_inj {o o' : Int} (signs : offsetSign o = offsetSign o')
    (same : o.natAbs = o'.natAbs) : o = o' := by
  have differ : CodePoint.ofChar '-' ≠ CodePoint.ofChar '+' := by decide
  rw [offsetSign, offsetSign] at signs
  split at signs <;> split at signs
  · omega
  · exact absurd signs differ
  · exact absurd signs.symm differ
  · omega

theorem offsetText_inj {o o' : Int} (same : offsetText o = offsetText o') : o = o' := by
  have colon : ∀ t : Text, Text.EndsDigits (CodePoint.ofChar ':' :: t) := fun t =>
    Text.endsDigits_cons.mpr (by decide)
  rw [offsetText_eq, offsetText_eq, List.cons.injEq] at same
  obtain ⟨signs, rest⟩ := same
  obtain ⟨hours, rest⟩ := Text.padNat_append_inj (colon _) (colon _) rest
  obtain ⟨minutes, rest⟩ := Text.padNat_append_inj (endsDigits_offsetSeconds _)
    (endsDigits_offsetSeconds _) (List.cons.inj rest).2
  have seconds := offsetSeconds_inj rest
  exact offsetSign_inj signs (by omega)

/-- What stands behind the clock time. -/
def isoOffset : Option Int → Text
  | none => []
  | some o => offsetText o

theorem isoOffset_inj {offset offset' : Option Int} (same : isoOffset offset = isoOffset offset') :
    offset = offset' := by
  cases offset with
  | none =>
    cases offset' with
    | none => rfl
    | some o' => cases same
  | some o =>
    cases offset' with
    | none => cases same
    | some o' => exact congrArg some (offsetText_inj same)

/-- A sign is no part of a clock time. -/
theorem endsClock_isoOffset (offset : Option Int) : EndsClock (isoOffset offset) := by
  cases offset with
  | none =>
    intro d mem
    cases mem
  | some o =>
    intro d mem
    obtain rfl : offsetSign o = d := Option.some.inj mem
    rw [offsetSign]
    split <;> decide

/-! ## Whole times -/

theorem iso_eq (t : DateTime) : t.iso = dateText t.date ++ (CodePoint.ofChar 'T' ::
    (timeText t.sinceMidnight ++ isoOffset t.offset)) := by
  rw [iso, clockText]
  cases t.offset <;> simp [isoOffset]

/-- Times with the same full form show the same clock time at the same offset. -/
theorem iso_inj {t t' : DateTime} (same : t.iso = t'.iso) : t = t' := by
  rw [iso_eq, iso_eq] at same
  have dates := readDate?_dateText t.date_valid.1 (CodePoint.ofChar 'T' ::
    (timeText t.sinceMidnight ++ isoOffset t.offset))
  rw [same, readDate?_dateText t'.date_valid.1, Option.some.injEq, Prod.mk.injEq] at dates
  obtain ⟨date, rest⟩ := dates
  have clocks := readClock?_timeText t.sinceMidnight_lt (endsClock_isoOffset t.offset)
  rw [← (List.cons.inj rest).2, readClock?_timeText t'.sinceMidnight_lt (endsClock_isoOffset _),
    Option.some.injEq, Prod.mk.injEq] at clocks
  obtain ⟨clock, offset⟩ := clocks
  have whole := ofDate?_date t
  rw [← date, ← clock, ← isoOffset_inj offset, ofDate?_date] at whole
  exact (Option.some.inj whole).symm

end DateTime

end RedGreen
