import RedGreen.Json.Printer
import RedGreen.Json.Reader

/-!
# Strings read back

A quoted text reads back as the text of which it was made.  On one line, where only control
characters are escaped, this holds for every text.  In documents, where everything but printable
ASCII is escaped, a high half directly in front of a low half would be read back as one
character, so it holds for the texts without such a pair, `Text.Joinless`.
-/

namespace RedGreen

namespace CodePoint

theorem eq_ofChar_iff {c : CodePoint} {k : Char} : c = ofChar k ↔ c.val = k.toNat := by
  simp [CodePoint.ext_iff, ofChar]

theorem hexDigit?_hexDigit {n : Nat} (h : n < 16) : (hexDigit n).hexDigit? = some n := by
  have all : ∀ n < 16, (hexDigit n).hexDigit? = some n := by decide
  exact all n h

end CodePoint

/-- No high half of a surrogate pair stands directly in front of a low half. -/
def Text.Joinless : Text → Prop
  | c :: d :: t => ¬ (Json.isHighHalf c.val = true ∧ Json.isLowHalf d.val = true) ∧
      Text.Joinless (d :: t)
  | _ => True

theorem Text.Joinless.tail {c : CodePoint} {t : Text} (joinless : Text.Joinless (c :: t)) :
    t.Joinless := by
  cases t with
  | nil => trivial
  | cons d t => exact joinless.2

theorem Text.IsScalar.joinless {t : Text} (scalar : t.IsScalar) : t.Joinless := by
  induction t with
  | nil => trivial
  | cons c t ih =>
    have rest := ih fun d mem => scalar d (List.mem_cons_of_mem c mem)
    cases t with
    | nil => trivial
    | cons d t =>
      refine ⟨fun halves => ?_, rest⟩
      have plain := scalar c (by simp)
      simp only [CodePoint.IsScalar] at plain
      simp only [Json.isHighHalf, Bool.and_eq_true, decide_eq_true_eq] at halves
      omega

namespace Json

/-- A style keeps a text when its quoted form reads back as the text. -/
def Style.KeepsText (s : Style) (t : Text) : Prop :=
  ∀ (opening fuel : Nat) (rest : Text),
    (t.flatMap s.escape ++ CodePoint.ofChar '"' :: rest).length ≤ fuel →
      readString opening fuel (t.flatMap s.escape ++ CodePoint.ofChar '"' :: rest) = .ok (t, rest)

/-! ## Escapes -/

theorem hex_four (n : Nat) :
    Text.hex 4 n = [CodePoint.hexDigit (n / 16 / 16 / 16 % 16),
      CodePoint.hexDigit (n / 16 / 16 % 16), CodePoint.hexDigit (n / 16 % 16),
      CodePoint.hexDigit (n % 16)] := by
  simp [Text.hex]

theorem readHex4?_hex {n : Nat} (h : n < 0x10000) (u : Text) :
    readHex4? (Text.hex 4 n ++ u) = some (n, u) := by
  have digit (k : Nat) : (CodePoint.hexDigit (k % 16)).hexDigit? = some (k % 16) :=
    CodePoint.hexDigit?_hexDigit (by omega)
  rw [hex_four]
  simp only [List.cons_append, List.nil_append, readHex4?, digit, Option.some.injEq, Prod.mk.injEq,
    and_true]
  omega

theorem length_hex_four_append (n : Nat) (u : Text) :
    (Text.hex 4 n ++ u).length = u.length + 4 := by
  rw [hex_four]
  simp

theorem readUnicodeEscape_hex {n : Nat} (h : n < 0x10000) {u : Text} (more : u ≠ []) :
    readUnicodeEscape (Text.hex 4 n ++ u) =
      if isHighHalf n then
        match pairedHalf? u with
        | .error e => .error e
        | .ok (some (low, rest)) => .ok (joinHalves n low, rest)
        | .ok none => .ok (.ofNat n, u)
      else .ok (.ofNat n, u) := by
  have room : ¬(Text.hex 4 n ++ u).length ≤ 4 := by
    have positive := List.length_pos_iff.mpr more
    rw [length_hex_four_append]
    omega
  rcases paired : pairedHalf? u with fault | _ | ⟨low, rest⟩ <;>
    simp only [readUnicodeEscape, room, readHex4?_hex h, paired, if_false]

theorem readString_backslash_u (opening fuel : Nat) (u : Text) :
    readString opening (fuel + 1) (CodePoint.ofChar '\\' :: CodePoint.ofChar 'u' :: u) =
      match readUnicodeEscape u with
      | .error stop => .error stop
      | .ok (point, rest) => (readString opening fuel rest).map fun r => (point :: r.1, r.2) := by
  rw [readString.eq_def]
  rfl

theorem readString_plainEscape {e c : CodePoint} (notUnit : e ≠ CodePoint.ofChar 'u')
    (plain : plainEscape? e = some c) (opening fuel : Nat) (u : Text) :
    readString opening (fuel + 1) (CodePoint.ofChar '\\' :: e :: u) =
      (readString opening fuel u).map fun r => (c :: r.1, r.2) := by
  have quote : CodePoint.ofChar '\\' ≠ CodePoint.ofChar '"' := by decide
  simp only [readString, quote, if_false, if_true, notUnit, plain]

/-- A character that is neither a quote nor a backslash nor a control character stands for
itself. -/
theorem readString_self {c : CodePoint} (quote : c ≠ CodePoint.ofChar '"')
    (backslash : c ≠ CodePoint.ofChar '\\') (printable : 0x20 ≤ c.val) (opening fuel : Nat)
    (u : Text) :
    readString opening (fuel + 1) (c :: u) =
      (readString opening fuel u).map fun r => (c :: r.1, r.2) := by
  have control : ¬ c.val ≤ 0x1F := by omega
  simp only [readString, quote, backslash, control, if_false]

theorem readString_unitEscape {n : Nat} (h : n < 0x10000) {u : Text} (more : u ≠ [])
    (unpaired : isHighHalf n = true → pairedHalf? u = .ok none) (opening fuel : Nat) :
    readString opening (fuel + 1) (unitEscape n ++ u) =
      (readString opening fuel u).map fun r => (CodePoint.ofNat n :: r.1, r.2) := by
  have escape : unitEscape n ++ u =
      CodePoint.ofChar '\\' :: CodePoint.ofChar 'u' :: (Text.hex 4 n ++ u) := rfl
  rw [escape, readString_backslash_u, readUnicodeEscape_hex h more]
  -- Only behind a high half does the reader look for another escape.
  by_cases high : isHighHalf n = true
  · simp [high, unpaired high]
  · simp [high]

theorem pairedHalf?_unitEscape {n : Nat} (h : n < 0x10000) {u : Text} (more : u ≠ []) :
    pairedHalf? (unitEscape n ++ u) = .ok (if isLowHalf n then some (n, u) else none) := by
  have positive := List.length_pos_iff.mpr more
  have escape : unitEscape n ++ u =
      CodePoint.ofChar '\\' :: CodePoint.ofChar 'u' :: (Text.hex 4 n ++ u) := rfl
  have long : 4 < (Text.hex 4 n ++ u).length := by rw [length_hex_four_append]; omega
  rw [escape, pairedHalf?, if_pos ⟨rfl, rfl, long⟩, readHex4?_hex h]

theorem pairedHalf?_of_head {c : CodePoint} (u : Text) (h : c ≠ CodePoint.ofChar '\\') :
    pairedHalf? (c :: u) = .ok none := by
  cases u <;> simp [pairedHalf?, h]

/-- A character beyond U+FFFF is the pair of its halves. -/
theorem readString_pair {c : CodePoint} (h : 0x10000 ≤ c.val) {u : Text} (more : u ≠ [])
    (opening fuel : Nat) :
    readString opening (fuel + 1) (unitEscape (0xD800 + (c.val - 0x10000) / 0x400) ++
        unitEscape (0xDC00 + (c.val - 0x10000) % 0x400) ++ u) =
      (readString opening fuel u).map fun r => (c :: r.1, r.2) := by
  have bound := c.isLt
  have high : isHighHalf (0xD800 + (c.val - 0x10000) / 0x400) = true := by
    simp only [isHighHalf, Bool.and_eq_true, decide_eq_true_eq]
    omega
  have low : isLowHalf (0xDC00 + (c.val - 0x10000) % 0x400) = true := by
    simp only [isLowHalf, Bool.and_eq_true, decide_eq_true_eq]
    omega
  have joined : joinHalves (0xD800 + (c.val - 0x10000) / 0x400)
      (0xDC00 + (c.val - 0x10000) % 0x400) = c := by
    have number : 0x10000 + (0xD800 + (c.val - 0x10000) / 0x400 - 0xD800) * 0x400 +
        (0xDC00 + (c.val - 0x10000) % 0x400 - 0xDC00) = c.val := by omega
    rw [joinHalves, number, CodePoint.ofNat_val]
  have escape (n : Nat) (t : Text) : unitEscape n ++ t =
      CodePoint.ofChar '\\' :: CodePoint.ofChar 'u' :: (Text.hex 4 n ++ t) := rfl
  rw [List.append_assoc, escape, readString_backslash_u,
    readUnicodeEscape_hex (by omega) (by simp [escape]), if_pos high,
    pairedHalf?_unitEscape (by omega) more, if_pos low]
  simp [joined]

/-! ## Characters in both styles -/

theorem commonEscape?_eq_some {c : CodePoint} {t : Text} (h : commonEscape? c = some t) :
    ∃ e, t = [CodePoint.ofChar '\\', e] ∧ e ≠ CodePoint.ofChar 'u' ∧ plainEscape? e = some c := by
  unfold commonEscape? at h
  -- One case for each escaped character; its escape begins with a backslash.
  repeat' split at h
  all_goals try contradiction
  all_goals
    cases h
    refine ⟨_, rfl, by decide, ?_⟩
  · subst_vars; rfl
  · subst_vars; rfl
  all_goals
    rename_i value
    have self := CodePoint.ofNat_val c
    rw [value] at self
    rw [← self]
    decide

theorem commonEscape?_eq_none {c : CodePoint} (h : commonEscape? c = none) :
    c ≠ CodePoint.ofChar '"' ∧ c ≠ CodePoint.ofChar '\\' := by
  refine ⟨?_, ?_⟩
  all_goals
    rintro rfl
    contradiction

theorem readString_commonEscape {c : CodePoint} {t : Text} (h : commonEscape? c = some t)
    (opening fuel : Nat) (u : Text) :
    readString opening (fuel + 1) (t ++ u) =
      (readString opening fuel u).map fun r => (c :: r.1, r.2) := by
  obtain ⟨e, rfl, notUnit, plain⟩ := commonEscape?_eq_some h
  exact readString_plainEscape notUnit plain opening fuel u

theorem readString_escapeRaw (c : CodePoint) {u : Text} (more : u ≠ []) (opening fuel : Nat) :
    readString opening (fuel + 1) (escapeRaw c ++ u) =
      (readString opening fuel u).map fun r => (c :: r.1, r.2) := by
  rw [escapeRaw]
  cases escape : commonEscape? c with
  | some t => exact readString_commonEscape escape opening fuel u
  | none =>
    obtain ⟨quote, backslash⟩ := commonEscape?_eq_none escape
    by_cases control : c.val < 0x20
    -- A control character is no half of a pair.
    · have unpaired : isHighHalf c.val = true → pairedHalf? u = .ok none := by
        intro high
        simp only [isHighHalf, Bool.and_eq_true, decide_eq_true_eq] at high
        omega
      simp only [if_pos control]
      rw [readString_unitEscape (by omega) more unpaired, CodePoint.ofNat_val]
    · simp only [if_neg control]
      exact readString_self quote backslash (by omega) opening fuel u

theorem readString_escapeAscii {c : CodePoint} {u : Text} (more : u ≠ [])
    (unpaired : isHighHalf c.val = true → pairedHalf? u = .ok none) (opening fuel : Nat) :
    readString opening (fuel + 1) (escapeAscii c ++ u) =
      (readString opening fuel u).map fun r => (c :: r.1, r.2) := by
  rw [escapeAscii]
  cases escape : commonEscape? c with
  | some t => exact readString_commonEscape escape opening fuel u
  | none =>
    obtain ⟨quote, backslash⟩ := commonEscape?_eq_none escape
    by_cases plain : 0x20 ≤ c.val ∧ c.val ≤ 0x7E
    · simp only [if_pos plain]
      exact readString_self quote backslash plain.1 opening fuel u
    · by_cases short : c.val < 0x10000
      · simp only [if_neg plain, if_pos short]
        rw [readString_unitEscape short more unpaired, CodePoint.ofNat_val]
      · simp only [if_neg plain, if_neg short]
        exact readString_pair (by omega) more opening fuel

/-- What follows a high half in a document is not read as its other half. -/
theorem pairedHalf?_escapeAscii {d : CodePoint} (single : isLowHalf d.val = false) {u : Text}
    (more : u ≠ []) : pairedHalf? (escapeAscii d ++ u) = .ok none := by
  rw [escapeAscii]
  cases escape : commonEscape? d with
  | some t =>
    obtain ⟨e, rfl, notUnit, -⟩ := commonEscape?_eq_some escape
    simp [pairedHalf?, notUnit]
  | none =>
    by_cases plain : 0x20 ≤ d.val ∧ d.val ≤ 0x7E
    · simp only [if_pos plain]
      exact pairedHalf?_of_head u (commonEscape?_eq_none escape).2
    · by_cases short : d.val < 0x10000
      · simp only [if_neg plain, if_pos short]
        simp [pairedHalf?_unitEscape short more, single]
      · have bound := d.isLt
        -- Two halves are written, and the first of them is a high one.
        have high : isLowHalf (0xD800 + (d.val - 0x10000) / 0x400) = false := by
          simp only [isLowHalf, Bool.and_eq_false_iff, decide_eq_false_iff_not]
          omega
        simp only [if_neg plain, if_neg short]
        rw [List.append_assoc,
          pairedHalf?_unitEscape (by omega) (by simp [unitEscape, Text.ofString]), high]
        rfl

/-! ## Texts in both styles -/

theorem escapeRaw_ne_nil (c : CodePoint) : escapeRaw c ≠ [] := by
  rw [escapeRaw]
  cases escape : commonEscape? c with
  | some t =>
    obtain ⟨e, rfl, -⟩ := commonEscape?_eq_some escape
    simp
  | none => dsimp only; split <;> simp [unitEscape, Text.ofString]

theorem escapeAscii_ne_nil (c : CodePoint) : escapeAscii c ≠ [] := by
  rw [escapeAscii]
  cases escape : commonEscape? c with
  | some t =>
    obtain ⟨e, rfl, -⟩ := commonEscape?_eq_some escape
    simp
  | none => dsimp only; repeat' split <;> simp [unitEscape, Text.ofString]

theorem keepsText_line (t : Text) : Style.line.KeepsText t := by
  intro opening fuel rest enough
  simp only [Style.line] at enough ⊢
  induction t generalizing fuel with
  | nil =>
    cases fuel with
    | zero => simp at enough
    | succ fuel => simp [readString]
  | cons c t ih =>
    have nonempty := List.length_pos_iff.mpr (escapeRaw_ne_nil c)
    simp only [List.flatMap_cons, List.append_assoc, List.length_append] at enough ⊢
    cases fuel with
    | zero => omega
    | succ fuel =>
      have tail := ih fuel (by simp only [List.length_append]; omega)
      rw [readString_escapeRaw c (by simp), tail]
      rfl

theorem keepsText_document {t : Text} (joinless : t.Joinless) : Style.document.KeepsText t := by
  intro opening fuel rest enough
  simp only [Style.document] at enough ⊢
  induction t generalizing fuel with
  | nil =>
    cases fuel with
    | zero => simp at enough
    | succ fuel => simp [readString]
  | cons c t ih =>
    have nonempty := List.length_pos_iff.mpr (escapeAscii_ne_nil c)
    -- What stands behind a high half is not written as a low half.
    have unpaired : isHighHalf c.val = true →
        pairedHalf? (t.flatMap escapeAscii ++ CodePoint.ofChar '"' :: rest) = .ok none := by
      intro high
      cases t with
      | nil => exact pairedHalf?_of_head rest (by decide)
      | cons d t =>
        rw [List.flatMap_cons, List.append_assoc]
        refine pairedHalf?_escapeAscii ?_ (by simp)
        simpa [high] using joinless.1
    simp only [List.flatMap_cons, List.append_assoc, List.length_append] at enough ⊢
    cases fuel with
    | zero => omega
    | succ fuel =>
      have tail := ih joinless.tail fuel (by simp only [List.length_append]; omega)
      rw [readString_escapeAscii (by simp) unpaired, tail]
      rfl

end Json

end RedGreen
