import RedGreen.Text.Utf8

/-!
# Encoded text read back

The bytes of a text of scalar values decode to that text, strictly and lossily.  Lossy decoding
also comes apart at every line feed, whatever bytes stand before it: a line feed continues no
encoded character, so a torn one in front of it ends there as it would at the end of the bytes.
-/

namespace RedGreen

namespace Utf8

/-! ## Single characters -/

theorem secondAllowed_iff {b₁ b₂ : UInt8} :
    secondAllowed b₁ b₂ = true ↔
      (0x80 ≤ b₂.toNat ∧ b₂.toNat ≤ 0xBF) ∧ (b₁.toNat = 0xE0 → 0xA0 ≤ b₂.toNat) ∧
        (b₁.toNat = 0xED → b₂.toNat < 0xA0) ∧ (b₁.toNat = 0xF0 → 0x90 ≤ b₂.toNat) ∧
        (b₁.toNat = 0xF4 → b₂.toNat < 0x90) := by
  simp only [secondAllowed, isContinuation, Bool.and_eq_true, decide_eq_true_eq, Bool.not_eq_true',
    Bool.and_eq_false_iff, beq_eq_false_iff_ne, decide_eq_false_iff_not]
  omega

theorem isContinuation_iff {b : UInt8} :
    isContinuation b = true ↔ 0x80 ≤ b.toNat ∧ b.toNat ≤ 0xBF := by
  simp [isContinuation]

theorem toNat_ofNat_of_lt {n : Nat} (h : n < 256) : (UInt8.ofNat n).toNat = n := by
  simp
  omega

/-- Some bytes that encode a code point and are read as one piece. -/
def IsPiece (c : CodePoint) (rest : Bytes) : Prop :=
  ∃ b more, encodePoint c = b :: more ∧ readPiece b (more ++ rest) = .scalar c more.length

section

variable {c : CodePoint} (rest : Bytes)

theorem isPiece_one (one : c.val < 0x80) : IsPiece c rest := by
  have lead := toNat_ofNat_of_lt (n := c.val) (by omega)
  refine ⟨UInt8.ofNat c.val, [], by simp [encodePoint, one], ?_⟩
  simp only [readPiece, lead, one, if_true, CodePoint.ofNat_val, List.length_nil]

theorem isPiece_two (one : ¬c.val < 0x80) (two : c.val < 0x800) : IsPiece c rest := by
  have lead := toNat_ofNat_of_lt (n := 0xC0 + c.val / 64) (by omega)
  have low := toNat_ofNat_of_lt (n := 0x80 + c.val % 64) (by omega)
  have sum : (0xC0 + c.val / 64) % 32 * 64 + (0x80 + c.val % 64) % 64 = c.val := by omega
  have second : secondAllowed (UInt8.ofNat (0xC0 + c.val / 64))
      (UInt8.ofNat (0x80 + c.val % 64)) = true := by
    rw [secondAllowed_iff, lead, low]
    omega
  refine ⟨UInt8.ofNat (0xC0 + c.val / 64), [UInt8.ofNat (0x80 + c.val % 64)],
    by simp [encodePoint, one, two], ?_⟩
  simp only [readPiece, lead, List.cons_append, second, low6, low, sum, CodePoint.ofNat_val]
  rw [if_neg (by omega), if_neg (by omega), if_pos (by omega)]
  rfl

theorem isPiece_three (scalar : c.IsScalar) (two : ¬c.val < 0x800) (three : c.val < 0x10000) :
    IsPiece c rest := by
  simp only [CodePoint.IsScalar] at scalar
  have one : ¬c.val < 0x80 := by omega
  have lead := toNat_ofNat_of_lt (n := 0xE0 + c.val / 4096) (by omega)
  have mid := toNat_ofNat_of_lt (n := 0x80 + c.val / 64 % 64) (by omega)
  have low := toNat_ofNat_of_lt (n := 0x80 + c.val % 64) (by omega)
  have sum : (0xE0 + c.val / 4096) % 16 * 4096 + (0x80 + c.val / 64 % 64) % 64 * 64 +
      (0x80 + c.val % 64) % 64 = c.val := by omega
  -- The second byte is the one that keeps surrogates and overlong forms out.
  have second : secondAllowed (UInt8.ofNat (0xE0 + c.val / 4096))
      (UInt8.ofNat (0x80 + c.val / 64 % 64)) = true := by
    rw [secondAllowed_iff, lead, mid]
    omega
  have third : isContinuation (UInt8.ofNat (0x80 + c.val % 64)) = true := by
    rw [isContinuation_iff, low]
    omega
  refine ⟨UInt8.ofNat (0xE0 + c.val / 4096),
    [UInt8.ofNat (0x80 + c.val / 64 % 64), UInt8.ofNat (0x80 + c.val % 64)],
    by simp [encodePoint, one, two, three], ?_⟩
  simp only [readPiece, lead, List.cons_append, second, third, low6, mid, low, sum,
    CodePoint.ofNat_val]
  rw [if_neg (by omega), if_neg (by omega), if_neg (by omega), if_pos (by omega)]
  rfl

theorem isPiece_four (three : ¬c.val < 0x10000) : IsPiece c rest := by
  have bound := c.isLt
  have one : ¬c.val < 0x80 := by omega
  have two : ¬c.val < 0x800 := by omega
  have lead := toNat_ofNat_of_lt (n := 0xF0 + c.val / 262144) (by omega)
  have high := toNat_ofNat_of_lt (n := 0x80 + c.val / 4096 % 64) (by omega)
  have mid := toNat_ofNat_of_lt (n := 0x80 + c.val / 64 % 64) (by omega)
  have low := toNat_ofNat_of_lt (n := 0x80 + c.val % 64) (by omega)
  have sum : (0xF0 + c.val / 262144) % 8 * 262144 + (0x80 + c.val / 4096 % 64) % 64 * 4096 +
      (0x80 + c.val / 64 % 64) % 64 * 64 + (0x80 + c.val % 64) % 64 = c.val := by omega
  have second : secondAllowed (UInt8.ofNat (0xF0 + c.val / 262144))
      (UInt8.ofNat (0x80 + c.val / 4096 % 64)) = true := by
    rw [secondAllowed_iff, lead, high]
    omega
  have third : isContinuation (UInt8.ofNat (0x80 + c.val / 64 % 64)) = true := by
    rw [isContinuation_iff, mid]
    omega
  have fourth : isContinuation (UInt8.ofNat (0x80 + c.val % 64)) = true := by
    rw [isContinuation_iff, low]
    omega
  refine ⟨UInt8.ofNat (0xF0 + c.val / 262144),
    [UInt8.ofNat (0x80 + c.val / 4096 % 64), UInt8.ofNat (0x80 + c.val / 64 % 64),
      UInt8.ofNat (0x80 + c.val % 64)],
    by simp [encodePoint, one, two, three], ?_⟩
  simp only [readPiece, lead, List.cons_append, second, third, fourth, low6, high, mid, low,
    sum, CodePoint.ofNat_val]
  rw [if_neg (by omega), if_neg (by omega), if_neg (by omega), if_neg (by omega),
    if_pos (by omega)]
  rfl

end

theorem isPiece {c : CodePoint} (scalar : c.IsScalar) (rest : Bytes) : IsPiece c rest := by
  by_cases one : c.val < 0x80
  · exact isPiece_one rest one
  by_cases two : c.val < 0x800
  · exact isPiece_two rest one two
  by_cases three : c.val < 0x10000
  · exact isPiece_three rest scalar two three
  · exact isPiece_four rest three

/-! ## Texts -/

theorem decodeLossy_cons (b : UInt8) (rest : Bytes) :
    decodeLossy (b :: rest) =
      match readPiece b rest with
      | .scalar c more => c :: decodeLossy (rest.drop more)
      | .malformed _ more => .replacement :: decodeLossy (rest.drop more) := by
  cases piece : readPiece b rest <;> simp only [decodeLossy, piece]

theorem decodeLossy_encodePoint_append {c : CodePoint} (scalar : c.IsScalar) (rest : Bytes) :
    decodeLossy (encodePoint c ++ rest) = c :: decodeLossy rest := by
  obtain ⟨b, more, encoded, piece⟩ := isPiece scalar rest
  rw [encoded, List.cons_append, decodeLossy_cons, piece]
  simp

theorem decodeLossy_encode_append {t : Text} (scalar : t.IsScalar) (rest : Bytes) :
    decodeLossy (encode t ++ rest) = t ++ decodeLossy rest := by
  induction t with
  | nil => rfl
  | cons c t ih =>
    have tail : Text.IsScalar t := fun d mem => scalar d (List.mem_cons_of_mem c mem)
    have head : c.IsScalar := scalar c (by simp)
    simp only [encode, List.flatMap_cons, List.append_assoc] at ih ⊢
    rw [decodeLossy_encodePoint_append head, ih tail]
    rfl

theorem decodeFrom_encode {t : Text} (scalar : t.IsScalar) (position : Nat) :
    decodeFrom position (encode t) = .ok t := by
  -- The position only tells where a fault is, so it may be any.
  induction t generalizing position with
  | nil => simp [encode, decodeFrom]
  | cons c t ih =>
    have tail : Text.IsScalar t := fun d mem => scalar d (List.mem_cons_of_mem c mem)
    obtain ⟨b, more, encoded, piece⟩ :=
      isPiece (scalar c (by simp)) (t.flatMap encodePoint)
    have rest := ih tail (position + 1 + more.length)
    simp only [encode, List.flatMap_cons] at rest ⊢
    rw [encoded, List.cons_append, decodeFrom, piece]
    simp [rest]

/-- Strict decoding gives back the text of which the bytes were made. -/
theorem decode_encode {t : Text} (scalar : t.IsScalar) : decode (encode t) = .ok t :=
  decodeFrom_encode scalar 0

/-! ## What is decoded -/

theorem isScalar_ofNat {n : Nat} (outside : n < 0xD800 ∨ 0xDFFF < n) :
    (CodePoint.ofNat n).IsScalar := by
  rw [CodePoint.ofNat]
  split
  · exact outside
  · exact .inr (by decide)

/-- No piece is a half of a surrogate pair. -/
theorem isScalar_of_readPiece {b : UInt8} {rest : Bytes} {c : CodePoint} {more : Nat}
    (piece : readPiece b rest = .scalar c more) : c.IsScalar := by
  unfold readPiece at piece
  dsimp only at piece
  repeat' split at piece
  all_goals try contradiction
  -- One case for each number of bytes; what the second byte may be keeps the halves out.
  all_goals
    simp only [Piece.scalar.injEq, Bool.not_eq_true', Bool.not_eq_false, low6, secondAllowed_iff,
      isContinuation_iff] at *
    rw [← piece.1]
    exact isScalar_ofNat (by omega)

theorem isScalar_of_decodeFrom {position : Nat} {bytes : Bytes} {t : Text}
    (decoded : decodeFrom position bytes = .ok t) : t.IsScalar := by
  induction length : bytes.length using Nat.strongRecOn generalizing position bytes t with
  | ind n ih =>
    cases bytes with
    | nil =>
      rw [decodeFrom] at decoded
      cases decoded
      exact List.forall_mem_nil _
    | cons b rest =>
      rw [decodeFrom] at decoded
      split at decoded
      next c more piece =>
        split at decoded
        next t others =>
          cases decoded
          have fewer : (rest.drop more).length < n := by
            rw [← length, List.length_drop, List.length_cons]
            omega
          exact List.forall_mem_cons.mpr
            ⟨isScalar_of_readPiece piece, ih _ fewer others rfl⟩
        next => cases decoded
      next => cases decoded

/-- Strict decoding gives scalar values alone. -/
theorem isScalar_of_decode {bytes : Bytes} {t : Text} (decoded : decode bytes = .ok t) :
    t.IsScalar := isScalar_of_decodeFrom decoded

/-- Lossy decoding too, as it leaves no half of a surrogate pair. -/
theorem isScalar_decodeLossy (bytes : Bytes) : (decodeLossy bytes).IsScalar := by
  fun_induction decodeLossy bytes with
  | case1 => exact List.forall_mem_nil _
  | case2 b rest c more piece ih =>
    exact List.forall_mem_cons.mpr ⟨isScalar_of_readPiece piece, ih⟩
  | case3 b rest cause more piece ih => exact List.forall_mem_cons.mpr ⟨.inr (by decide), ih⟩

/-! ## Line feeds -/

/-- The character of the byte that ends a line. -/
def lineFeedPoint : CodePoint := .ofNat 10

theorem secondAllowed_lineFeed (b : UInt8) : secondAllowed b 10 = false := by
  simp [secondAllowed, isContinuation]

theorem isContinuation_lineFeed : isContinuation 10 = false := by decide

/-- What a piece stands for, and how many further bytes belong to it. -/
def Piece.shape : Piece → CodePoint × Nat
  | .scalar c more => (c, more)
  | .malformed _ more => (.replacement, more)

theorem decodeLossy_cons_shape (b : UInt8) (rest : Bytes) :
    decodeLossy (b :: rest) =
      (readPiece b rest).shape.1 :: decodeLossy (rest.drop (readPiece b rest).shape.2) := by
  rw [decodeLossy_cons]
  cases readPiece b rest <;> rfl

/-- A line feed behind the bytes ends a piece where the end of the bytes would. -/
theorem shape_readPiece_lineFeed (b : UInt8) (rest more : Bytes) :
    (readPiece b (rest ++ 10 :: more)).shape = (readPiece b rest).shape := by
  rcases rest with _ | ⟨b₂, _ | ⟨b₃, _ | ⟨b₄, rest⟩⟩⟩
  -- The piece looks at three further bytes; how many of them stand in front of the line feed?
  · rcases more with _ | ⟨m₁, _ | ⟨m₂, more⟩⟩
    all_goals
      simp only [readPiece, List.nil_append, secondAllowed_lineFeed, Bool.not_false, if_true,
        Bool.false_eq_true, if_false]
      repeat' split
      all_goals rfl
  · rcases more with _ | ⟨m₁, more⟩
    all_goals
      simp only [readPiece, List.cons_append, List.nil_append, isContinuation_lineFeed,
        Bool.false_eq_true, Bool.not_false, if_true, if_false]
      cases secondAllowed b b₂
      all_goals
        repeat' split
        all_goals first | rfl | contradiction
  · simp only [readPiece, List.cons_append, List.nil_append, isContinuation_lineFeed,
      Bool.false_eq_true, if_false]
    cases secondAllowed b b₂
    all_goals
      cases isContinuation b₃
      all_goals
        repeat' split
        all_goals first | rfl | contradiction
  · rfl

theorem shape_readPiece_le (b : UInt8) (rest : Bytes) :
    (readPiece b rest).shape.2 ≤ rest.length := by
  rcases rest with _ | ⟨b₂, _ | ⟨b₃, _ | ⟨b₄, rest⟩⟩⟩
  all_goals
    simp only [readPiece]
    repeat' split
    all_goals
      simp only [Piece.shape, List.length_nil, List.length_cons]
      omega

/-- Lossy decoding comes apart at a line feed. -/
theorem decodeLossy_append_lineFeed (a b : Bytes) :
    decodeLossy (a ++ 10 :: b) = decodeLossy a ++ lineFeedPoint :: decodeLossy b := by
  -- By induction on the number of bytes, as one piece takes up to four of them.
  induction length : a.length using Nat.strongRecOn generalizing a with
  | ind n ih =>
    cases a with
    | nil =>
      rw [List.nil_append, decodeLossy_cons]
      simp [readPiece, decodeLossy, lineFeedPoint]
    | cons x rest =>
      have fits := shape_readPiece_le x rest
      rw [List.cons_append, decodeLossy_cons_shape, decodeLossy_cons_shape x rest,
        shape_readPiece_lineFeed, List.drop_append_of_le_length fits, List.cons_append]
      congr 1
      refine ih _ ?_ _ rfl
      rw [← length, List.length_drop, List.length_cons]
      omega

end Utf8

end RedGreen
