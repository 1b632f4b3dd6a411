import RedGreen.Delivery.Exchange
import RedGreen.Proofs.Json.Characters
import RedGreen.Proofs.Json.Written
import RedGreen.Proofs.Text.Utf8
import RedGreen.Proofs.Validation.Checked

/-!
# Three kinds of outcomes

A request may be tried again, was refused for good, or was taken.  Which of the three it is depends
on the status alone where that says enough, and otherwise on the errors that a well-formed answer
lists.
-/

namespace RedGreen

namespace Encoding

/-- Printable ASCII is taken for UTF-8. -/
theorem decodeUtf8?_encode {t : Text} (plain : t.IsPlain) :
    decodeUtf8? (Utf8.encode t) = some t := by
  induction t with
  | nil => rw [Utf8.encode, List.flatMap_nil, decodeUtf8?]
  | cons c t ih =>
    obtain ⟨visible, rest⟩ := Text.isPlain_cons.mp plain
    have small : c.val < 0x80 := by
      have := visible.2
      omega
    have lead := Utf8.toNat_ofNat_of_lt (n := c.val) (by omega)
    have whole : ∀ bytes, surrogate? (UInt8.ofNat c.val) bytes = none := by
      intro bytes
      have other : UInt8.ofNat c.val ≠ 0xED := by
        intro same
        rw [same] at lead
        have value : (0xED : UInt8).toNat = 0xED := rfl
        omega
      match bytes with
      | [] | [_] => rfl
      | _ :: _ :: _ => rw [surrogate?, if_neg fun all => other all.1]
    have encoded : Utf8.encode (c :: t) = UInt8.ofNat c.val :: Utf8.encode t := by
      rw [Utf8.encode, List.flatMap_cons, Utf8.encodePoint, if_pos small]
      rfl
    have piece : ∀ bytes, Utf8.readPiece (UInt8.ofNat c.val) bytes = .scalar c 0 := by
      intro bytes
      simp only [Utf8.readPiece, lead, small, if_true, CodePoint.ofNat_val]
    rw [encoded, decodeUtf8?, whole, piece]
    simp only [List.drop_zero, ih rest, Option.map_some]

theorem detect_of_visible {bytes : Bytes} (visible : ∀ b ∈ bytes, 0x20 ≤ b.toNat ∧ b.toNat < 0x7F) :
    detect bytes = (.utf8, bytes) := by
  have zero : ∀ b ∈ bytes, b ≠ 0 := by
    rintro b mem rfl
    exact absurd (visible 0 mem).1 (by decide)
  unfold detect
  split
  next => exact absurd rfl (zero 0 List.mem_cons_self)
  next => exact absurd (visible 0xFF List.mem_cons_self).2 (by decide)
  next => exact absurd (visible 0xFE List.mem_cons_self).2 (by decide)
  next => exact absurd (visible 0xFF List.mem_cons_self).2 (by decide)
  next => exact absurd (visible 0xEF List.mem_cons_self).2 (by decide)
  next =>
    split
    next b₀ b₁ b₂ b₃ more _ =>
      simp only [List.forall_mem_cons] at zero
      rw [if_neg zero.1, if_neg zero.2.1]
    next b₀ b₁ _ =>
      simp only [List.forall_mem_cons] at zero
      rw [if_neg zero.1, if_neg zero.2.1]
    next => rfl

theorem decodeDocument?_encode {t : Text} (plain : t.IsPlain) :
    decodeDocument? (Utf8.encode t) = some t := by
  have visible : ∀ b ∈ Utf8.encode t, 0x20 ≤ b.toNat ∧ b.toNat < 0x7F := by
    intro b mem
    obtain ⟨c, among, mem⟩ := List.mem_flatMap.mp mem
    obtain ⟨least, most⟩ := plain c among
    rw [Utf8.encodePoint, if_pos (by omega)] at mem
    rw [List.mem_singleton.mp mem, Utf8.toNat_ofNat_of_lt (by omega)]
    exact ⟨least, most⟩
  rw [decodeDocument?, detect_of_visible visible]
  exact decodeUtf8?_encode plain

end Encoding

namespace Delivery

/-! ## Bodies -/

/-- The value that a body holds, if it holds one. -/
def jsonOf? (body : Bytes) : Option Json :=
  (Encoding.decodeDocument? body).bind fun t => (Json.read t).toOption

/-- Why the reader gives a body up. -/
def readErrorOf? (body : Bytes) : Option Json.ReadError :=
  (Encoding.decodeDocument? body).bind fun t =>
    match Json.read t with
    | .ok _ => none
    | .error e => some e

/-- Not given up because of its depth. -/
def IsShallow (body : Bytes) : Prop := readErrorOf? body ≠ some .tooDeep

instance (body : Bytes) : Decidable (IsShallow body) := inferInstanceAs (Decidable (_ ≠ _))

def objectOf? : Json → Option Json.Members
  | .obj members => some members
  | _ => none

/-- The objects that a member lists, if it is absent, false or a list of objects. -/
def objectsUnder? (name : Text) (document : Json.Members) : Option (List Json.Members) :=
  match document.get? name with
  | none => some []
  | some (.arr items) => items.mapM objectOf?
  | some v => if v.isTruthy then none else some []

/-- The errors that a well-formed answer lists. -/
def errorsOf? (document : Json.Members) : Option (List Json.Members) :=
  (objectsUnder? "successes" document).bind fun _ => objectsUnder? "errors" document

theorem mapM_objectOf? {items : List Json} {objects : List Json.Members}
    (made : items.mapM objectOf? = some objects) : items = objects.map .obj := by
  induction items generalizing objects with
  | nil =>
    cases made
    rfl
  | cons v items ih =>
    rw [List.mapM_cons] at made
    cases v with
    | null | bool _ | int _ | float _ | str _ | arr _ => cases made
    | obj members =>
      cases rest : items.mapM objectOf? with
      | none =>
        rw [rest] at made
        cases made
      | some more =>
        rw [rest] at made
        cases made
        rw [ih rest, List.map_cons]

/-- A well-formed member is listed as its objects. -/
theorem listOf_of_objectsUnder? {name : Text} {document : Json.Members}
    {objects : List Json.Members} (listed : objectsUnder? name document = some objects) :
    Ingestion.Response.listOf ((document.get? name).getD .null) = .ok (objects.map .obj) := by
  rw [objectsUnder?] at listed
  cases member : document.get? name with
  | none =>
    rw [member] at listed
    cases listed
    rfl
  | some v =>
    rw [member] at listed
    unfold Ingestion.Response.listOf
    rw [Option.getD_some]
    cases truthy : v.isTruthy with
    | false =>
      cases v with
      | arr items =>
        cases items with
        | nil =>
          cases listed
          rfl
        | cons v items => cases truthy
      | null | bool _ | int _ | float _ | str _ | obj _ =>
        simp only [truthy, Bool.false_eq_true, if_false, Option.some.injEq] at listed
        subst listed
        rfl
    | true =>
      cases v with
      | arr items =>
        rw [mapM_objectOf? listed]
        rfl
      | null | bool _ | int _ | float _ | str _ | obj _ =>
        simp only [truthy, if_true] at listed
        cases listed

theorem itemsFrom_members (index : Nat) (objects : List Json.Members) :
    Field.itemsFrom Field.members index (objects.map .obj) = .ok objects := by
  induction objects generalizing index with
  | nil => rfl
  | cons members objects ih =>
    rw [List.map_cons, Field.itemsFrom, ih]
    rfl

theorem ofPayload_of_errorsOf? {document : Json.Members} {errors : List Json.Members}
    (listed : errorsOf? document = some errors) : ∃ successes,
      Ingestion.Response.ofPayload (.obj document) = .ok ⟨successes, errors⟩ := by
  obtain ⟨successes, taken, refused⟩ := Option.bind_eq_some_iff.mp listed
  have checked : Ingestion.Response.check (successes.map .obj) (errors.map .obj) =
      .ok ⟨successes, errors⟩ := by
    rw [Ingestion.Response.check, Field.list, Field.list, itemsFrom_members, itemsFrom_members]
    rfl
  refine ⟨successes, ?_⟩
  simp only [Ingestion.Response.ofPayload, listOf_of_objectsUnder? taken,
    listOf_of_objectsUnder? refused, Except.mapError, bind, Except.bind, checked, pure,
    Except.pure]

/-- A well-formed answer that lists no errors names none, or only false ones. -/
theorem isTruthy_of_objectsUnder? {name : Text} {document : Json.Members}
    (listed : objectsUnder? name document = some []) :
    (document.get? name).all fun v => !v.isTruthy := by
  have none := listOf_of_objectsUnder? listed
  rw [objectsUnder?] at listed
  cases member : document.get? name with
  | none => rfl
  | some v =>
    rw [member] at listed
    cases v with
    | arr items =>
      rw [mapM_objectOf? listed]
      rfl
    | null | bool _ | int _ | float _ | str _ | obj _ =>
      simp only at listed
      split at listed
      · cases listed
      · next falsy => simpa using falsy

/-! ## Answers -/

theorem readAnswer_of_jsonOf? {body : Bytes} {v : Json} (held : jsonOf? body = some v)
    {answer : Ingestion.Response} (read : Ingestion.Response.ofPayload v = .ok answer) :
    readAnswer body = .ok answer := by
  obtain ⟨t, decoded, parsed⟩ := Option.bind_eq_some_iff.mp held
  rw [readAnswer, decoded]
  cases value : Json.read t with
  | error e =>
    rw [value] at parsed
    cases parsed
  | ok w =>
    rw [value] at parsed
    cases parsed
    simp only [value, read]

theorem readAnswer_of_no_json {body : Bytes} (held : jsonOf? body = none)
    (shallow : IsShallow body) : readAnswer body = .ok .silent := by
  rw [jsonOf?] at held
  rw [IsShallow, readErrorOf?] at shallow
  rw [readAnswer]
  cases decoded : Encoding.decodeDocument? body with
  | none => rfl
  | some t =>
    rw [decoded, Option.bind_some] at held shallow
    cases value : Json.read t with
    | ok v =>
      rw [value] at held
      cases held
    | error e =>
      cases e with
      | tooDeep =>
        rw [value] at shallow
        exact absurd rfl shallow
      | malformed fault position => simp only [value]
      | tooManyDigits count => simp only [value]

/-- A body on which the reader stops at an integer of too many digits says nothing. -/
theorem readAnswer_of_long {v : Json} {n : Nat} (plain : ∀ t ∈ Json.strings v, t.IsPlain)
    (kept : Json.Kept .line v) (shallow : Json.nesting v ≤ Json.depthLimit)
    (long : Json.longNumeral? v = some n) :
    readAnswer (Utf8.encode (Json.compact .line v)) = .ok .silent := by
  have decoded := Encoding.decodeDocument?_encode
    (Json.isPlain_compact rfl Json.plainNumbers_line plain)
  have read := Json.read_compact kept shallow
  rw [long] at read
  simp only [readAnswer, decoded, read]

/-- The errors that an answer lists, unless it is an object that is not well formed. -/
def reported? (body : Bytes) : Option (List Json.Members) :=
  match jsonOf? body with
  | some (.obj document) => errorsOf? document
  | _ => some []

theorem readAnswer_of_reported? {body : Bytes} (shallow : IsShallow body)
    {errors : List Json.Members} (listed : reported? body = some errors) :
    ∃ successes, readAnswer body = .ok ⟨successes, errors⟩ := by
  rw [reported?] at listed
  cases held : jsonOf? body with
  | none =>
    rw [held] at listed
    cases listed
    exact ⟨[], readAnswer_of_no_json held shallow⟩
  | some v =>
    rw [held] at listed
    cases v with
    | obj document =>
      obtain ⟨successes, read⟩ := ofPayload_of_errorsOf? listed
      exact ⟨successes, readAnswer_of_jsonOf? held read⟩
    | null | bool _ | int _ | float _ | str _ | arr _ =>
      cases listed
      exact ⟨[], readAnswer_of_jsonOf? held rfl⟩

/-! ## Outcomes -/

namespace Exchange

/-- A time-out, a failure of the transport, or a status that may pass. -/
def isRetryable : Exchange → Bool
  | .timedOut _ | .unreachable _ => true
  | .answered status _ => status == 429 || decide (500 ≤ status)
  | .crashed .. => false

/-- Another status from 400 on, or a well-formed answer that lists errors. -/
def isFatal : Exchange → Bool
  | .answered status body =>
    if 400 ≤ status then status != 429 && decide (status < 500)
    else (reported? body).any fun errors => !errors.isEmpty
  | .timedOut _ | .unreachable _ | .crashed .. => false

/-- An answer below 400 that is no object, or a well-formed one that lists no errors. -/
def isGood : Exchange → Bool
  | .answered status body => decide (status < 400) && (reported? body).any List.isEmpty
  | .timedOut _ | .unreachable _ | .crashed .. => false

def IsShallow : Exchange → Prop
  | .answered _ body => Delivery.IsShallow body
  | .timedOut _ | .unreachable _ | .crashed .. => True

end Exchange

theorem judge_of_isRetryable {x : Exchange} (retryable : x.isRetryable = true) :
    ∃ reason, judge x = .ok (.tryAgain reason) := by
  cases x with
  | timedOut message | unreachable message => exact ⟨_, rfl⟩
  | crashed kind message => cases retryable
  | answered status body =>
    have passing : status = 429 ∨ 500 ≤ status := by
      simpa [Exchange.isRetryable] using retryable
    exact ⟨_, if_pos passing⟩

/-- Nothing else is tried again, whatever the answer says. -/
theorem isRetryable_of_judge {x : Exchange} {reason : Text}
    (again : judge x = .ok (.tryAgain reason)) : x.isRetryable = true := by
  cases x with
  | timedOut message | unreachable message => rfl
  | crashed kind message => cases again
  | answered status body =>
    rw [judge, judgeAnswer] at again
    split at again
    next passing => simpa [Exchange.isRetryable] using passing
    next =>
      split at again
      next => cases again
      next =>
        cases read : readAnswer body with
        | error failure =>
          rw [read] at again
          cases again
        | ok answer =>
          simp only [read, Except.map, Except.ok.injEq] at again
          split at again <;> cases again

/-- An answer with a good status is judged by what it says. -/
theorem judge_answered {status : Int} {body : Bytes} (small : status < 400) :
    judge (.answered status body) = (readAnswer body).map fun r =>
      if r.hasErrors then .final (rejectionText r.errors) else .delivered := by
  rw [judge, judgeAnswer, if_neg (by omega), if_neg (by omega)]

theorem judge_of_isFatal {x : Exchange} (fatal : x.isFatal = true) (shallow : x.IsShallow) :
    ∃ reason, judge x = .ok (.final reason) := by
  cases x with
  | timedOut message | unreachable message | crashed kind message => cases fatal
  | answered status body =>
    rw [Exchange.isFatal] at fatal
    by_cases large : 400 ≤ status
    · rw [if_pos large] at fatal
      have refused : status ≠ 429 ∧ status < 500 := by simpa using fatal
      exact ⟨_, by rw [judge, judgeAnswer, if_neg (by omega), if_pos large]⟩
    · rw [if_neg large] at fatal
      cases listed : reported? body with
      | none =>
        rw [listed] at fatal
        cases fatal
      | some errors =>
        rw [listed] at fatal
        obtain ⟨successes, read⟩ := readAnswer_of_reported? shallow listed
        have some : Ingestion.Response.hasErrors ⟨successes, errors⟩ = true := fatal
        rw [judge_answered (Int.not_le.mp large), read]
        exact ⟨_, congrArg Except.ok (if_pos some)⟩

theorem judge_of_isGood {x : Exchange} (good : x.isGood = true) (shallow : x.IsShallow) :
    judge x = .ok .delivered := by
  cases x with
  | timedOut message | unreachable message | crashed kind message => cases good
  | answered status body =>
    obtain ⟨small, empty⟩ := Bool.and_eq_true_iff.mp good
    cases listed : reported? body with
    | none =>
      rw [listed] at empty
      cases empty
    | some errors =>
      rw [listed] at empty
      obtain ⟨successes, read⟩ := readAnswer_of_reported? shallow listed
      have none : ¬Ingestion.Response.hasErrors ⟨successes, errors⟩ = true := by
        rw [Ingestion.Response.hasErrors, Bool.not_eq_true', Bool.not_eq_false]
        exact empty
      rw [judge_answered (of_decide_eq_true small), read]
      exact congrArg Except.ok (if_neg none)

/-- What is judged a delivery is an answer below 400 in which no errors were found. -/
theorem answered_of_judge {x : Exchange} (delivered : judge x = .ok .delivered) :
    ∃ status body answer, x = .answered status body ∧ status < 400 ∧
      readAnswer body = .ok answer ∧ answer.errors = [] := by
  cases x with
  | timedOut message | unreachable message | crashed kind message => cases delivered
  | answered status body =>
    by_cases small : status < 400
    · rw [judge_answered small] at delivered
      cases read : readAnswer body with
      | error failure =>
        rw [read] at delivered
        cases delivered
      | ok answer =>
        rw [read] at delivered
        refine ⟨status, body, answer, rfl, small, read, ?_⟩
        cases errors : answer.errors with
        | nil => rfl
        | cons first more => simp [Except.map, Ingestion.Response.hasErrors, errors] at delivered
    · rw [judge, judgeAnswer] at delivered
      split at delivered
      · cases delivered
      · rw [if_pos (Int.not_lt.mp small)] at delivered
        cases delivered

end Delivery

end RedGreen
