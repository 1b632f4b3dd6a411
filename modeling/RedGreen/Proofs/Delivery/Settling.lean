import RedGreen.Proofs.Delivery.Publishing

/-!
# Answers that are settled

Publishing bears with an answer that is no JSON or says something else than a list of errors, and
then the breaker hears of it once.  Two kinds of answers with a good status escape it all the same:
a body that is nested too deeply to be read, and an object with a number or `true` in place of one
of its lists.  Then publishing has no result and the breaker hears nothing.
-/

namespace RedGreen

namespace Delivery

/-! ## Answers that can be read -/

/-- A value that can be listed, or stands for no items. -/
def isListable : Json → Bool
  | .arr _ | .str _ | .obj _ => true
  | v => !v.isTruthy

/-- A body that is not too deep, and no object with a member that cannot be listed in place of one
of the lists. -/
def IsReadable (body : Bytes) : Prop :=
  IsShallow body ∧ ∀ document : Json.Members, jsonOf? body = some (.obj document) →
    ∀ name ∈ (["successes", "errors"] : List Text),
      isListable ((document.get? name).getD .null) = true

theorem listOf_isOk_iff {v : Json} :
    (∃ items, Ingestion.Response.listOf v = .ok items) ↔ isListable v = true := by
  unfold Ingestion.Response.listOf
  cases truthy : v.isTruthy <;> cases v <;> simp_all [isListable]

/-- An object is taken for an answer when both of its lists can be listed; whether their items are
objects makes no difference. -/
theorem ofPayload_notListable_iff {document : Json.Members} :
    (∃ kind, Ingestion.Response.ofPayload (.obj document) = .error (.notListable kind)) ↔
      ¬∀ name ∈ (["successes", "errors"] : List Text),
        isListable ((document.get? name).getD .null) = true := by
  rw [List.forall_mem_cons, List.forall_mem_singleton, ← listOf_isOk_iff, ← listOf_isOk_iff]
  simp only [Ingestion.Response.ofPayload, bind, Except.bind]
  cases Ingestion.Response.listOf ((document.get? "successes").getD .null) with
  | error kind => simp [Except.mapError]
  | ok successes =>
    cases Ingestion.Response.listOf ((document.get? "errors").getD .null) with
    | error kind => simp [Except.mapError]
    | ok errors =>
      simp only [Except.mapError]
      cases Ingestion.Response.check successes errors <;> simp [pure, Except.pure]

theorem readAnswer_isOk_iff {body : Bytes} :
    (∃ answer, readAnswer body = .ok answer) ↔ IsReadable body := by
  simp only [IsReadable, IsShallow, readErrorOf?, jsonOf?, readAnswer]
  cases Encoding.decodeDocument? body with
  | none => simp
  | some t =>
    simp only [Option.bind_some]
    cases Json.read t with
    | error e => cases e <;> simp [Except.toOption]
    | ok v =>
      simp only [Except.toOption, Option.some.injEq, ne_eq, reduceCtorEq, not_false_eq_true,
        true_and]
      cases v with
      | obj document =>
        simp only [Json.obj.injEq, forall_eq']
        rw [← not_iff_not, ← ofPayload_notListable_iff]
        cases Ingestion.Response.ofPayload (.obj document) with
        | ok answer => simp
        | error e => cases e <;> simp
      | null | bool | int | float | str | arr => simp [Ingestion.Response.ofPayload]

/-- An answer is judged by its status alone from 400 on, and else when its body can be read. -/
def IsJudged (status : Int) (body : Bytes) : Prop := 400 ≤ status ∨ IsReadable body

theorem judge_isOk_iff {status : Int} {body : Bytes} :
    (∃ verdict, judge (.answered status body) = .ok verdict) ↔ IsJudged status body := by
  rw [IsJudged]
  by_cases large : 400 ≤ status
  · simp only [large, true_or, iff_true, judge, judgeAnswer]
    by_cases passing : status = 429 ∨ 500 ≤ status <;> simp [passing]
  · rw [judge_answered (Int.not_le.mp large), ← readAnswer_isOk_iff]
    cases readAnswer body <;> simp [large, Except.map]

/-! ## Whole runs -/

/-- A run of `n` requests has a result, and the breaker heard of it once. -/
inductive Settled (d : Settings.Delivery) (clock : Binary64) (circuit : Disk.File) (n : Nat)
    (run : Run) : Prop where
  | delivered (result : run.result = .ok ⟨true, n, .delivered, none⟩)
      (told : Circuit.recordSuccess circuit = .ok run.circuit)
  | failed {reason : Text} (result : run.result = .ok ⟨false, n, .failed, some reason⟩)
      (told : Circuit.recordFailure d.circuit clock circuit = .ok run.circuit)

/-- A run without a result, of which the breaker did not hear. -/
structure Escaped (circuit : Disk.File) (failure : Failure) (run : Run) : Prop where
  result : run.result = .error failure
  untold : run.circuit = circuit

theorem Sent.settled {d : Settings.Delivery} {clock : Binary64} {circuit : Disk.File}
    {exchange : Nat → Exchange} {request : Request} {n : Nat} {run : Run} {verdict : Verdict}
    (sent : Sent d clock circuit exchange request n run)
    (judged : judge (exchange (n - 1)) = .ok verdict) : Settled d clock circuit n run := by
  cases verdict with
  | delivered =>
    obtain ⟨result, told⟩ := sent.delivered judged
    exact .delivered result told
  | tryAgain reason =>
    obtain ⟨result, told⟩ := sent.failed reason (.inl judged)
    exact .failed result told
  | final reason =>
    obtain ⟨result, told⟩ := sent.failed reason (.inr judged)
    exact .failed result told

/-- Whatever the backend answers, the run settles or escapes by the last answer that was waited
for: the first that is not to be tried again, or the last one allowed. -/
theorem publish_settles_iff {s : Settings} {now : DateTime} {id : Text} {clock : Binary64}
    {circuit : Disk.File} {r : Record} (delivers : s.delivers = true)
    (accepted : s.delivery.IsAccepted) (usable : s.backend.IsUsable)
    (encodable : id.IsScalar) (unicode : r.IsUnicode) (short : r.HasShortIntegers)
    (closed : Circuit.allow clock circuit = .ok true) (status : Nat → Int) (body : Nat → Bytes) :
    ∃ request n run, requestFor s now id r = .ok request ∧
      n = requestCount s.delivery.maxAttempts.toNat (fun i => .answered (status i) (body i)) ∧
      run = publish s now id clock circuit (fun i => .answered (status i) (body i)) r ∧
      run.requests = List.replicate n request ∧
      (Settled s.delivery clock circuit n run ↔ IsJudged (status (n - 1)) (body (n - 1))) ∧
      (¬IsJudged (status (n - 1)) (body (n - 1)) → ∃ failure, Escaped circuit failure run) := by
  obtain ⟨request, made⟩ := requestFor_eq usable now encodable unicode short
  obtain ⟨n, sent⟩ := send_sent (d := s.delivery) closed
    (fun i => .answered (status i) (body i)) r.commitHash request
  have attempts := accepted.maxAttempts
  have last : 1 + (s.delivery.maxAttempts.toNat - 1) = s.delivery.maxAttempts.toNat := by omega
  have stops := sent.stops
  rw [last] at stops
  have number := stops.unique (stopsAt_requestCount (by omega) _)
  refine ⟨request, n, _, made, number,
    (publish_of_request delivers closed made).symm, sent.requests, ?_, fun escapes => ?_⟩
  · rw [← judge_isOk_iff]
    constructor
    · intro settled
      cases judged : judge (.answered (status (n - 1)) (body (n - 1))) with
      | ok verdict => exact ⟨verdict, rfl⟩
      | error failure =>
        -- A run that breaks off has no result.
        have result := (sent.brokenOff failure judged).1
        cases settled with
        | delivered done | failed done =>
          rw [done] at result
          cases result
    · rintro ⟨verdict, judged⟩
      exact sent.settled judged
  · rw [← judge_isOk_iff, not_exists] at escapes
    cases judged : judge (.answered (status (n - 1)) (body (n - 1))) with
    | ok verdict => exact absurd judged (escapes verdict)
    | error failure =>
      obtain ⟨result, untold⟩ := sent.brokenOff failure judged
      exact ⟨failure, result, untold⟩

def sampleStatus (i : Nat) : Int := if i = 0 then 503 else 200

def sampleBody (i : Nat) : Bytes :=
  if i = 0 then [] else Utf8.encode (Json.compact .line successDocument)

/-- A status that passes, and an answer that lists one success. -/
theorem publish_settles_iff_sample : ∃ request run,
    run = publish sampleSettings Record.sample.loggedAt "e" .zero sampleCircuit
      (fun i => .answered (sampleStatus i) (sampleBody i)) Record.sample ∧
    run.requests = [request, request] ∧
    Settled sampleSettings.delivery .zero sampleCircuit 2 run := by
  have judged : judge (.answered (sampleStatus 1) (sampleBody 1)) = .ok .delivered :=
    judge_of_isGood (x := successAnswer) (by decide +kernel) isOrdinary_successAnswer.shallow
  obtain ⟨request, n, run, _, number, published, requests, settles, _⟩ :=
    publish_settles_iff delivers_sampleSettings isAccepted_sampleSettings isUsable_sampleSettings
      (by decide : Text.IsScalar "e") isUnicode_sample hasShortIntegers_sample closed_sampleCircuit
      sampleStatus sampleBody
  have two : requestCount 3 (fun i => .answered (sampleStatus i) (sampleBody i)) = 2 := by decide
  obtain rfl : n = 2 := number.trans two
  exact ⟨request, run, published, requests, settles.mpr (judge_isOk_iff.mp ⟨_, judged⟩)⟩

/-- A number in place of the list of errors. -/
def numberAnswer : Exchange := okAnswer (.obj [("errors", .int 5)])

/-- A body that opens one list more than can be nested. -/
def deepAnswer : Exchange := .answered 200 (List.replicate 986 0x5B)

/-- Two answers with a good status of which publishing makes nothing: there is no result, and the
breaker still counts the failures that it counted before. -/
theorem answers_escape :
    (sampleSettings.delivers = true ∧ Circuit.allow .zero failedCircuit = .ok true ∧
      Circuit.load failedCircuit = .ok ⟨4, .zero⟩) ∧
    ((sampleRun failedCircuit (fun _ => numberAnswer) Record.sample).result =
        .error (.answerNotListable .int) ∧
      Circuit.load (sampleRun failedCircuit (fun _ => numberAnswer) Record.sample).circuit =
        .ok ⟨4, .zero⟩) ∧
    (sampleRun failedCircuit (fun _ => deepAnswer) Record.sample).result =
        .error .answerTooDeep ∧
      Circuit.load (sampleRun failedCircuit (fun _ => deepAnswer) Record.sample).circuit =
        .ok ⟨4, .zero⟩ := by
  have closed : Circuit.allow .zero failedCircuit = .ok true := by decide +kernel
  have counted : Circuit.load failedCircuit = .ok ⟨4, .zero⟩ := by decide +kernel
  have each : ∀ x failure, judge x = .error failure →
      (sampleRun failedCircuit (fun _ => x) Record.sample).result = .error failure ∧
      Circuit.load (sampleRun failedCircuit (fun _ => x) Record.sample).circuit =
        .ok ⟨4, .zero⟩ := by
    intro x failure judged
    obtain ⟨_, sent⟩ := sent_once (fun _ again => nomatch judged.symm.trans again) closed
    obtain ⟨result, untold⟩ := sent.brokenOff failure judged
    rw [untold]
    exact ⟨result, counted⟩
  exact ⟨⟨delivers_sampleSettings, closed, counted⟩, each numberAnswer _ (by decide +kernel),
    each deepAnswer _ (by decide +kernel)⟩

end Delivery

end RedGreen
