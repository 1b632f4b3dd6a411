import RedGreen.Proofs.Delivery.Attempts
import RedGreen.Proofs.Delivery.Requests
import RedGreen.Proofs.Settings.Accepted

/-!
# Publishing

When delivery is on and the circuit is closed, a record is sent until an attempt is not to be tried
again or no further one is allowed, always as the same request, and the breaker learns how that
ended.  An answer that is no delivery never closes the circuit.
-/

namespace RedGreen

/-- A breaker that could be asked can be told. -/
theorem Circuit.update_of_allow {clock : Binary64} {f : Disk.File} {allowed : Bool}
    (asked : Circuit.allow clock f = .ok allowed) (next : Circuit.State → Circuit.State) :
    ∃ g, Circuit.update next f = .ok g := by
  rw [Circuit.allow] at asked
  rw [Circuit.update]
  cases Document.acquire f Circuit.lockTimeout with
  | error _ => exact ⟨f, rfl⟩
  | ok _ =>
    cases loaded : Circuit.load f with
    | ok s => exact ⟨_, rfl⟩
    | error e =>
      cases tolerated : e.isTolerated with
      | true => exact ⟨f, if_pos tolerated⟩
      | false => simp [loaded, tolerated] at asked

namespace Delivery

/-! ## What was sent -/

/-- What a run amounts to that sent its request `n` times. -/
structure Sent (d : Settings.Delivery) (clock : Binary64) (circuit : Disk.File)
    (exchange : Nat → Exchange) (request : Request) (n : Nat) (run : Run) : Prop where
  stops : StopsAt exchange 1 (1 + (d.maxAttempts.toNat - 1)) n
  requests : run.requests = List.replicate n request
  delays : run.delays =
    (List.range' 1 (n - 1)).map fun i : Nat => (backoff d i).getD d.backoffMax
  delivered : judge (exchange (n - 1)) = .ok .delivered →
    run.result = .ok ⟨true, n, .delivered, none⟩ ∧ Circuit.recordSuccess circuit = .ok run.circuit
  failed : ∀ reason, judge (exchange (n - 1)) = .ok (.tryAgain reason) ∨
    judge (exchange (n - 1)) = .ok (.final reason) →
      run.result = .ok ⟨false, n, .failed, some reason⟩ ∧
        Circuit.recordFailure d.circuit clock circuit = .ok run.circuit
  brokenOff : ∀ failure, judge (exchange (n - 1)) = .error failure →
    run.result = .error failure ∧ run.circuit = circuit

theorem send_sent {d : Settings.Delivery} {clock : Binary64} {circuit : Disk.File} {allowed : Bool}
    (asked : Circuit.allow clock circuit = .ok allowed) (exchange : Nat → Exchange) (hash : Text)
    (request : Request) :
    ∃ n, Sent d clock circuit exchange request n (send d clock circuit exchange hash request) := by
  obtain ⟨n, stops, reaches⟩ := attemptFrom_reaches d hash exchange (d.maxAttempts.toNat - 1) 1
  obtain ⟨closed, told⟩ := Circuit.update_of_allow asked fun _ => .closed
  obtain ⟨opened, blamed⟩ := Circuit.update_of_allow asked (Circuit.afterFailure d.circuit clock)
  have ending := reaches.ending
  refine ⟨n, stops, ?_, reaches.delays, fun judged => ?_, fun reason judged => ?_,
    fun failure judged => ?_⟩
  · rw [send, ← reaches.attempts]
  · rw [judged] at ending
    simp only [send, settle, ending, endingOf, Circuit.recordSuccess, told, reaches.attempts,
      and_self]
  · have ending : (attemptFrom d hash exchange (d.maxAttempts.toNat - 1) 1).ending =
        .failed reason := by
      rcases judged with judged | judged <;> rw [ending, judged] <;> rfl
    simp only [send, settle, ending, Circuit.recordFailure, blamed, reaches.attempts, and_self]
  · rw [judged] at ending
    simp only [send, settle, ending, endingOf, and_self]

/-- A run that sent nothing. -/
structure Idle (circuit : Disk.File) (run : Run) : Prop where
  requests : run.requests = []
  circuit : run.circuit = circuit
  undelivered : ∀ result, run.result = .ok result → result.delivered = false

variable {s : Settings} {now : DateTime} {id : Text} {clock : Binary64} {circuit : Disk.File}
  {exchange : Nat → Exchange} {r : Record}

theorem publish_of_request {request : Request} (delivers : s.delivers = true)
    (closed : Circuit.allow clock circuit = .ok true)
    (made : requestFor s now id r = .ok request) :
    publish s now id clock circuit exchange r =
      send s.delivery clock circuit exchange r.commitHash request := by
  rw [publish, delivers, closed]
  simp only [made, Bool.not_true, Bool.false_eq_true, if_false]

/-- Either nothing is sent, or one request is sent some number of times. -/
theorem publish_cases (s : Settings) (now : DateTime) (id : Text) (clock : Binary64)
    (circuit : Disk.File) (exchange : Nat → Exchange) (r : Record) :
    Idle circuit (publish s now id clock circuit exchange r) ∨
      ∃ request n, requestFor s now id r = .ok request ∧
        Sent s.delivery clock circuit exchange request n
          (publish s now id clock circuit exchange r) := by
  have idle : ∀ {result notes ids}, (∀ done, result = Except.ok done → done.delivered = false) →
      Idle circuit (Run.idle result notes circuit ids) := fun undelivered => ⟨rfl, rfl, undelivered⟩
  cases delivers : s.delivers with
  | false =>
    rw [publish, delivers]
    refine .inl (idle fun done same => ?_)
    cases same
    rfl
  | true =>
    cases asked : Circuit.allow clock circuit with
    | error e =>
      rw [publish, delivers, asked]
      exact .inl (idle fun done same => nomatch same)
    | ok allowed =>
      cases allowed with
      | false =>
        rw [publish, delivers, asked]
        refine .inl (idle fun done same => ?_)
        cases same
        rfl
      | true =>
        cases made : requestFor s now id r with
        | error failure =>
          rw [publish, delivers, asked]
          refine .inl ?_
          simp only [made, Bool.not_true, Bool.false_eq_true, if_false]
          cases failure <;> exact idle fun done same => nomatch same
        | ok request =>
          obtain ⟨n, sent⟩ := send_sent (d := s.delivery) asked exchange r.commitHash request
          rw [publish_of_request delivers asked made]
          exact .inr ⟨request, n, rfl, sent⟩

/-! ## How many requests -/

/-- The number of the first attempt that is not to be tried again, or of the last one allowed. -/
def requestCount (most : Nat) (exchange : Nat → Exchange) : Nat :=
  match (List.range most).find? fun i => !(exchange i).isRetryable with
  | some i => i + 1
  | none => most

/-- An outcome of one of the three kinds, with a body that is not too deep. -/
structure Exchange.IsOrdinary (x : Exchange) : Prop where
  kind : x.isRetryable = true ∨ x.isFatal = true ∨ x.isGood = true
  shallow : x.IsShallow

theorem stopsAt_requestCount {most : Nat} (positive : 1 ≤ most) (exchange : Nat → Exchange) :
    StopsAt exchange 1 most (requestCount most exchange) := by
  rw [requestCount]
  cases found : (List.range most).find? fun i => !(exchange i).isRetryable with
  | none =>
    have all := List.find?_range_eq_none.mp found
    dsimp only
    refine ⟨positive, Nat.le_refl _, fun i le lt => judge_of_isRetryable ?_,
      fun lt => absurd lt (Nat.lt_irrefl _)⟩
    simpa using all (i - 1) (by omega)
  | some k =>
    obtain ⟨other, among, before⟩ := List.find?_range_eq_some.mp found
    have inside := List.mem_range.mp among
    dsimp only
    refine ⟨Nat.succ_pos k, inside, fun i le lt => judge_of_isRetryable ?_,
      fun _ reason again => ?_⟩
    · simpa using before (i - 1) (by omega)
    · have retryable : (exchange k).isRetryable = true := isRetryable_of_judge again
      rw [retryable] at other
      cases other

/-! ## The whole of publishing -/

theorem units?_delays {d : Settings.Delivery} {base most n : Nat}
    (ofBase : d.backoffBase.units? = some (base : Int))
    (ofMax : d.backoffMax.units? = some (most : Int)) (small : n ≤ 900) :
    ((List.range' 1 (n - 1)).map fun i : Nat => (backoff d i).getD d.backoffMax).map
        Binary64.units? =
      (List.range (n - 1)).map fun i => some ((min (base * 2 ^ i) most : Nat) : Int) := by
  rw [List.range'_eq_map_range, List.map_map, List.map_map]
  refine List.map_congr_left fun i mem => ?_
  have inside := List.mem_range.mp mem
  obtain ⟨delay, made, units⟩ := units?_backoff ofBase ofMax (Nat.le_add_right 1 i) (by omega)
  rw [Nat.add_sub_cancel_left] at units
  simp only [Function.comp_apply, made, Option.getD_some, units]

/-- What publishing comes to: the requests, the waits between them, and the one word to the breaker
that goes with the result. -/
structure Published (d : Settings.Delivery) (clock : Binary64) (circuit : Disk.File)
    (exchange : Nat → Exchange) (request : Request) (n : Nat) (run : Run) : Prop where
  requests : run.requests = List.replicate n request
  delays : ∃ base most : Nat, d.backoffBase.units? = some (base : Int) ∧
    d.backoffMax.units? = some (most : Int) ∧ run.delays.map Binary64.units? =
      (List.range (n - 1)).map fun i => some ((min (base * 2 ^ i) most : Nat) : Int)
  delivered : (exchange (n - 1)).isGood = true →
    run.result = .ok ⟨true, n, .delivered, none⟩ ∧ Circuit.recordSuccess circuit = .ok run.circuit
  failed : (exchange (n - 1)).isGood = false → ∃ reason,
    (judge (exchange (n - 1)) = .ok (.tryAgain reason) ∨
      judge (exchange (n - 1)) = .ok (.final reason)) ∧
    run.result = .ok ⟨false, n, .failed, some reason⟩ ∧
    Circuit.recordFailure d.circuit clock circuit = .ok run.circuit

/-- A record is sent until an attempt is delivered or refused for good, and at most as often as the
settings allow. -/
theorem publish_until_settled {s : Settings} {now : DateTime} {id : Text} {clock : Binary64}
    {circuit : Disk.File} {exchange : Nat → Exchange} {r : Record} (delivers : s.delivers = true)
    (accepted : s.delivery.IsAccepted) (base : s.delivery.backoffBase.isFinite = true)
    (most : s.delivery.backoffMax.isFinite = true) (usable : s.backend.IsUsable)
    (encodable : id.IsScalar) (unicode : r.IsUnicode) (short : r.HasShortIntegers)
    (closed : Circuit.allow clock circuit = .ok true)
    (ordinary : ∀ i < s.delivery.maxAttempts.toNat, (exchange i).IsOrdinary) :
    ∃ request, requestFor s now id r = .ok request ∧
      Published s.delivery clock circuit exchange request
        (requestCount s.delivery.maxAttempts.toNat exchange)
        (publish s now id clock circuit exchange r) := by
  obtain ⟨request, made⟩ := requestFor_eq usable now encodable unicode short
  obtain ⟨n, sent⟩ := send_sent (d := s.delivery) closed exchange r.commitHash request
  have attempts := accepted.maxAttempts
  have last : 1 + (s.delivery.maxAttempts.toNat - 1) = s.delivery.maxAttempts.toNat := by omega
  have stops := sent.stops
  rw [last] at stops
  obtain rfl := stops.unique (stopsAt_requestCount (by omega) exchange)
  generalize requestCount s.delivery.maxAttempts.toNat exchange = n at sent stops ⊢
  have first := stops.first_le
  have within := stops.le_last
  have ordinary := ordinary (n - 1) (by omega)
  rw [publish_of_request delivers closed made]
  obtain ⟨b, ofBase⟩ := Binary64.units?_isSome base accepted.backoffBase
  obtain ⟨m, ofMax⟩ := Binary64.units?_isSome most accepted.backoffMax
  refine ⟨request, made, sent.requests, ⟨b, m, ofBase, ofMax, ?_⟩,
    fun good => sent.delivered (judge_of_isGood good ordinary.shallow), fun bad => ?_⟩
  · rw [sent.delays]
    exact units?_delays ofBase ofMax (by omega)
  · rcases ordinary.kind with retryable | fatal | good
    · obtain ⟨reason, again⟩ := judge_of_isRetryable retryable
      exact ⟨reason, .inl again, sent.failed reason (.inl again)⟩
    · obtain ⟨reason, final⟩ := judge_of_isFatal fatal ordinary.shallow
      exact ⟨reason, .inr final, sent.failed reason (.inr final)⟩
    · rw [good] at bad
      cases bad

/-- Three attempts, and waits that double from one second up to one and a half. -/
def sampleSettings : Settings where
  appName := "tdd-cycle-metrics"
  version := "1.0.0"
  storage := ⟨.ofText "log", .ofText "state", .ofText "circuit", .ofText "publish", true, 200⟩
  locking := ⟨.zero, .zero⟩
  backend := ⟨some "http://localhost", some "pk", some "sk", "tdd-cycle"⟩
  delivery := ⟨true, 3, .ofNat 10, .ofNat 1, .ofRatio false 3 2, 5, .ofNat 300⟩
  notices := ⟨true, true⟩
  monitoring := ⟨"INFO"⟩

def sampleCircuit : Disk.File := .fresh "state" "circuit.json"

def sampleRun (circuit : Disk.File) (exchange : Nat → Exchange) (r : Record) : Run :=
  publish sampleSettings Record.sample.loggedAt "e" .zero circuit exchange r

theorem delivers_sampleSettings : sampleSettings.delivers = true := by decide

theorem closed_sampleCircuit : Circuit.allow .zero sampleCircuit = .ok true := by decide

theorem isUnicode_sample : Record.sample.IsUnicode := by decide

theorem hasShortIntegers_sample : Record.sample.HasShortIntegers := by
  have small : ∀ i ∈ Record.sample.integers, i.natAbs < 10 ^ (2 + 1) := by decide
  intro i mem
  exact Nat.le_trans (Text.length_decimalDigits_le (small i mem)) (by decide)

/-- An answer with status 200 that holds a document. -/
def okAnswer (v : Json) : Exchange := .answered 200 (Utf8.encode (Json.compact .line v))

/-- A document that lists one success. -/
def successDocument : Json :=
  .obj [("successes", .arr [.obj [("id", .str "e")]]), ("errors", .arr [])]

def successAnswer : Exchange := okAnswer successDocument

theorem isOrdinary_successAnswer : successAnswer.IsOrdinary where
  kind := .inr (.inr (by decide +kernel))
  shallow :=
    (by decide +kernel : IsShallow (Utf8.encode (Json.compact .line successDocument)))

theorem isAccepted_sampleSettings : sampleSettings.delivery.IsAccepted where
  maxAttempts := by decide
  timeout := by decide +kernel
  backoffBase := by decide +kernel
  backoffMax := by decide +kernel
  failureThreshold := by decide
  cooldown := by decide +kernel

theorem isUsable_sampleSettings : sampleSettings.backend.IsUsable where
  address := by
    have base : Address.ofText "http://localhost" =
        .ok ⟨"http", "", "localhost", none, "", none, none⟩ := by decide +kernel
    have below : Address.below ⟨"http", "", "localhost", none, "", none, none⟩
        Request.ingestionPath =
          .ok ⟨"http", "", "localhost", none, "/api/public/ingestion", none, none⟩ := by
      decide +kernel
    exact ⟨_, _, base, below⟩
  credentials := by decide
  traceName := by decide

def sampleExchange : Nat → Exchange
  | 0 => .timedOut "read"
  | 1 => .answered 503 []
  | _ => successAnswer

/-- A time-out, a status that passes, and a delivery: three requests and two waits. -/
theorem publish_until_settled_sample : ∃ request run base most,
    requestFor sampleSettings Record.sample.loggedAt "e" Record.sample = .ok request ∧
    sampleRun sampleCircuit sampleExchange Record.sample = run ∧
    run.requests = [request, request, request] ∧
    run.delays.map Binary64.units? =
      [some ((min (base * 2 ^ 0) most : Nat) : Int), some ((min (base * 2 ^ 1) most : Nat) : Int)] ∧
    run.result = .ok ⟨true, 3, .delivered, none⟩ ∧
    Circuit.recordSuccess sampleCircuit = .ok run.circuit := by
  have ordinary : ∀ i < 3, (sampleExchange i).IsOrdinary := by
    intro i _
    match i with
    | 0 => exact ⟨.inl rfl, trivial⟩
    | 1 => exact ⟨.inl rfl, (by decide +kernel : IsShallow [])⟩
    | _ + 2 => exact isOrdinary_successAnswer
  have good : (sampleExchange 2).isGood = true := by decide +kernel
  obtain ⟨request, made, published⟩ := publish_until_settled delivers_sampleSettings
    isAccepted_sampleSettings (by decide +kernel) (by decide +kernel) isUsable_sampleSettings
    (by decide : Text.IsScalar "e") isUnicode_sample hasShortIntegers_sample closed_sampleCircuit
    ordinary
  obtain ⟨base, most, _, _, delays⟩ := published.delays
  obtain ⟨result, told⟩ := published.delivered good
  exact ⟨request, _, base, most, made, rfl, published.requests, delays, result, told⟩

/-- Half a surrogate pair. -/
def halfPair : Text := [⟨0xD800, by decide⟩]

def codedError (code : Int) : Json.Members := [("code", .int code)]

def codedAnswer (code : Int) : Exchange :=
  okAnswer (.obj [("errors", .arr [.obj (codedError code)])])

/-- The answer lists an error, but the reader stops at its code. -/
theorem judge_codedAnswer {code : Int} (long : Json.digitLimit < Json.digitCount code) :
    judge (codedAnswer code) = .ok .delivered := by
  have stops : Json.longNumeral? (.obj [("errors", .arr [.obj (codedError code)])]) =
      some (Json.digitCount code) := by
    simp only [codedError, Json.longNumeral?, Json.longNumeralMembers?, Json.longNumeralItems?,
      Json.longInt?, if_pos long, Option.or_none]
  have kept : Json.Kept .line (.obj [("errors", .arr [.obj (codedError code)])]) := by
    have distinct : ∀ p : Text × Json, Json.Members.Distinct [p] := fun p => List.nodup_singleton _
    simp only [codedError, Json.Kept, Json.KeptMembers, Json.KeptItems, distinct,
      Json.keepsText_line, and_self]
  have plain : ∀ t ∈ Json.strings (.obj [("errors", .arr [.obj (codedError code)])]),
      t.IsPlain := by
    simp only [codedError, Json.strings, Json.memberStrings, Json.itemStrings, List.append_nil,
      List.forall_mem_cons]
    exact ⟨by decide, by decide, List.forall_mem_nil _⟩
  have shallow : Json.nesting (.obj [("errors", .arr [.obj (codedError code)])]) ≤
      Json.depthLimit := by
    simp only [codedError, Json.nesting, Json.nestingMembers, Json.nestingItems]
    decide
  rw [codedAnswer, okAnswer, judge_answered (by decide),
    readAnswer_of_long plain kept shallow stops]
  rfl

/-- When no attempt is to be tried again there is one. -/
theorem sent_once {x : Exchange} (once : ∀ reason, judge x ≠ .ok (.tryAgain reason))
    {circuit : Disk.File} (closed : Circuit.allow .zero circuit = .ok true) :
    ∃ request, Sent sampleSettings.delivery .zero circuit (fun _ => x) request 1
      (sampleRun circuit (fun _ => x) Record.sample) := by
  obtain ⟨request, made⟩ := requestFor_eq isUsable_sampleSettings Record.sample.loggedAt
    (by decide : Text.IsScalar "e") isUnicode_sample hasShortIntegers_sample
  obtain ⟨n, sent⟩ := send_sent (d := sampleSettings.delivery) closed (fun _ => x)
    Record.sample.commitHash request
  have single : StopsAt (fun _ => x) 1 (1 + (sampleSettings.delivery.maxAttempts.toNat - 1)) 1 :=
    .here (Nat.le_add_right _ _) fun _ => once
  obtain rfl := sent.stops.unique single
  rw [sampleRun, publish_of_request delivers_sampleSettings closed made]
  exact ⟨request, sent⟩

theorem result_of_delivery {x : Exchange} (judged : judge x = .ok .delivered)
    (circuit : Disk.File) (closed : Circuit.allow .zero circuit = .ok true) :
    (sampleRun circuit (fun _ => x) Record.sample).result = .ok ⟨true, 1, .delivered, none⟩ ∧
      Circuit.recordSuccess circuit =
        .ok (sampleRun circuit (fun _ => x) Record.sample).circuit := by
  obtain ⟨_, sent⟩ := sent_once (fun _ again => nomatch judged.symm.trans again) closed
  exact sent.delivered judged

/-- What the outcomes do not tell: nothing is sent where a text of the record or of the backend
cannot be encoded or an integer has no numeral, and an error with such an integer is not seen. -/
theorem requests_fall_short :
    (sampleSettings.delivers = true ∧ Circuit.allow .zero sampleCircuit = .ok true) ∧
    (successAnswer.isGood = true ∧ requestCount 3 (fun _ => successAnswer) = 1) ∧
    (sampleRun sampleCircuit (fun _ => successAnswer)
      { Record.sample with message := halfPair }).requests = [] ∧
    (sampleRun sampleCircuit (fun _ => successAnswer) Record.manyDigits).requests = [] ∧
    (∀ b ∈ [{ sampleSettings.backend with traceName := halfPair },
        { sampleSettings.backend with secretKey := some halfPair }],
      (publish { sampleSettings with backend := b } Record.sample.loggedAt "e" .zero sampleCircuit
        (fun _ => successAnswer) Record.sample).requests = []) ∧
    errorsOf? [("errors", .arr [.obj (codedError (tenTo 4300 : Nat))])] =
      some [codedError (tenTo 4300 : Nat)] ∧
    (sampleRun sampleCircuit (fun _ => codedAnswer (tenTo 4300 : Nat)) Record.sample).result =
      .ok ⟨true, 1, .delivered, none⟩ := by
  have long : Json.digitLimit < Json.digitCount (tenTo 4300 : Nat) := by
    rw [Record.digitCount_tenTo]
    decide
  refine ⟨⟨delivers_sampleSettings, closed_sampleCircuit⟩, ⟨by decide +kernel, rfl⟩, ?_, ?_, ?_,
    rfl, ?_⟩
  · exact List.length_eq_zero_iff.mp (by decide +kernel)
  · exact List.length_eq_zero_iff.mp (by decide +kernel)
  · exact List.forall_mem_cons.mpr ⟨List.length_eq_zero_iff.mp (by decide +kernel),
      List.forall_mem_singleton.mpr (List.length_eq_zero_iff.mp (by decide))⟩
  · exact (result_of_delivery (judge_codedAnswer long) sampleCircuit closed_sampleCircuit).1

/-! ## Deliveries -/

/-- An answer below 400, in which a well-formed object names no errors that are true. -/
def IsAcknowledgement (x : Exchange) : Prop :=
  ∃ status body, x = .answered status body ∧ status < 400 ∧ ∀ document : Json.Members,
    jsonOf? body = some (.obj document) → (errorsOf? document).isSome = true →
      ((document.get? "errors").all fun v => !v.isTruthy) = true

theorem isAcknowledgement_of_judge {x : Exchange} (delivered : judge x = .ok .delivered) :
    IsAcknowledgement x := by
  obtain ⟨status, body, answer, rfl, small, read, none⟩ := answered_of_judge delivered
  refine ⟨status, body, rfl, small, fun document held formed => ?_⟩
  obtain ⟨errors, listed⟩ := Option.isSome_iff_exists.mp formed
  obtain ⟨successes, payload⟩ := ofPayload_of_errorsOf? listed
  rw [readAnswer_of_jsonOf? held payload] at read
  cases read
  obtain ⟨_, _, refused⟩ := Option.bind_eq_some_iff.mp listed
  rw [show errors = [] from none] at refused
  exact isTruthy_of_objectsUnder? refused

/-- A record is reported as delivered, and the circuit closed, only after an acknowledgement. -/
theorem only_acknowledgements_close (s : Settings) (now : DateTime) (id : Text) (clock : Binary64)
    (circuit : Disk.File) (exchange : Nat → Exchange) (r : Record) :
    ∃ run, publish s now id clock circuit exchange r = run ∧
      ((∃ n, 1 ≤ n ∧ run.requests.length = n ∧ run.result = .ok ⟨true, n, .delivered, none⟩ ∧
          IsAcknowledgement (exchange (n - 1)) ∧
          Circuit.recordSuccess circuit = .ok run.circuit) ∨
        ((∀ result, run.result = .ok result → result.delivered = false) ∧
          (run.circuit = circuit ∨
            Circuit.recordFailure s.delivery.circuit clock circuit = .ok run.circuit))) := by
  refine ⟨_, rfl, ?_⟩
  rcases publish_cases s now id clock circuit exchange r with idle | ⟨request, n, _, sent⟩
  · exact .inr ⟨idle.undelivered, .inl idle.circuit⟩
  · cases judged : judge (exchange (n - 1)) with
    | error failure =>
      obtain ⟨result, same⟩ := sent.brokenOff failure judged
      refine .inr ⟨fun other done => ?_, .inl same⟩
      cases result.symm.trans done
    | ok verdict =>
      cases verdict with
      | delivered =>
        obtain ⟨result, told⟩ := sent.delivered judged
        have length : (publish s now id clock circuit exchange r).requests.length = n := by
          rw [sent.requests, List.length_replicate]
        exact .inl ⟨n, sent.stops.first_le, length, result, isAcknowledgement_of_judge judged, told⟩
      | tryAgain reason =>
        obtain ⟨result, blamed⟩ := sent.failed reason (.inl judged)
        refine .inr ⟨fun other done => ?_, .inr blamed⟩
        cases result.symm.trans done
        rfl
      | final reason =>
        obtain ⟨result, blamed⟩ := sent.failed reason (.inr judged)
        refine .inr ⟨fun other done => ?_, .inr blamed⟩
        cases result.symm.trans done
        rfl

/-- A circuit file that counts four failures. -/
def failedCircuit : Disk.File :=
  { sampleCircuit with node := .regular (Document.bytesOf (Circuit.State.toJson ⟨4, .zero⟩)) }

def redirection : Exchange := .answered 302 []

/-- An answer that lists an error which is no object. -/
def looseAnswer : Exchange := okAnswer (.obj [("errors", .arr [.str "full"])])

/-- A redirection and an answer that lists an error both count as deliveries and close the
circuit. -/
theorem other_answers_close :
    Circuit.load failedCircuit = .ok ⟨4, .zero⟩ ∧
    ((sampleRun failedCircuit (fun _ => redirection) Record.sample).result =
        .ok ⟨true, 1, .delivered, none⟩ ∧
      Circuit.load (sampleRun failedCircuit (fun _ => redirection) Record.sample).circuit =
        .ok .closed) ∧
    (sampleRun failedCircuit (fun _ => looseAnswer) Record.sample).result =
        .ok ⟨true, 1, .delivered, none⟩ ∧
      Circuit.load (sampleRun failedCircuit (fun _ => looseAnswer) Record.sample).circuit =
        .ok .closed := by
  have counted : Circuit.load failedCircuit = .ok ⟨4, .zero⟩ := by decide +kernel
  have closed : Circuit.allow .zero failedCircuit = .ok true := by decide +kernel
  have reset : (Circuit.recordSuccess failedCircuit).map Circuit.load = .ok (.ok .closed) := by
    decide +kernel
  have each : ∀ x, judge x = .ok .delivered →
      (sampleRun failedCircuit (fun _ => x) Record.sample).result =
        .ok ⟨true, 1, .delivered, none⟩ ∧
      Circuit.load (sampleRun failedCircuit (fun _ => x) Record.sample).circuit = .ok .closed := by
    intro x judged
    obtain ⟨result, told⟩ := result_of_delivery judged failedCircuit closed
    rw [told] at reset
    exact ⟨result, Except.ok.inj reset⟩
  exact ⟨counted, each redirection (by decide +kernel), each looseAnswer (by decide +kernel)⟩

end Delivery

end RedGreen
