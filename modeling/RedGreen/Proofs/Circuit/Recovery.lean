import RedGreen.Proofs.Circuit.Escapes
import RedGreen.Proofs.Circuit.History

/-!
# What the circuit breaker makes of any content

An update reads the state before it replaces it, so a content that holds no state is never
replaced.  From a content that does hold one, the failures open the circuit when they can be counted
up to the threshold: the count must not be below zero, and it must stay short enough to be written.
-/

namespace RedGreen

namespace Circuit

/-! ## Counting failures -/

/-- A state after a failure; a count that cannot be written is dropped with the failure. -/
def countFailure (c : Config) (s : State) (clock : Binary64) : State :=
  if Json.hasNumeral (s.failures + 1) then afterFailure c clock s else s

/-- A count from which as many failures as the threshold lead up to it, and all of them can be
written. -/
structure CountsUp (c : Config) (s : State) : Prop where
  notNegative : 0 ≤ s.failures
  writable : Json.hasNumeral (max (s.failures + 1) c.threshold) = true

theorem hasNumeral_of_le {i j : Int} (least : 0 ≤ i) (le : i ≤ j)
    (written : Json.hasNumeral j = true) : Json.hasNumeral i = true := by
  rw [Json.hasNumeral, decide_eq_true_eq] at written ⊢
  omega

section

variable {c : Config}

/-- Failures that never bring a count to the threshold leave the end of the cooldown. -/
theorem openedUntil_of_uncounted {clocks : List Binary64} {s : State}
    (uncounted : ∀ i, s.failures ≤ i → i < s.failures + clocks.length →
      Json.hasNumeral (i + 1) = true → i + 1 < c.threshold) :
    (clocks.foldl (countFailure c) s).openedUntil = s.openedUntil := by
  induction clocks generalizing s with
  | nil => rfl
  | cons clock clocks ih =>
    rw [List.length_cons] at uncounted
    rw [List.foldl_cons, countFailure]
    cases written : Json.hasNumeral (s.failures + 1) with
    | false =>
      simp only [Bool.false_eq_true, if_false]
      exact ih fun i least most => uncounted i least (by omega)
    | true =>
      simp only [if_true]
      have few : ¬c.threshold ≤ s.failures + 1 :=
        Int.not_le.mpr (uncounted s.failures (Int.le_refl _) (by omega) written)
      have same : (afterFailure c clock s).openedUntil = s.openedUntil := if_neg few
      rw [← same]
      refine ih fun i least most => uncounted i ?_ ?_
      · have next : s.failures + 1 ≤ i := least
        omega
      · have next : i < s.failures + 1 + clocks.length := most
        omega

/-- A state after `n` failures at one reading, on the way from a count to a goal at which the
circuit opens. -/
structure Underway (c : Config) (clock : Binary64) (first goal : Int) (n : Nat) (s : State) :
    Prop where
  progress : s.failures = first + n ∨ goal ≤ s.failures
  opened : goal ≤ s.failures → s.openedUntil = clock.add c.cooldown

variable {clock : Binary64} {first goal : Int} {n : Nat} {s : State}

theorem Underway.countFailure (notNegative : 0 ≤ first) (enough : c.threshold ≤ goal)
    (writable : Json.hasNumeral goal = true)
    (underway : Underway c clock first goal n s) :
    Underway c clock first goal (n + 1) (countFailure c s clock) := by
  rw [Circuit.countFailure]
  cases written : Json.hasNumeral (s.failures + 1) with
  | false =>
    -- Only a count beyond the goal has too many digits.
    have beyond : goal ≤ s.failures := by
      by_contra below
      have least : 0 ≤ s.failures + 1 := by
        rcases underway.progress with counted | reached <;> omega
      have short := hasNumeral_of_le least (by omega) writable
      rw [written] at short
      cases short
    exact ⟨.inr beyond, underway.opened⟩
  | true =>
    simp only [if_true]
    have count : (afterFailure c clock s).failures = s.failures + 1 := rfl
    refine ⟨?_, fun reached => ?_⟩
    · rw [count]
      rcases underway.progress with counted | reached
      · exact .inl (by omega)
      · exact .inr (by omega)
    · rw [count] at reached
      exact if_pos (Int.le_trans enough reached)

theorem Underway.replicate (notNegative : 0 ≤ first) (enough : c.threshold ≤ goal)
    (writable : Json.hasNumeral goal = true) (m : Nat)
    (underway : Underway c clock first goal n s) :
    Underway c clock first goal (n + m)
      ((List.replicate m clock).foldl (Circuit.countFailure c) s) := by
  induction m generalizing n s with
  | zero => exact underway
  | succ m ih =>
    rw [List.replicate_succ, List.foldl_cons, Nat.add_comm m 1, ← Nat.add_assoc]
    exact ih (underway.countFailure notNegative enough writable)

/-- From a count that leads up to the threshold, as many failures at one reading open the circuit
from there on. -/
theorem CountsUp.openedUntil (counts : CountsUp c s) (threshold : 1 ≤ c.threshold)
    (clock : Binary64) :
    ((List.replicate c.threshold.toNat clock).foldl (Circuit.countFailure c) s).openedUntil =
      clock.add c.cooldown := by
  have start : Underway c clock s.failures (max (s.failures + 1) c.threshold) 0 s :=
    ⟨.inl (by omega), fun reached => by omega⟩
  have done := start.replicate counts.notNegative (by omega) counts.writable
    c.threshold.toNat
  have notNegative := counts.notNegative
  refine done.opened ?_
  rcases done.progress with counted | reached
  · omega
  · exact reached

/-- From any other count, as many failures as the threshold leave the end of the cooldown. -/
theorem openedUntil_of_not_countsUp (fails : ¬CountsUp c s) {clocks : List Binary64}
    (length : (clocks.length : Int) = c.threshold) :
    (clocks.foldl (Circuit.countFailure c) s).openedUntil = s.openedUntil := by
  refine openedUntil_of_uncounted fun i least most written => ?_
  by_contra reached
  have notNegative : 0 ≤ s.failures := by omega
  exact fails ⟨notNegative, hasNumeral_of_le (by omega) (by omega) written⟩

end

/-! ## Files -/

/-- A file after one failure at each of the readings. -/
def afterFailures (c : Config) (clocks : List Binary64) (f : Disk.File) : Disk.File :=
  (run c f (clocks.map .recordFailure)).1

def afterSuccess (c : Config) (f : Disk.File) : Disk.File := (perform c f .recordSuccess).1

/-- Deliveries are held back from a reading on, as long as the cooldown lasts. -/
def ShutThroughout (c : Config) (clock : Binary64) (f : Disk.File) : Prop :=
  ∀ x, Binary64.le clock x = true → Binary64.lt x (clock.add c.cooldown) = true →
    allow x f = .ok false

/-- Deliveries are admitted, and still are after too few failures to open the circuit. -/
def Admits (c : Config) (f : Disk.File) : Prop :=
  ∀ x, IsReading x → ∀ clocks : List Binary64, clocks.length < c.threshold →
    allow x (afterFailures c clocks f) = .ok true

section

variable {c : Config} {f : Disk.File} {s : State}

theorem allow_of_load (loads : load f = .ok s) (x : Binary64) :
    allow x f = .ok (Binary64.le s.openedUntil x) := by
  rw [allow, loads]

theorem Holds.perform_failure (holds : Holds f s) (free : f.held = false) (clock : Binary64) :
    Holds (perform c f (.recordFailure clock)).1 (countFailure c s clock) ∧
      (perform c f (.recordFailure clock)).1.held = false := by
  obtain ⟨stored, same⟩ := holds.store (afterFailure c clock s)
  rw [perform, recordFailure, holds.update, free]
  simp only [Bool.false_eq_true, if_false, perform.updated]
  rw [countFailure]
  exact ⟨stored, same.trans free⟩

theorem Holds.afterFailures (holds : Holds f s) (free : f.held = false)
    (clocks : List Binary64) :
    Holds (afterFailures c clocks f) (clocks.foldl (countFailure c) s) := by
  induction clocks generalizing f s with
  | nil => exact holds
  | cons clock clocks ih =>
    obtain ⟨next, still⟩ := @perform_failure c f s holds free clock
    rw [List.foldl_cons]
    exact ih next still

theorem Holds.afterSuccess (holds : Holds f s) (free : f.held = false) :
    Holds (afterSuccess c f) .closed ∧ (Circuit.afterSuccess c f).held = false := by
  obtain ⟨stored, same⟩ := holds.store .closed
  have zero : Json.hasNumeral 0 = true := by decide +kernel
  rw [show State.closed.failures = 0 from rfl, zero, if_pos rfl] at stored
  rw [Circuit.afterSuccess, perform, recordSuccess, holds.update, free]
  simp only [Bool.false_eq_true, if_false, perform.updated]
  exact ⟨stored, same.trans free⟩

/-- An update of a content that is no state changes nothing, whether it fails or not. -/
theorem updated_of_error {e : LoadError} (failed : load f = .error e) (next : State → State) :
    (perform.updated f (update next f)).1 = f := by
  rw [update, failed]
  cases Document.acquire f lockTimeout with
  | error fault => rfl
  | ok _ => cases tolerated : e.isTolerated <;> simp [perform.updated, tolerated]

theorem afterSuccess_of_error {e : LoadError} (failed : load f = .error e) :
    afterSuccess c f = f :=
  updated_of_error failed _

theorem afterFailures_of_error {e : LoadError} (failed : load f = .error e)
    (clocks : List Binary64) : afterFailures c clocks f = f := by
  induction clocks with
  | nil => rfl
  | cons clock clocks ih =>
    have same : (perform c f (.recordFailure clock)).1 = f := updated_of_error failed _
    show afterFailures c clocks (perform c f (.recordFailure clock)).1 = f
    rw [same, ih]

theorem shutThroughout_of_openedUntil (cooldown : c.cooldown.isFinite = true) {clock : Binary64}
    (reading : IsReading clock) (loads : load f = .ok s)
    (opened : s.openedUntil = clock.add c.cooldown) : ShutThroughout c clock f := by
  intro x _ before
  have number : x.isNaN = false := by
    cases x with
    | notANumber => cases before
    | finite _ _ | infinite _ => rfl
  rw [allow_of_load loads, opened,
    Binary64.le_eq_not_lt (Binary64.isNaN_add reading.finite cooldown) number, before]
  rfl

theorem shutThroughout_congr {g : Disk.File} {s' : State} (loads : load f = .ok s)
    (loads' : load g = .ok s') (same : s'.openedUntil = s.openedUntil) (clock : Binary64) :
    ShutThroughout c clock g ↔ ShutThroughout c clock f := by
  have answers : ∀ x, allow x g = allow x f := fun x => by
    rw [allow_of_load loads, allow_of_load loads', same]
  simp only [ShutThroughout, answers]

theorem admits_of_closed (holds : Holds f .closed) (free : f.held = false) : Admits c f := by
  intro x reading clocks few
  have same : (clocks.foldl (countFailure c) .closed).openedUntil = .zero := by
    refine openedUntil_of_uncounted fun i least most _ => ?_
    have counted : i < 0 + clocks.length := most
    omega
  rw [allow_of_load (holds.afterFailures free clocks).loads, same, reading.notNegative]

theorem admits_iff_of_error {e : LoadError} (failed : load f = .error e)
    (threshold : 1 ≤ c.threshold) : Admits c f ↔ ∀ e, ¬Escapes f e := by
  simp only [Admits, afterFailures_of_error failed, escapes_iff, failed]
  have zero : IsReading .zero := ⟨rfl, by decide⟩
  constructor
  · rintro admits e ⟨⟨⟩, passed⟩
    have admitted := admits .zero zero [] threshold
    rw [allow, failed] at admitted
    simp only [passed, Bool.false_eq_true, if_false] at admitted
    cases admitted
  · intro tolerated x _ _ _
    have passes : e.isTolerated = true := by
      simpa using fun passed => tolerated e ⟨rfl, passed⟩
    rw [allow, failed]
    simp only [passes, if_true]

end

/-- What becomes of a file by failures and by a success. -/
structure Recovery (c : Config) (f : Disk.File) : Prop where
  /-- As many failures as the threshold open the circuit when the count leads up to it. -/
  opens : ∀ clock, IsReading clock →
    (ShutThroughout c clock (afterFailures c (List.replicate c.threshold.toNat clock) f) ↔
      (∃ s, Stored f s ∧ CountsUp c s) ∨ ShutThroughout c clock f)
  /-- A success closes the circuit on every content that is not passed on. -/
  closes : Admits c (afterSuccess c f) ↔ ∀ e, ¬Escapes f e
  /-- What holds no state is there to stay. -/
  lost : (∀ s, ¬Stored f s) →
    afterSuccess c f = f ∧ ∀ clocks, afterFailures c clocks f = f

/-- Whatever a regular file holds, failures open the circuit exactly from a state with a count that
leads up to the threshold, and a success closes it on all that reading does not fail on. -/
theorem recovery {c : Config} (threshold : 1 ≤ c.threshold) (cooldown : c.cooldown.isFinite = true)
    {f : Disk.File} {content : Bytes} (regular : f.node = .regular content)
    (reachable : f.blocked = false) (free : f.held = false) : Recovery c f := by
  cases loaded : load f with
  | error e =>
    have none : ∀ s, ¬Stored f s := fun s stored => by
      rw [load_eq_ok_iff.mpr stored] at loaded
      cases loaded
    refine ⟨fun clock _ => ?_, ?_, fun _ => ?_⟩
    · rw [afterFailures_of_error loaded]
      simp [none]
    · rw [afterSuccess_of_error loaded]
      exact admits_iff_of_error loaded threshold
    · exact ⟨afterSuccess_of_error loaded, afterFailures_of_error loaded⟩
  | ok s =>
    have stored : Stored f s := load_eq_ok_iff.mp loaded
    have holds : Holds f s := by
      refine ⟨reachable, ?_, loaded⟩
      rw [regular]
      exact nofun
    refine ⟨fun clock reading => ?_, ?_, fun none => absurd stored (none s)⟩
    · have after := holds.afterFailures (c := c) free (List.replicate c.threshold.toNat clock)
      by_cases counts : CountsUp c s
      · have opened := counts.openedUntil threshold clock
        exact iff_of_true (shutThroughout_of_openedUntil cooldown reading after.loads opened)
          (.inl ⟨s, stored, counts⟩)
      · have length : ((List.replicate c.threshold.toNat clock).length : Int) = c.threshold := by
          rw [List.length_replicate]
          omega
        have same := openedUntil_of_not_countsUp counts length
        rw [shutThroughout_congr loaded after.loads same, or_iff_right]
        rintro ⟨other, stored', counts'⟩
        rw [load_eq_ok_iff.mpr stored'] at loaded
        cases loaded
        exact counts counts'
    · obtain ⟨closed, still⟩ := holds.afterSuccess (c := c) free
      refine iff_of_true (admits_of_closed closed still) fun e escapes => ?_
      rw [(escapes_iff.mp escapes).1] at loaded
      cases loaded

/-- Two failures open the circuit of a file that counts one, and a success closes it. -/
theorem recovery_sample :
    ShutThroughout ⟨2, .ofNat 60⟩ (.ofNat 100)
      (afterFailures ⟨2, .ofNat 60⟩ [.ofNat 100, .ofNat 100]
        (fileOf (Json.document (State.toJson ⟨1, .zero⟩)))) ∧
    Admits ⟨2, .ofNat 60⟩
      (afterSuccess ⟨2, .ofNat 60⟩ (fileOf (Json.document (State.toJson ⟨1, .zero⟩)))) := by
  have loads : load (fileOf (Json.document (State.toJson ⟨1, .zero⟩))) = .ok ⟨1, .zero⟩ := by
    decide +kernel
  have reading : IsReading (.ofNat 100) :=
    have atMost := Binary64.ofNat_atMost (k := 10) (by decide) (by decide)
    ⟨atMost.isFinite, atMost.zero_le⟩
  have law := @recovery ⟨2, .ofNat 60⟩ (by decide) (by decide +kernel)
    (fileOf (Json.document (State.toJson ⟨1, .zero⟩))) _ rfl rfl rfl
  constructor
  · exact (law.opens _ reading).mpr
      (.inl ⟨_, load_eq_ok_iff.mp loads, by decide, by decide +kernel⟩)
  · refine law.closes.mpr fun e escapes => ?_
    rw [(escapes_iff.mp escapes).1] at loads
    cases loads

/-- A byte that is no UTF-8, a text in place of the end of the cooldown, and a count below zero
each keep a failure from opening the circuit; after a success the infinite count is still there. -/
theorem failure_opens_no_circuit :
    (∀ content ∈ [[0xFF], Document.bytesOf (.obj [("opened_until", .str "soon")]),
        Document.bytesOf (.obj [("consecutive_failures", .int (-1))])],
      allow (.ofNat 1000) (afterFailures ⟨1, .ofNat 60⟩ [.ofNat 1000]
        { Disk.File.fresh "state" "circuit.json" with node := .regular content }) = .ok true) ∧
    allow (.ofNat 1000)
      (afterSuccess ⟨1, .ofNat 60⟩ (fileOf "\x7b\"consecutive_failures\": 1e400\x7d")) =
        .error (.conversion .overflow) := by
  decide +kernel

end Circuit

end RedGreen
