import RedGreen.Circuit
import RedGreen.Proofs.Documents
import RedGreen.Proofs.Json.Joining
import RedGreen.Proofs.Json.Numerals
import RedGreen.Proofs.Number.Order

/-!
# The circuit breaker as a function of its history

Whether a delivery may be tried is told by the updates that reached the file so far, without
looking at it: how many failures came since the last success, and when the last one came.
-/

namespace RedGreen

namespace Circuit

/-! ## Histories -/

/-- An update of the state, with the clock reading of a failure. -/
inductive Update where
  | failure (clock : Binary64)
  | success

/-- The failures since the last success.  Histories have the newest update first. -/
def failuresSince : List Update → Nat
  | .failure _ :: past => failuresSince past + 1
  | .success :: _ => 0
  | [] => 0

def lastFailure? : List Update → Option Binary64
  | .failure clock :: _ => some clock
  | .success :: past => lastFailure? past
  | [] => none

/-- Whether a history keeps the circuit open at a clock reading. -/
def blocks (c : Config) (past : List Update) (clock : Binary64) : Bool :=
  decide (c.threshold ≤ failuresSince past) &&
    (lastFailure? past).any fun failed => clock.lt (failed.add c.cooldown)

/-- Whether an update reaches the file.  Nothing does while someone else holds the lock, and a
failure does not when its count has more digits than can be written. -/
def reaches (held : Bool) (past : List Update) : Update → Bool
  | .failure _ => !held && Json.hasNumeral (failuresSince past + 1)
  | .success => !held

/-- Every update is stopped by the lock, and by a count that cannot be written; a success counts
none. -/
theorem reaches_eq (held : Bool) (past : List Update) (u : Update) :
    reaches held past u = (!held && Json.hasNumeral (failuresSince (u :: past))) := by
  have zero : Json.hasNumeral 0 = true := by decide +kernel
  cases u with
  | failure clock => rw [reaches, failuresSince, Int.natCast_succ]
  | success => rw [reaches, failuresSince, Int.natCast_zero, zero, Bool.and_true]

/-! ## The state of a history -/

def State.ofPast (c : Config) : List Update → State
  | .failure clock :: past => afterFailure c clock (ofPast c past)
  | .success :: _ => closed
  | [] => closed

section

variable {c : Config} {past : List Update}

theorem failures_ofPast : (State.ofPast c past).failures = failuresSince past := by
  -- A success forgets all that was before it, so only failures need the induction.
  induction past with
  | nil => rfl
  | cons u past ih =>
    cases u with
    | success => rfl
    | failure clock =>
      rw [State.ofPast, afterFailure, failuresSince, ih]
      exact (Int.natCast_succ _).symm

theorem openedUntil_of_closed (few : ¬c.threshold ≤ failuresSince past) :
    (State.ofPast c past).openedUntil = .zero := by
  induction past with
  | nil => rfl
  | cons u past ih =>
    cases u with
    | success => rfl
    | failure clock =>
      have fewer : ¬c.threshold ≤ failuresSince past := by
        intro enough
        rw [failuresSince] at few
        omega
      rw [State.ofPast, afterFailure, failures_ofPast, ← ih fewer]
      exact if_neg few

/-- An open circuit was opened by the latest update of all. -/
theorem openedUntil_of_open (threshold : 1 ≤ c.threshold)
    (enough : c.threshold ≤ failuresSince past) :
    ∃ failed, past.head? = some (.failure failed) ∧ lastFailure? past = some failed ∧
      (State.ofPast c past).openedUntil = failed.add c.cooldown := by
  have not_one_le_zero : ¬(1 : Int) ≤ 0 := by decide
  cases past with
  | nil => exact absurd (Int.le_trans threshold enough) not_one_le_zero
  | cons u past =>
    cases u with
    | success => exact absurd (Int.le_trans threshold enough) not_one_le_zero
    | failure clock =>
      refine ⟨clock, rfl, rfl, ?_⟩
      rw [State.ofPast, afterFailure, failures_ofPast]
      exact if_pos enough

end

/-! ## Files -/

/-- A file that can be replaced and is read as a state. -/
structure Holds (f : Disk.File) (s : State) : Prop where
  reachable : f.blocked = false
  replaceable : f.node ≠ .directory
  loads : load f = .ok s

theorem holds_missing {f : Disk.File} (reachable : f.blocked = false)
    (missing : f.node = .missing) : Holds f .closed where
  reachable := reachable
  replaceable := by
    rw [missing]
    exact nofun
  loads := by
    rw [load, Document.read, Disk.File.content?, Disk.File.visibleNode, reachable, missing]
    rfl

theorem Holds.lock {f : Disk.File} {s : State} (holds : Holds f s) (held : Bool) :
    Holds { f with held := held } s :=
  ⟨holds.reachable, holds.replaceable, holds.loads⟩

theorem hasNumerals_toJson (s : State) : s.toJson.hasNumerals = Json.hasNumeral s.failures := by
  simp [State.toJson, Json.hasNumerals, Json.integers, Json.integersOfMembers]

theorem nesting_toJson (s : State) : Json.nesting s.toJson = 1 := rfl

theorem sorted_toJson (s : State) : s.toJson.sorted = s.toJson := rfl

/-- A state survives its document, an infinite end of the cooldown included. -/
theorem ofText_document {s : State} (written : Json.hasNumeral s.failures = true) :
    Document.ofText (Json.document s.toJson) =
      .ok [("consecutive_failures", .int s.failures), ("opened_until", .float s.openedUntil)] := by
  have named : ∀ name : Text, name.IsScalar → Json.Style.document.KeepsText name :=
    fun _ scalar => Json.keepsText_document scalar.joinless
  have names : [Text.ofString "consecutive_failures", "opened_until"].Nodup := by decide
  have kept : Json.Kept .document s.toJson :=
    ⟨names, named _ (by decide), trivial, named _ (by decide),
      Json.keepsFloat_document _, trivial⟩
  have short : Json.longNumeral? s.toJson = none :=
    Json.longNumeralMembers?_eq_none.mpr fun p mem => by
      rcases List.mem_cons.mp mem with rfl | mem
      · exact Json.longInt?_eq_none_iff.mpr written
      · obtain rfl := List.mem_singleton.mp mem
        rfl
  have shallow : Json.nesting s.toJson ≤ Json.depthLimit := by
    rw [nesting_toJson]
    decide
  have back := Json.read_document kept shallow
  rw [sorted_toJson, short] at back
  rw [Document.ofText, back]
  rfl

theorem Holds.store {f : Disk.File} {s : State} (holds : Holds f s) (next : State) :
    Holds (store f next) (if Json.hasNumeral next.failures then next else s) ∧
      (Circuit.store f next).held = f.held := by
  rw [Circuit.store, hasNumerals_toJson]
  cases written : Json.hasNumeral next.failures with
  | false => exact ⟨holds, rfl⟩
  | true =>
    rw [Document.write_eq holds.reachable holds.replaceable]
    refine ⟨⟨holds.reachable, nofun, ?_⟩, rfl⟩
    have back : Document.read { f with node := .regular (Document.bytesOf next.toJson) } = _ :=
      (Document.read_written holds.reachable _).trans (ofText_document written)
    simp only [if_true]
    rw [load, back]
    rfl

theorem Holds.update {f : Disk.File} {s : State} (holds : Holds f s) (next : State → State) :
    update next f = .ok (if f.held then f else Circuit.store f (next s)) := by
  rw [Circuit.update, Document.acquire_eq holds.reachable, holds.loads]
  cases f.held <;> simp

/-! ## Runs -/

/-- What may happen around the file.  A breaker keeps nothing but its settings, so it does not
matter which of several breakers makes a call. -/
inductive Call where
  | recordFailure (clock : Binary64)
  | recordSuccess
  | allow (clock : Binary64)
  /-- Someone else takes the lock, or lets it go. -/
  | lock (held : Bool)

/-- One call, and its answer if it has one. -/
def perform (c : Config) (f : Disk.File) : Call → Disk.File × List (Except LoadError Bool)
  | .recordFailure clock => updated (recordFailure c clock f)
  | .recordSuccess => updated (recordSuccess f)
  | .allow clock => (f, [allow clock f])
  | .lock held => ({ f with held := held }, [])
where
  updated : Except LoadError Disk.File → Disk.File × List (Except LoadError Bool)
    | .ok g => (g, [])
    | .error e => (f, [.error e])

def run (c : Config) (f : Disk.File) : List Call → Disk.File × List (Except LoadError Bool)
  | [] => (f, [])
  | call :: calls =>
    let (f, said) := perform c f call
    let (f, more) := run c f calls
    (f, said ++ more)

/-- What an onlooker knows who never reads the file. -/
structure Scene where
  held : Bool
  past : List Update

namespace Scene

def tell (s : Scene) (u : Update) : Scene :=
  if reaches s.held s.past u then { s with past := u :: s.past } else s

/-- One call, and what the history tells that its answer will be. -/
def perform (c : Config) (s : Scene) : Call → Scene × List Bool
  | .recordFailure clock => (s.tell (.failure clock), [])
  | .recordSuccess => (s.tell .success, [])
  | .allow clock => (s, [!blocks c s.past clock])
  | .lock held => ({ s with held := held }, [])

def run (c : Config) (s : Scene) : List Call → Scene × List Bool
  | [] => (s, [])
  | call :: calls =>
    let (s, told) := s.perform c call
    let (s, more) := s.run c calls
    (s, told ++ more)

end Scene

/-- What a clock may show: a finite number that is not negative. -/
structure IsReading (clock : Binary64) : Prop where
  finite : clock.isFinite = true
  notNegative : Binary64.le .zero clock = true

def Call.IsOrdinary : Call → Prop
  | .recordFailure clock | .allow clock => IsReading clock
  | .recordSuccess | .lock _ => True

/-- Every failure of a history was seen at a reading of the clock. -/
def Timed (past : List Update) : Prop := ∀ clock, .failure clock ∈ past → IsReading clock

section

variable {c : Config} {f : Disk.File} {s : Scene}

/-- The file holds what the history tells. -/
structure Agrees (c : Config) (f : Disk.File) (s : Scene) : Prop where
  held : f.held = s.held
  file : Holds f (.ofPast c s.past)
  timed : Timed s.past

theorem Agrees.allow (threshold : 1 ≤ c.threshold) (cooldown : c.cooldown.isFinite = true)
    (agrees : Agrees c f s) {clock : Binary64} (reading : IsReading clock) :
    allow clock f = .ok (!blocks c s.past clock) := by
  rw [Circuit.allow, agrees.file.loads, blocks]
  by_cases enough : c.threshold ≤ failuresSince s.past
  · obtain ⟨failed, latest, last, opened⟩ := openedUntil_of_open threshold enough
    have seen : IsReading failed := agrees.timed failed (List.mem_of_mem_head? latest)
    have until' := Binary64.isNaN_add seen.finite cooldown
    simp only [opened, last, enough, decide_true, Bool.true_and, Option.any_some,
      Binary64.le_eq_not_lt until' (Binary64.isNaN_of_isFinite reading.finite)]
  · simp only [openedUntil_of_closed enough, reading.notNegative, enough, decide_false,
      Bool.false_and, Bool.not_false]

/-- An update does to the file what it does to the history. -/
theorem Agrees.update (u : Update) (next : State → State)
    (applied : next (.ofPast c s.past) = .ofPast c (u :: s.past))
    (timely : Timed [u]) (agrees : Agrees c f s) :
    ∃ g, update next f = .ok g ∧ Agrees c g (s.tell u) := by
  refine ⟨_, agrees.file.update next, ?_⟩
  obtain ⟨holds, same⟩ := agrees.file.store (next (.ofPast c s.past))
  rw [applied, failures_ofPast] at holds
  have kept := same.trans agrees.held
  rw [agrees.held, applied, Scene.tell, reaches_eq]
  rw [applied] at kept
  cases held : s.held with
  | true => simpa using agrees
  | false =>
    rw [held] at kept
    cases written : Json.hasNumeral (failuresSince (u :: s.past)) with
    | true =>
      simp only [written, if_true] at holds
      simp only [Bool.not_false, Bool.true_and, Bool.false_eq_true, if_true, if_false]
      refine ⟨kept, holds, fun clock mem => ?_⟩
      rcases List.mem_cons.mp mem with rfl | mem
      · exact timely clock List.mem_cons_self
      · exact agrees.timed clock mem
    | false =>
      simp only [written, Bool.false_eq_true, if_false] at holds
      simp only [Bool.and_false, Bool.false_eq_true, if_false]
      exact ⟨kept.trans held.symm, holds, agrees.timed⟩

theorem Agrees.perform (threshold : 1 ≤ c.threshold) (cooldown : c.cooldown.isFinite = true)
    (agrees : Agrees c f s) (call : Call) (ordinary : call.IsOrdinary) :
    (perform c f call).2 = (s.perform c call).2.map .ok ∧
      Agrees c (perform c f call).1 (s.perform c call).1 := by
  cases call with
  | recordFailure clock =>
    obtain ⟨g, updated, after⟩ := agrees.update (.failure clock) (afterFailure c clock) rfl
      fun other mem => by
        obtain ⟨rfl⟩ := List.mem_singleton.mp mem
        exact ordinary
    rw [Circuit.perform, recordFailure, updated]
    exact ⟨rfl, after⟩
  | recordSuccess =>
    obtain ⟨g, updated, after⟩ := agrees.update .success (fun _ => .closed) rfl
      fun other mem => nomatch List.mem_singleton.mp mem
    rw [Circuit.perform, recordSuccess, updated]
    exact ⟨rfl, after⟩
  | allow clock =>
    rw [Circuit.perform, agrees.allow threshold cooldown ordinary]
    exact ⟨rfl, agrees⟩
  | lock held => exact ⟨rfl, rfl, agrees.file.lock held, agrees.timed⟩

theorem Agrees.run (threshold : 1 ≤ c.threshold) (cooldown : c.cooldown.isFinite = true)
    (agrees : Agrees c f s) {calls : List Call} (ordinary : ∀ call ∈ calls, call.IsOrdinary) :
    (run c f calls).2 = (s.run c calls).2.map .ok ∧
      Agrees c (run c f calls).1 (s.run c calls).1 := by
  -- Each call leaves file and scene in agreement, wherever they have come to.
  induction calls generalizing f s with
  | nil => exact ⟨rfl, agrees⟩
  | cons call calls ih =>
    obtain ⟨said, first⟩ := agrees.perform threshold cooldown call
      (ordinary call List.mem_cons_self)
    obtain ⟨more, last⟩ := ih first fun other mem => ordinary other (List.mem_cons_of_mem _ mem)
    refine ⟨?_, last⟩
    show (Circuit.perform c f call).2 ++ (Circuit.run c (Circuit.perform c f call).1 calls).2 =
      ((s.perform c call).2 ++ ((s.perform c call).1.run c calls).2).map .ok
    rw [said, more, List.map_append]

/-- What the history tells about a file, now and after one more update. -/
structure Follows (c : Config) (f : Disk.File) (s : Scene) : Prop where
  allow : ∀ clock, IsReading clock → Circuit.allow clock f = .ok (!blocks c s.past clock)
  /-- Under the lock of someone else, no update changes the file. -/
  locked : s.held = true → recordSuccess f = .ok f ∧
    ∀ clock, recordFailure c clock f = .ok f
  /-- Once there were failures enough, one more of them opens the circuit again. -/
  reopened : c.threshold ≤ failuresSince s.past → ∀ failed clock, IsReading failed →
    IsReading clock → reaches s.held s.past (.failure failed) = true →
      Circuit.allow clock (Circuit.perform c f (.recordFailure failed)).1 =
        .ok (!clock.lt (failed.add c.cooldown))
  closed : s.held = false → ∀ clock, IsReading clock →
    Circuit.allow clock (Circuit.perform c f .recordSuccess).1 = .ok true

theorem Agrees.follows (threshold : 1 ≤ c.threshold) (cooldown : c.cooldown.isFinite = true)
    (agrees : Agrees c f s) : Follows c f s where
  allow _ reading := agrees.allow threshold cooldown reading
  locked taken := by
    have unchanged := fun next => agrees.file.update next
    rw [agrees.held, taken] at unchanged
    exact ⟨unchanged _, fun clock => unchanged _⟩
  reopened enough failed clock seen reading reached := by
    have after := (agrees.perform threshold cooldown (.recordFailure failed) seen).2
    rw [after.allow threshold cooldown reading, Scene.perform, Scene.tell, if_pos reached]
    have more : c.threshold ≤ failuresSince (.failure failed :: s.past) := by
      rw [failuresSince]
      omega
    simp [blocks, lastFailure?, more]
  closed free clock reading := by
    have after := (agrees.perform threshold cooldown .recordSuccess trivial).2
    have reached : reaches s.held s.past .success = true := by
      rw [reaches, free, Bool.not_false]
    rw [after.allow threshold cooldown reading, Scene.perform, Scene.tell, if_pos reached]
    have few : ¬c.threshold ≤ failuresSince (.success :: s.past) := by
      rw [failuresSince]
      omega
    simp [blocks, few]

end

theorem failuresSince_le_length (past : List Update) : failuresSince past ≤ past.length := by
  induction past with
  | nil => exact Nat.le_refl 0
  | cons u past ih =>
    cases u with
    | success => exact Nat.zero_le _
    | failure clock => exact Nat.succ_le_succ ih

theorem Scene.length_tell (s : Scene) (u : Update) :
    (s.tell u).past.length ≤ s.past.length + 1 := by
  rw [tell]
  split
  · exact Nat.le_refl _
  · exact Nat.le_succ _

theorem Scene.length_run (c : Config) (s : Scene) (calls : List Call) :
    (s.run c calls).1.past.length ≤ s.past.length + calls.length := by
  induction calls generalizing s with
  | nil => exact Nat.le_refl _
  | cons call calls ih =>
    have first : (s.perform c call).1.past.length ≤ s.past.length + 1 := by
      cases call with
      | recordFailure clock => exact s.length_tell _
      | recordSuccess => exact s.length_tell _
      | allow clock => exact Nat.le_succ _
      | lock held => exact Nat.le_succ _
    have rest := ih (s.perform c call).1
    rw [List.length_cons]
    exact Nat.le_trans rest (by omega)

/-- A run has to be longer than any number of 4300 digits before a failure cannot be counted. -/
theorem Scene.reaches_of_short {c : Config} {held : Bool} {calls : List Call}
    (short : calls.length + 1 < tenTo Json.numeralLimit) (u : Update) :
    reaches (Scene.run c ⟨held, []⟩ calls).1.held (Scene.run c ⟨held, []⟩ calls).1.past u =
      !(Scene.run c ⟨held, []⟩ calls).1.held := by
  have length := Scene.length_run c ⟨held, []⟩ calls
  have counted := failuresSince_le_length (u :: (Scene.run c ⟨held, []⟩ calls).1.past)
  rw [List.length_nil] at length
  rw [List.length_cons] at counted
  have written : Json.hasNumeral (failuresSince (u :: (Scene.run c ⟨held, []⟩ calls).1.past)) = true
    := by
    rw [Json.hasNumeral, decide_eq_true_eq, Int.natAbs_natCast]
    exact Nat.lt_of_le_of_lt (by omega) short
  rw [reaches_eq, written, Bool.and_true]

/-- From a missing file, whatever calls are made around it, `allow` says what the history tells: the
circuit is open from the last of at least `threshold` failures in a row until the cooldown is over.
Only the lock stops an update, unless the run is too long for its failures to be counted. -/
theorem allow_eq_history {c : Config} (threshold : 1 ≤ c.threshold)
    (cooldown : c.cooldown.isFinite = true) {f : Disk.File} (missing : f.node = .missing)
    (reachable : f.blocked = false) {calls : List Call}
    (ordinary : ∀ call ∈ calls, call.IsOrdinary) :
    (run c f calls).2 = (Scene.run c ⟨f.held, []⟩ calls).2.map .ok ∧
      Follows c (run c f calls).1 (Scene.run c ⟨f.held, []⟩ calls).1 ∧
      (calls.length + 1 < tenTo Json.numeralLimit → ∀ u,
        reaches (Scene.run c ⟨f.held, []⟩ calls).1.held (Scene.run c ⟨f.held, []⟩ calls).1.past u =
          !(Scene.run c ⟨f.held, []⟩ calls).1.held) := by
  have agrees : Agrees c f ⟨f.held, []⟩ := ⟨rfl, holds_missing reachable missing, nofun⟩
  obtain ⟨said, after⟩ := agrees.run threshold cooldown ordinary
  exact ⟨said, after.follows threshold cooldown, Scene.reaches_of_short⟩

/-- Two failures open the circuit for a minute; a failure under the lock of someone else is lost,
and after the minute one more failure is enough. -/
def sampleCalls : List Call :=
  [.recordFailure (.ofNat 100), .allow (.ofNat 100), .recordFailure (.ofNat 110),
   .allow (.ofNat 169), .allow (.ofNat 170), .lock true, .recordFailure (.ofNat 180),
   .allow (.ofNat 180), .lock false, .recordFailure (.ofNat 150), .allow (.ofNat 209)]

theorem allow_eq_history_sample :
    (run ⟨2, .ofNat 60⟩ (.fresh "state" "circuit.json") sampleCalls).2 =
      [true, false, true, true, false].map .ok ∧
    (allow (.ofNat 210) (run ⟨2, .ofNat 60⟩ (.fresh "state" "circuit.json") sampleCalls).1 =
      .ok true) := by
  have reading : ∀ n : Nat, n ≤ 1000 → IsReading (.ofNat n) := fun n le =>
    have atMost := Binary64.ofNat_atMost (k := 10) (by decide) (Nat.le_trans le (by decide))
    ⟨atMost.isFinite, atMost.zero_le⟩
  have ordinary : ∀ call ∈ sampleCalls, call.IsOrdinary := by
    simp only [sampleCalls, List.forall_mem_cons]
    exact ⟨reading _ (by decide), reading _ (by decide), reading _ (by decide),
      reading _ (by decide), reading _ (by decide), trivial, reading _ (by decide),
      reading _ (by decide), trivial, reading _ (by decide), reading _ (by decide),
      fun _ mem => nomatch mem⟩
  have law := @allow_eq_history ⟨2, .ofNat 60⟩ (by decide) (by decide +kernel)
    (.fresh "state" "circuit.json") rfl rfl sampleCalls ordinary
  exact ⟨law.1.trans (by decide +kernel),
    (law.2.1.allow (.ofNat 210) (reading _ (by decide))).trans (by decide +kernel)⟩

end Circuit

end RedGreen
