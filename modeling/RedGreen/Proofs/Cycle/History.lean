import RedGreen.Proofs.Cycle.Visits

/-!
# The store as a function of its history

What the store answers is told by the steps that it accepted so far, without looking at the file:
a hash counts once among the last hashes, and the latest step on a branch says whether its cycle
is open.
-/

namespace RedGreen

namespace Cycle

/-! ## Histories -/

/-- A step that the store took into account, with its time in UTC. -/
structure Accepted where
  branch : Text
  isRed : Bool
  time : DateTime
  hash : Option Text
  /-- What the clock showed when the step was taken. -/
  seenAt : DateTime

/-- The latest step on a branch, when it was a red one.  Histories have the newest step first. -/
def openRed (past : List Accepted) (branch : Text) : Option Accepted :=
  (past.find? fun a => decide (a.branch = branch)).filter Accepted.isRed

theorem openRed_cons (a : Accepted) (past : List Accepted) (b : Text) :
    openRed (a :: past) b = if a.branch = b then (if a.isRed then some a else none)
      else openRed past b := by
  by_cases same : a.branch = b
  · simp [openRed, same, Option.filter]
  · simp [openRed, same]

/-- The last hashes of a history that are not empty. -/
def lastHashes (n : Nat) (past : List Accepted) : List Text :=
  (past.filterMap fun a => countedHash a.hash).take n

def refuses (n : Nat) (past : List Accepted) (hash : Option Text) : Bool :=
  match countedHash hash with
  | none => false
  | some t => decide (t ∈ lastHashes n past)

/-- What a history tells about the next step. -/
def foretell (n : Nat) (past : List Accepted) (held : Bool) (branch : Text) (phase : Phase)
    (time : DateTime) (hash : Option Text) : Observation :=
  if phase ≠ .red ∧ phase ≠ .green then .empty
  else if held then { Observation.empty with skipped := true }
  else if refuses n past hash then { Observation.empty with duplicate := true }
  else match openRed past branch with
    | none => { Observation.empty with orphan := decide (phase = .green) }
    | some red =>
      if phase = .red then { Observation.empty with abandonedRedAt := some red.time }
      else
        { Observation.empty with
          duration := some (.max (time.since red.time) .zero)
          cycleStartedAt := some red.time }

/-- The history after a step. -/
def extend (n : Nat) (past : List Accepted) (held : Bool) (now : DateTime) (branch : Text)
    (phase : Phase) (time : DateTime) (hash : Option Text) : List Accepted :=
  if (phase = .red ∨ phase = .green) ∧ held = false ∧ refuses n past hash = false then
    ⟨branch, decide (phase = .red), time, hash, now⟩ :: past
  else past

/-! ## The ledger of a history -/

namespace Accepted

def opening (a : Accepted) : Opening := ⟨a.time, a.hash, a.seenAt⟩

end Accepted

namespace Ledger

def ofPast (n : Nat) (past : List Accepted) : Ledger where
  hashes := (lastHashes n past).reverse
  opened b := (openRed past b).map Accepted.opening

theorem ofPast_nil (n : Nat) : ofPast n [] = empty := by
  simp [ofPast, lastHashes, openRed, empty]

theorem knows_ofPast (n : Nat) (past : List Accepted) (hash : Option Text) :
    (ofPast n past).knows hash = refuses n past hash := by
  rw [knows, refuses]
  cases countedHash hash with
  | none => rfl
  | some t =>
    rw [Bool.eq_iff_iff]
    simp [ofPast]

/-- Keeping the last hashes behind one more is the same as counting from the newest. -/
theorem keepLast_reverse {n : Nat} (atLeastOne : 1 ≤ n) (t : Text) (ts : List Text) :
    keepLast n ((ts.take n).reverse ++ [t]) = ((t :: ts).take n).reverse := by
  obtain ⟨m, rfl⟩ : ∃ m, n = m + 1 := ⟨n - 1, by omega⟩
  -- A list of none to remember is kept whole, so at least one is needed.
  have positive : (0 : Int) < ((m + 1 : Nat) : Int) := by omega
  rw [← List.reverse_cons, keepLast, if_pos positive, List.drop_reverse, Int.toNat_natCast,
    List.length_reverse]
  have same : (t :: ts.take (m + 1)).take ((t :: ts.take (m + 1)).length -
      ((t :: ts.take (m + 1)).length - (m + 1))) = (t :: ts.take (m + 1)).take (m + 1) := by
    rw [List.take_eq_take_iff]
    omega
  rw [same, List.take_succ_cons, List.take_succ_cons, List.take_take,
    Nat.min_eq_left (Nat.le_succ m)]

theorem take_ofPast {n : Nat} (atLeastOne : 1 ≤ n) (past : List Accepted) (now : DateTime)
    (branch : Text) (isRed : Bool) (time : DateTime) (hash : Option Text) :
    (ofPast n past).take n now branch isRed time hash =
      ofPast n (⟨branch, isRed, time, hash, now⟩ :: past) := by
  rw [take, ofPast, ofPast, Ledger.mk.injEq]
  constructor
  · cases counted : countedHash hash with
    | none => simp [lastHashes, counted]
    | some t =>
      have last : lastHashes n (⟨branch, isRed, time, hash, now⟩ :: past) =
          (t :: past.filterMap fun a => countedHash a.hash).take n := by
        simp [lastHashes, counted]
      rw [last]
      exact keepLast_reverse atLeastOne t _
  · funext b
    rw [openRed_cons]
    by_cases same : branch = b
    · cases isRed <;> simp [same, Accepted.opening]
    · simp [same]

theorem observe_ofPast (n : Nat) (past : List Accepted) (branch : Text) (isRed : Bool)
    (time : DateTime) :
    (ofPast n past).observe branch isRed time = match openRed past branch with
      | none => { Observation.empty with orphan := !isRed }
      | some red =>
        if isRed then { Observation.empty with abandonedRedAt := some red.time }
        else
          { Observation.empty with
            duration := some (.max (time.since red.time) .zero)
            cycleStartedAt := some red.time } := by
  cases found : openRed past branch <;> cases isRed <;>
    simp [observe, ofPast, found, Accepted.opening, Observation.empty]

/-- A visit of the ledger of a history is what the history tells. -/
theorem visit_ofPast {n : Nat} (atLeastOne : 1 ≤ n) (past : List Accepted) (held : Bool)
    (now : DateTime) (branch : Text) (phase : Phase) {time utc : DateTime}
    (shown : time.toUtc? = some utc) (hash : Option Text) :
    (ofPast n past).visit n held now branch phase time hash =
      (foretell n past held branch phase utc hash,
        ofPast n (extend n past held now branch phase utc hash)) := by
  have counted : ∀ isRed, isRed? phase = some isRed → isRed = decide (phase = .red) := by
    cases phase <;> simp [isRed?]
  -- The ledger asks whether a phase is paired, the history whether it is red or green.
  have relevant : (isRed? phase).isSome = decide (phase = .red ∨ phase = .green) := by
    cases phase <;> rfl
  rw [visit, shown]
  cases kind : isRed? phase with
  | none =>
    have other : ¬(phase = .red ∨ phase = .green) := by
      simpa [kind] using relevant
    rw [foretell, extend, if_pos (not_or.mp other), if_neg fun h => other h.1]
  | some isRed =>
    have paired : phase = .red ∨ phase = .green := by
      simpa [kind] using relevant
    obtain rfl := counted isRed kind
    have answered : ¬(phase ≠ .red ∧ phase ≠ .green) := not_and_or.mpr
      (paired.imp not_not_intro not_not_intro)
    rw [foretell, if_neg answered, extend]
    simp only [knows_ofPast, observe_ofPast, take_ofPast atLeastOne]
    cases held with
    | true => simp [Observation.passedOver]
    | false =>
      cases refuses n past hash with
      | true => simp
      | false =>
        have green : (!decide (phase = .red)) = decide (phase = .green) := by
          rcases paired with rfl | rfl <;> rfl
        simp only [green, paired, decide_eq_true_eq, Bool.false_eq_true, if_false, and_self,
          if_true]

end Ledger

/-! ## Runs -/

/-- What may happen around a file of open cycles. -/
inductive Move where
  | record (branch : Text) (phase : Phase) (time : DateTime) (hash : Option Text)
  /-- Another store over the same file. -/
  | reopen (lockTimeout : Binary64)
  | clock (now : DateTime)
  /-- Someone else takes the lock, or lets it go. -/
  | lock (held : Bool)

structure World where
  config : StoreConfig
  now : DateTime
  file : Disk.File

namespace World

/-- One move, and what the store says to it. -/
def perform (w : World) : Move → World × List (Except StoreError Observation)
  | .record branch phase time hash =>
    let (answer, file) := Cycle.record w.config w.now w.file branch phase time hash
    ({ w with file := file }, [answer])
  | .reopen lockTimeout => ({ w with config := { w.config with lockTimeout := lockTimeout } }, [])
  | .clock now => ({ w with now := now }, [])
  | .lock held => ({ w with file := { w.file with held := held } }, [])

def run (w : World) : List Move → World × List (Except StoreError Observation)
  | [] => (w, [])
  | m :: ms =>
    let (w, said) := w.perform m
    let (w, more) := w.run ms
    (w, said ++ more)

end World

/-- What an onlooker knows who never reads the file. -/
structure Scene where
  now : DateTime
  held : Bool
  past : List Accepted

namespace Scene

/-- One move, and what the history tells that the store will say to it. -/
def perform (n : Nat) (s : Scene) : Move → Scene × List Observation
  | .record branch phase time hash =>
    match time.toUtc? with
    | none => (s, [])
    | some utc =>
      ({ s with past := extend n s.past s.held s.now branch phase utc hash },
        [foretell n s.past s.held branch phase utc hash])
  | .reopen _ => (s, [])
  | .clock now => ({ s with now := now }, [])
  | .lock held => ({ s with held := held }, [])

def run (n : Nat) (s : Scene) : List Move → Scene × List Observation
  | [] => (s, [])
  | m :: ms =>
    let (s, told) := s.perform n m
    let (s, more) := s.run n ms
    (s, told ++ more)

/-- What the history tells about a branch. -/
def state? (s : Scene) (branch : Text) : Option State :=
  (openRed s.past branch).map fun red => ⟨branch, some red.time, red.hash, red.seenAt⟩

end Scene

/-- The clock shows UTC, times can be shown in UTC, and names and hashes survive in a document. -/
def Move.IsOrdinary : Move → Prop
  | .record branch phase time hash =>
    branch ≠ [] ∧ (phase = .red → branch.IsScalar) ∧ time.toUtc?.isSome ∧
      ∀ t ∈ hash, t.Joinless
  | .clock now => now.IsUtc
  | .reopen _ | .lock _ => True

/-- The file holds what the history tells. -/
structure Agrees (n : Nat) (w : World) (s : Scene) : Prop where
  remembered : w.config.remembered = n
  clock : w.now.IsUtc
  now : w.now = s.now
  held : w.file.held = s.held
  file : Holds w.file (.ofPast n s.past)

theorem Agrees.perform {n : Nat} (atLeastOne : 1 ≤ n) {w : World} {s : Scene}
    (agrees : Agrees n w s) {m : Move} (ordinary : m.IsOrdinary) :
    (w.perform m).2 = (s.perform n m).2.map .ok ∧
      Agrees n (w.perform m).1 (s.perform n m).1 := by
  cases m with
  | record branch phase time hash =>
    obtain ⟨nonempty, scalar, inRange, spelled⟩ := ordinary
    obtain ⟨utc, shown⟩ := Option.isSome_iff_exists.mp inRange
    obtain ⟨g, recorded, holds, held⟩ := record_eq_visit agrees.file w.config agrees.clock inRange
      (fun red => ⟨scalar red, nonempty⟩) spelled
    -- The file does what the ledger says, and the ledger what the history tells.
    rw [agrees.remembered, Ledger.visit_ofPast atLeastOne _ _ _ _ _ shown] at recorded holds
    rw [World.perform, Scene.perform, recorded, shown]
    refine ⟨?_, agrees.remembered, agrees.clock, agrees.now, held.trans agrees.held, ?_⟩
    · rw [agrees.held]
      rfl
    · rw [← agrees.held, ← agrees.now]
      exact holds
  | reopen lockTimeout =>
    exact ⟨rfl, agrees.remembered, agrees.clock, agrees.now, agrees.held, agrees.file⟩
  | clock now => exact ⟨rfl, agrees.remembered, ordinary, rfl, agrees.held, agrees.file⟩
  | lock held =>
    exact ⟨rfl, agrees.remembered, agrees.clock, agrees.now, rfl, agrees.file.lock held⟩

theorem Agrees.run {n : Nat} (atLeastOne : 1 ≤ n) {w : World} {s : Scene} (agrees : Agrees n w s)
    {moves : List Move} (ordinary : ∀ m ∈ moves, m.IsOrdinary) :
    (w.run moves).2 = (s.run n moves).2.map .ok ∧ Agrees n (w.run moves).1 (s.run n moves).1 := by
  -- Each move leaves world and scene in agreement, wherever they have come to.
  induction moves generalizing w s with
  | nil => exact ⟨rfl, agrees⟩
  | cons m moves ih =>
    obtain ⟨said, first⟩ := agrees.perform atLeastOne (ordinary m List.mem_cons_self)
    obtain ⟨more, last⟩ := ih first fun m mem => ordinary m (List.mem_cons_of_mem _ mem)
    refine ⟨?_, last⟩
    show (w.perform m).2 ++ ((w.perform m).1.run moves).2 =
      ((s.perform n m).2 ++ ((s.perform n m).1.run n moves).2).map .ok
    rw [said, more, List.map_append]

/-- From a missing file, whatever happens, the store says to every step what the history tells, and
keeps about every branch what the history tells. -/
theorem run_eq_history {c : StoreConfig} {n : Nat} (remembered : c.remembered = n)
    (atLeastOne : 1 ≤ n) {f : Disk.File} (missing : f.node = .missing)
    (reachable : f.blocked = false) {now : DateTime} (clock : now.IsUtc) {moves : List Move}
    (ordinary : ∀ m ∈ moves, m.IsOrdinary) :
    (World.run ⟨c, now, f⟩ moves).2 = (Scene.run n ⟨now, f.held, []⟩ moves).2.map .ok ∧
      ∀ later branch, get later (World.run ⟨c, now, f⟩ moves).1.file branch =
        .ok ((Scene.run n ⟨now, f.held, []⟩ moves).1.state? branch) := by
  have agrees : Agrees n ⟨c, now, f⟩ ⟨now, f.held, []⟩ :=
    ⟨remembered, clock, rfl, rfl, Ledger.ofPast_nil n ▸ holds_missing reachable missing⟩
  obtain ⟨said, after⟩ := agrees.run atLeastOne ordinary
  refine ⟨said, fun later branch => ?_⟩
  rw [get_eq_state? after.file, Ledger.state?, Scene.state?]
  show _ = Except.ok _
  rw [Ledger.ofPast, Option.map_map]
  rfl

/-- A cycle of ten minutes, with a step that finds the lock taken and one that comes twice. -/
def sampleMoves : List Move :=
  [.record "main" .red (.minute 0) (some "a"), .lock true,
   .record "main" .green (.minute 5) (some "b"), .lock false,
   .record "main" .red (.minute 6) (some "a"), .reopen .zero, .clock (.minute 9),
   .record "main" .green (.minute 10) (some "b")]

theorem run_eq_history_sample :
    (World.run ⟨⟨.zero, 200⟩, .minute 1, .fresh "state" "state.json"⟩ sampleMoves).2 =
      [Observation.empty, { Observation.empty with skipped := true },
       { Observation.empty with duplicate := true },
       { Observation.empty with
         duration := some ⟨600000000, by decide, by decide⟩
         cycleStartedAt := some (.minute 0) }].map .ok ∧
    get (.minute 9) (World.run ⟨⟨.zero, 200⟩, .minute 1, .fresh "state" "state.json"⟩
      sampleMoves).1.file "main" = .ok none := by
  have ordinary : ∀ m ∈ sampleMoves, m.IsOrdinary := by
    have name : Text.IsScalar "main" := by decide
    have first : ∀ t ∈ some (Text.ofString "a"), t.Joinless := by
      rintro t ⟨⟩
      exact Text.IsScalar.joinless (by decide)
    have second : ∀ t ∈ some (Text.ofString "b"), t.Joinless := by
      rintro t ⟨⟩
      exact Text.IsScalar.joinless (by decide)
    have shown : ∀ n, (DateTime.minute n).toUtc?.isSome := by
      intro n
      have utc : (DateTime.minute n).IsUtc := rfl
      rw [utc.toUtc?]
      rfl
    simp only [sampleMoves, List.forall_mem_cons]
    exact ⟨⟨by decide, fun _ => name, shown 0, first⟩, trivial,
      ⟨by decide, fun _ => name, shown 5, second⟩, trivial,
      ⟨by decide, fun _ => name, shown 6, first⟩, trivial, rfl,
      ⟨by decide, fun _ => name, shown 10, second⟩, fun _ mem => nomatch mem⟩
  have law := @run_eq_history ⟨.zero, 200⟩ 200 rfl (by decide) (.fresh "state" "state.json") rfl rfl
    (.minute 1) rfl sampleMoves ordinary
  exact ⟨law.1.trans (by decide +kernel), (law.2 _ _).trans rfl⟩

/-- Where the names and hashes are no ordinary texts, the history does not tell the answers: a red
step on a branch whose name holds half of a surrogate pair is rejected, and a hash of two halves is
not known again, because the document joins them. -/
theorem run_differs_from_history :
    ∃ moves moves',
      (∀ m ∈ moves ++ moves', ∃ branch hash,
        branch ≠ [] ∧ m = .record branch .red (.minute 0) hash) ∧
      (World.run ⟨⟨.zero, 200⟩, .minute 1, .fresh "state" "state.json"⟩ moves).2 ≠
        (Scene.run 200 ⟨.minute 1, false, []⟩ moves).2.map .ok ∧
      (World.run ⟨⟨.zero, 200⟩, .minute 1, .fresh "state" "state.json"⟩ moves').2 ≠
        (Scene.run 200 ⟨.minute 1, false, []⟩ moves').2.map .ok := by
  refine ⟨[.record [.ofNat 0xD800] .red (.minute 0) (some "a")],
    [.record "main" .red (.minute 0) (some [.ofNat 0xD83D, .ofNat 0xDE00]),
      .record "main" .red (.minute 0) (some [.ofNat 0xD83D, .ofNat 0xDE00])], ?_, ?_, ?_⟩
  · intro m mem
    simp only [List.cons_append, List.nil_append, List.mem_cons, List.not_mem_nil, or_false] at mem
    rcases mem with rfl | rfl | rfl <;> exact ⟨_, _, by decide, rfl⟩
  · decide +kernel
  · decide +kernel

end Cycle

end RedGreen
