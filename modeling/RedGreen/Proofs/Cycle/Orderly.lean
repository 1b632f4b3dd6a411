import RedGreen.Proofs.Cycle.Traffic

/-!
# Where everybody stands

`Orderly` says of the file, of the holder of the lock with its private copy of the document, and of
everybody else, where they stand in the order in which the calls got the lock.  It rests on what a
call does when it is made alone.
-/

namespace RedGreen

namespace Cycle

/-! ## A call alone -/

namespace Call

variable {k : Call} {f : Disk.File}

/-- A call changes nothing about a file but what stands at its path. -/
theorem alone_node (k : Call) (f : Disk.File) :
    ∃ node, (k.alone f).2 = { f with node := node } := by
  rw [alone, record_eq_plan]
  cases plan k.config k.now f k.branch k.phase k.time k.hash with
  | error e => exact ⟨f.node, rfl⟩
  | ok p =>
  cases p with
  | leave o => exact ⟨f.node, rfl⟩
  | replace document o =>
    dsimp only
    cases written : Document.write f (.obj document) with
    | error fault => exact ⟨f.node, rfl⟩
    | ok g => exact ⟨_, Document.write_eq_ok written⟩

/-- A call that finds the lock free makes its steps one after another. -/
theorem alone_eq (early : k.early? f = none) (free : f.held = false) :
    k.alone f =
      match Document.read f with
      | .error fault => (.error (.document fault), f)
      | .ok document =>
        match k.apply document with
        | .error e => (.error e, f)
        | .ok (document', observation) =>
          if observation.duplicate then (.ok observation, f)
          else match Document.write f (.obj document') with
            | .error fault => (.error (.document fault), f)
            | .ok g => (.ok observation, g) := by
  unfold early? at early
  rw [alone, record]
  unfold apply
  cases kind : isRed? k.phase with
  | none =>
    rw [kind] at early
    cases early
  | some isRed =>
  cases shown : k.time.toUtc? with
  | none =>
    simp only [kind, shown] at early
    cases early
  | some utc =>
  cases reachable : f.blocked with
  | true =>
    simp only [kind, shown, reachable, if_true] at early
    cases early
  | false =>
    have acquired : Document.acquire f k.config.lockTimeout = .ok () := by
      rw [Document.acquire_eq reachable, free]
      rfl
    generalize Document.acquire f k.config.lockTimeout = lock at acquired ⊢
    subst acquired
    rfl

end Call

section

variable {Caller : Type} {calls : Caller → Call} {f : Disk.File}

theorem serial_append (f : Disk.File) (first second : List Caller) :
    serial calls f (first ++ second) = serial calls (serial calls f first) second := by
  induction first generalizing f with
  | nil => rfl
  | cons caller more ih => exact ih _

theorem serial_snoc (f : Disk.File) (before : List Caller) (caller : Caller) :
    serial calls f (before ++ [caller]) = ((calls caller).alone (serial calls f before)).2 :=
  serial_append f before [caller]

theorem serial_node (calls : Caller → Call) (f : Disk.File) (order : List Caller) :
    ∃ node, serial calls f order = { f with node := node } := by
  induction order generalizing f with
  | nil => exact ⟨f.node, rfl⟩
  | cons caller more ih =>
    obtain ⟨node, after⟩ := (calls caller).alone_node f
    obtain ⟨node', rest⟩ := ih ((calls caller).alone f).2
    refine ⟨node', ?_⟩
    rw [serial, rest, after]

/-- Where a file stands does not change what is said without the lock. -/
theorem early?_node (k : Call) (f : Disk.File) (node : Disk.Node) :
    k.early? { f with node := node } = k.early? f := rfl

/-! ## The holder of the lock -/

/-- What the holder of the lock knows: `f` is the file when it got the lock, `g` the file now. -/
inductive Knows (k : Call) (f : Disk.File) : Progress → Disk.File → Prop where
  | locked : Knows k f .locked f
  | informed {document : Json.Members} (read : Document.read f = .ok document) :
    Knows k f (.informed document) f
  | decided {document document' : Json.Members} {o : Observation}
      (read : Document.read f = .ok document) (applied : k.apply document = .ok (document', o))
      (fresh : o.duplicate = false) : Knows k f (.decided document' o) f
  | closing {answer : Except StoreError Observation} {g : Disk.File}
      (whole : k.alone f = (answer, g)) : Knows k f (.closing answer) g

/-- What is said to a caller that did not get the lock. -/
def SaidOutside (k : Call) (f : Disk.File) (answer : Except StoreError Observation) : Prop :=
  k.early? f = some answer ∨ k.early? f = none ∧ answer = .ok .passedOver

/-- Every call, and every reply, has its place in the order in which the calls got the lock. -/
structure Orderly (calls : Caller → Call) (f : Disk.File) (s : Traffic Caller) : Prop where
  distinct : s.order.Nodup
  node : ∃ node, s.file = { f with node := node }
  entered : ∀ caller ∈ s.order, (calls caller).early? f = none
  free : s.holder = none → s.file = serial calls f s.order
  held : ∀ caller, s.holder = some caller → ∃ before, s.order = before ++ [caller] ∧
    Knows (calls caller) (serial calls f before) (s.progress caller) s.file
  left : ∀ before caller after, s.order = before ++ caller :: after → s.holder ≠ some caller →
    s.progress caller = .finished ((calls caller).alone (serial calls f before)).1
  outside : ∀ caller, caller ∉ s.order → s.progress caller = .outside ∨
    ∃ answer, s.progress caller = .finished answer ∧ SaidOutside (calls caller) f answer
  replies : ∀ p ∈ s.replies, ∃ before, before <+: s.order ∧ p.2 = p.1.ask (serial calls f before)

namespace Orderly

variable {s : Traffic Caller}

theorem early? (orderly : Orderly calls f s) (k : Call) : k.early? s.file = k.early? f := by
  obtain ⟨node, same⟩ := orderly.node
  rw [same, early?_node]

/-- Whoever is between taking the lock and letting it go holds it. -/
theorem holder_of_busy (orderly : Orderly calls f s) {caller : Caller}
    (begun : s.progress caller ≠ .outside)
    (unfinished : ∀ answer, s.progress caller ≠ .finished answer) : s.holder = some caller := by
  by_contra other
  by_cases mem : caller ∈ s.order
  · obtain ⟨before, after, order⟩ := List.append_of_mem mem
    exact unfinished _ (orderly.left before caller after order other)
  · rcases orderly.outside caller mem with waiting | ⟨answer, finished, _⟩
    · exact begun waiting
    · exact unfinished answer finished

/-- The file has the commit of the holder, or has it not. -/
theorem held_file (orderly : Orderly calls f s) {caller : Caller}
    (holds : s.holder = some caller) : ∃ before, s.order = before ++ [caller] ∧
      (s.file = serial calls f before ∨ s.file = serial calls f s.order) := by
  obtain ⟨before, order, knows⟩ := orderly.held caller holds
  refine ⟨before, order, ?_⟩
  generalize s.progress caller = p at knows
  generalize s.file = g at knows ⊢
  cases knows with
  | locked | informed | decided => exact .inl rfl
  | closing whole =>
    right
    rw [order, serial_snoc, whole]

/-- The file is what some of the calls in the order leave behind, one after another. -/
theorem file_serial (orderly : Orderly calls f s) :
    ∃ before, before <+: s.order ∧ s.file = serial calls f before := by
  cases holder : s.holder with
  | none => exact ⟨s.order, List.prefix_refl _, orderly.free holder⟩
  | some caller =>
    obtain ⟨before, order, old | new⟩ := orderly.held_file holder
    · exact ⟨before, ⟨[caller], order.symm⟩, old⟩
    · exact ⟨s.order, List.prefix_refl _, new⟩

/-- Where the holder of the lock stands. -/
theorem stands (orderly : Orderly calls f s) (unlocked : f.held = false) {caller : Caller}
    (holds : s.holder = some caller) :
    ∃ before, s.order = before ++ [caller] ∧
      Knows (calls caller) (serial calls f before) (s.progress caller) s.file ∧
      (calls caller).early? (serial calls f before) = none ∧
      (serial calls f before).held = false := by
  obtain ⟨before, order, knows⟩ := orderly.held caller holds
  obtain ⟨node, place⟩ := serial_node calls f before
  have entered := orderly.entered caller (by rw [order]; simp)
  refine ⟨before, order, knows, ?_, ?_⟩
  · rw [place, early?_node]
    exact entered
  · rw [place]
    exact unlocked

end Orderly

end

end Cycle

end RedGreen
