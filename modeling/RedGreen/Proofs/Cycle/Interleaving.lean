import RedGreen.Proofs.Cycle.Orderly

/-!
# Interleaved calls come one after another

Whatever turns the callers take, the calls that got the lock answer and leave the file as if each
had been made alone, one after another, in the order in which they got it.  What carries this is
`Orderly`, which every turn preserves.
-/

namespace RedGreen

namespace Cycle

/-! ## One turn -/

section

variable {Caller : Type} {calls : Caller → Call} {f : Disk.File} {s s' : Traffic Caller}

/-- A caller has one place in the order. -/
theorem place_unique {xs ys xs' ys' : List Caller} {caller : Caller}
    (distinct : (xs ++ caller :: ys).Nodup) (same : xs ++ caller :: ys = xs' ++ caller :: ys') :
    xs = xs' := by
  induction xs generalizing xs' with
  | nil =>
    cases xs' with
    | nil => rfl
    | cons x xs' =>
      rw [List.nil_append, List.cons_append, List.cons.injEq] at same
      rw [List.nil_append, List.nodup_cons, same.2] at distinct
      exact absurd (by simp) distinct.1
  | cons x xs ih =>
    rw [List.cons_append, List.nodup_cons] at distinct
    cases xs' with
    | nil =>
      rw [List.nil_append, List.cons_append, List.cons.injEq] at same
      rw [same.1] at distinct
      exact absurd (by simp) distinct.1
    | cons x' xs' =>
      rw [List.cons_append, List.cons_append, List.cons.injEq] at same
      rw [same.1, ih distinct.2 same.2]

namespace Orderly

variable [DecidableEq Caller]

/-- The holder of the lock goes on; everybody else stays where they are. -/
theorem advance (orderly : Orderly calls f s) {caller : Caller} (holds : s.holder = some caller)
    {before : List Caller} (order : s.order = before ++ [caller]) {p : Progress} {g : Disk.File}
    (node : ∃ node, g = { f with node := node })
    (knows : Knows (calls caller) (serial calls f before) p g) :
    Orderly calls f { s.advance caller p with file := g } where
  distinct := orderly.distinct
  node := node
  entered := orderly.entered
  free := by
    intro nobody
    change s.holder = none at nobody
    rw [holds] at nobody
    cases nobody
  held := by
    intro other same
    change s.holder = some other at same
    rw [holds] at same
    cases same
    refine ⟨before, order, ?_⟩
    show Knows _ _ ((s.advance caller p).progress caller) g
    rw [Traffic.advance_self]
    exact knows
  left := by
    intro first other after place away
    have differs : other ≠ caller := by
      rintro rfl
      exact away holds
    show (s.advance caller p).progress other = _
    rw [Traffic.advance_of_ne s differs]
    exact orderly.left first other after place away
  outside := by
    intro other absent
    have differs : other ≠ caller := by
      rintro rfl
      refine absent ?_
      show other ∈ s.order
      rw [order]
      simp
    show (s.advance caller p).progress other = .outside ∨
      ∃ answer, (s.advance caller p).progress other = .finished answer ∧ _
    rw [Traffic.advance_of_ne s differs]
    exact orderly.outside other absent
  replies := orderly.replies

/-- Somebody who is not in the order is told something. -/
theorem tell (orderly : Orderly calls f s) {caller : Caller}
    (waiting : s.progress caller = .outside) {answer : Except StoreError Observation}
    (said : SaidOutside (calls caller) f answer) :
    Orderly calls f (s.advance caller (.finished answer)) where
  distinct := orderly.distinct
  node := orderly.node
  entered := orderly.entered
  free := orderly.free
  held := by
    intro other holds
    have knows := orderly.held other holds
    have differs : other ≠ caller := by
      rintro rfl
      obtain ⟨before, _, knows⟩ := knows
      rw [waiting] at knows
      cases knows
    rw [Traffic.advance_of_ne s differs]
    exact knows
  left := by
    intro first other after place away
    have finished := orderly.left first other after place away
    have differs : other ≠ caller := by
      rintro rfl
      rw [waiting] at finished
      cases finished
    rw [Traffic.advance_of_ne s differs]
    exact finished
  outside := by
    intro other absent
    by_cases same : other = caller
    · subst same
      rw [Traffic.advance_self]
      exact .inr ⟨answer, rfl, said⟩
    · rw [Traffic.advance_of_ne s same]
      exact orderly.outside other absent
  replies := orderly.replies

theorem lock (orderly : Orderly calls f s) {caller : Caller}
    (waiting : s.progress caller = .outside) (early : (calls caller).early? f = none)
    (nobody : s.holder = none) :
    Orderly calls f { s.advance caller .locked with
      holder := some caller
      order := s.order ++ [caller] } := by
  -- Whoever was in the order before is finished by now.
  have settled : ∀ before other after, s.order = before ++ other :: after →
      s.progress other = .finished ((calls other).alone (serial calls f before)).1 := by
    intro before other after place
    refine orderly.left before other after place ?_
    rw [nobody]
    exact nofun
  have absent : caller ∉ s.order := by
    intro mem
    obtain ⟨before, after, place⟩ := List.append_of_mem mem
    have finished := settled before caller after place
    rw [waiting] at finished
    cases finished
  refine
    { distinct := ?_
      node := orderly.node
      entered := ?_
      free := nofun
      held := ?_
      left := ?_
      outside := ?_
      replies := ?_ }
  · exact List.nodup_append.mpr ⟨orderly.distinct, List.nodup_singleton caller,
      fun x mem y single same => absent (by rwa [← List.mem_singleton.mp single, ← same])⟩
  · intro other mem
    rcases List.mem_append.mp mem with old | new
    · exact orderly.entered other old
    · rw [List.mem_singleton.mp new]
      exact early
  · intro other same
    cases same
    refine ⟨s.order, rfl, ?_⟩
    show Knows _ _ ((s.advance caller .locked).progress caller) s.file
    rw [Traffic.advance_self, orderly.free nobody]
    exact .locked
  · intro before other after place away
    have differs : other ≠ caller := fun same => away (by rw [same])
    show (s.advance caller .locked).progress other = _
    rw [Traffic.advance_of_ne s differs]
    -- The new caller is the last in the order, so the others keep their places.
    rcases List.eq_nil_or_concat after with rfl | ⟨front, last, rfl⟩
    · have ends := (List.append_inj' place rfl).2
      rw [List.cons.injEq] at ends
      exact absurd ends.1.symm differs
    · have place : s.order ++ [caller] = (before ++ other :: front) ++ [last] := by
        rw [show s.order ++ [caller] = before ++ other :: front.concat last from place]
        simp
      exact settled before other front (List.append_inj' place rfl).1
  · intro other absent'
    have differs : other ≠ caller := by
      rintro rfl
      exact absent' (by simp)
    show (s.advance caller .locked).progress other = .outside ∨
      ∃ answer, (s.advance caller .locked).progress other = .finished answer ∧ _
    rw [Traffic.advance_of_ne s differs]
    exact orderly.outside other fun mem => absent' (List.mem_append_left _ mem)
  · intro p mem
    obtain ⟨before, start, reply⟩ := orderly.replies p mem
    exact ⟨before, start.trans (List.prefix_append _ _), reply⟩

theorem attempt (orderly : Orderly calls f s) {caller : Caller}
    (taken : s.turn calls (.attempt caller) = some s') : Orderly calls f s' := by
  rw [Traffic.turn] at taken
  split at taken
  next waiting =>
    rw [orderly.early?] at taken
    split at taken
    next answer early =>
      cases taken
      exact orderly.tell waiting (.inl early)
    next early =>
      split at taken
      next =>
        cases taken
        exact orderly
      next nobody =>
        cases taken
        exact orderly.lock waiting early nobody
  next => cases taken

theorem giveUp (orderly : Orderly calls f s) {caller : Caller}
    (taken : s.turn calls (.giveUp caller) = some s') : Orderly calls f s' := by
  rw [Traffic.turn] at taken
  split at taken
  next waiting early _ =>
    rw [orderly.early?] at early
    cases taken
    exact orderly.tell waiting (.inr ⟨early, rfl⟩)
  next => cases taken

theorem read (orderly : Orderly calls f s) (unlocked : f.held = false) {caller : Caller}
    (taken : s.turn calls (.read caller) = some s') : Orderly calls f s' := by
  rw [Traffic.turn] at taken
  split at taken
  next locked =>
    have holds : s.holder = some caller := orderly.holder_of_busy (by rw [locked]; exact nofun)
      (by rw [locked]; exact fun _ => nofun)
    obtain ⟨before, order, knows, early, free⟩ := orderly.stands unlocked holds
    rw [locked] at knows
    generalize same : s.file = g at knows
    cases knows
    split at taken
    next fault failed =>
      cases taken
      refine orderly.advance holds order orderly.node (.closing ?_)
      rw [same] at failed ⊢
      rw [Call.alone_eq early free, failed]
    next document success =>
      cases taken
      refine orderly.advance holds order orderly.node ?_
      rw [same] at success ⊢
      exact .informed success
  next => cases taken

theorem apply (orderly : Orderly calls f s) (unlocked : f.held = false) {caller : Caller}
    (taken : s.turn calls (.apply caller) = some s') : Orderly calls f s' := by
  rw [Traffic.turn] at taken
  split at taken
  next document informed =>
    have holds : s.holder = some caller := orderly.holder_of_busy (by rw [informed]; exact nofun)
      (by rw [informed]; exact fun _ => nofun)
    obtain ⟨before, order, knows, early, free⟩ := orderly.stands unlocked holds
    rw [informed] at knows
    generalize same : s.file = g at knows
    cases knows with
    | informed success =>
    split at taken
    next e failed =>
      cases taken
      refine orderly.advance holds order orderly.node (.closing ?_)
      rw [same, Call.alone_eq early free, success]
      simp only [failed]
    next document' o applied =>
      split at taken
      next duplicate =>
        cases taken
        refine orderly.advance holds order orderly.node (.closing ?_)
        rw [same, Call.alone_eq early free, success]
        simp only [applied, duplicate, if_true]
      next fresh =>
        cases taken
        refine orderly.advance holds order orderly.node ?_
        rw [same]
        exact .decided success applied (Bool.eq_false_iff.mpr fresh)
  next => cases taken

theorem replace (orderly : Orderly calls f s) (unlocked : f.held = false) {caller : Caller}
    (taken : s.turn calls (.replace caller) = some s') : Orderly calls f s' := by
  rw [Traffic.turn] at taken
  split at taken
  next document o decided =>
    have holds : s.holder = some caller := orderly.holder_of_busy (by rw [decided]; exact nofun)
      (by rw [decided]; exact fun _ => nofun)
    obtain ⟨before, order, knows, early, free⟩ := orderly.stands unlocked holds
    rw [decided] at knows
    generalize same : s.file = g at knows
    cases knows with
    | decided success applied fresh =>
    -- The private copy was made from the document that is still in the file.
    have whole := Call.alone_eq early free
    simp only [success, applied, fresh, Bool.false_eq_true, if_false] at whole
    split at taken
    next fault failed =>
      cases taken
      rw [same] at failed
      refine orderly.advance holds order orderly.node (.closing ?_)
      rw [same, whole, failed]
    next g written =>
      cases taken
      rw [same] at written
      obtain ⟨node, place⟩ := orderly.node
      refine orderly.advance holds order ⟨.regular (Document.bytesOf (.obj document)), ?_⟩
        (.closing ?_)
      · rw [Document.write_eq_ok written, ← same, place]
      · rw [whole, written]
  next => cases taken

theorem release (orderly : Orderly calls f s) {caller : Caller}
    (taken : s.turn calls (.release caller) = some s') : Orderly calls f s' := by
  rw [Traffic.turn] at taken
  split at taken
  next answer closing =>
    have holds : s.holder = some caller := orderly.holder_of_busy (by rw [closing]; exact nofun)
      (by rw [closing]; exact fun _ => nofun)
    obtain ⟨before, order, knows⟩ := orderly.held caller holds
    rw [closing] at knows
    generalize same : s.file = g at knows
    cases knows with
    | closing whole =>
    cases taken
    refine
      { distinct := orderly.distinct
        node := orderly.node
        entered := orderly.entered
        free := fun _ => ?_
        held := nofun
        left := ?_
        outside := ?_
        replies := orderly.replies }
    · show s.file = serial calls f s.order
      rw [same, order, serial_snoc, whole]
    · intro first other after place _
      show (s.advance caller (.finished answer)).progress other = _
      by_cases mine : other = caller
      · subst mine
        have distinct := orderly.distinct
        change s.order = _ at place
        rw [order] at place distinct
        rw [Traffic.advance_self, ← place_unique distinct place, whole]
      · rw [Traffic.advance_of_ne s mine]
        refine orderly.left first other after place fun same => mine ?_
        rw [holds] at same
        exact (Option.some.inj same).symm
    · intro other absent
      have differs : other ≠ caller := by
        rintro rfl
        refine absent ?_
        show other ∈ s.order
        rw [order]
        simp
      show (s.advance caller (.finished answer)).progress other = .outside ∨
        ∃ answer', (s.advance caller (.finished answer)).progress other = .finished answer' ∧ _
      rw [Traffic.advance_of_ne s differs]
      exact orderly.outside other absent
  next => cases taken

theorem ask (orderly : Orderly calls f s) {question : Question}
    (taken : s.turn calls (.ask question) = some s') : Orderly calls f s' := by
  cases taken
  refine ⟨orderly.distinct, orderly.node, orderly.entered, orderly.free, orderly.held,
    orderly.left, orderly.outside, fun p mem => ?_⟩
  rcases List.mem_append.mp mem with old | new
  · exact orderly.replies p old
  · obtain ⟨before, start, file⟩ := orderly.file_serial
    rw [List.mem_singleton.mp new]
    exact ⟨before, start, by rw [file]⟩

/-- Every turn keeps everybody in their place. -/
theorem turn (orderly : Orderly calls f s) (unlocked : f.held = false) {t : Turn Caller}
    (taken : s.turn calls t = some s') : Orderly calls f s' := by
  cases t with
  | attempt caller => exact orderly.attempt taken
  | giveUp caller => exact orderly.giveUp taken
  | read caller => exact orderly.read unlocked taken
  | apply caller => exact orderly.apply unlocked taken
  | replace caller => exact orderly.replace unlocked taken
  | release caller => exact orderly.release taken
  | ask question => exact orderly.ask taken

end Orderly

/-! ## Whole runs -/

theorem orderly_start (calls : Caller → Call) (f : Disk.File) :
    Orderly calls { f with held := false } (Traffic.start f) where
  distinct := List.nodup_nil
  node := ⟨f.node, rfl⟩
  entered caller mem := absurd mem List.not_mem_nil
  free _ := rfl
  held caller holds := by cases holds
  left before caller after place := by simp [Traffic.start] at place
  outside _ _ := .inl rfl
  replies p mem := absurd mem List.not_mem_nil

/-- What happened, told as calls one after another in the order in which they got the lock. -/
structure Serialized (calls : Caller → Call) (f : Disk.File) (s : Traffic Caller) : Prop where
  once : s.order.Nodup
  /-- While nobody holds the lock, the file is what the calls leave behind. -/
  settled : s.holder = none → s.file = serial calls f s.order
  /-- The holder is the last in the order, and the file has its commit or has it not. -/
  underWay : ∀ caller, s.holder = some caller → ∃ before, s.order = before ++ [caller] ∧
    (s.file = serial calls f before ∨ s.file = serial calls f s.order)
  /-- Whoever has let the lock go was told what the call alone would have been told. -/
  answers : ∀ before caller after, s.order = before ++ caller :: after →
    s.holder ≠ some caller →
      s.progress caller = .finished ((calls caller).alone (serial calls f before)).1
  /-- Whoever was told something without having got the lock was passed over, or needs no lock. -/
  outside : ∀ caller, caller ∉ s.order → ∀ answer, s.progress caller = .finished answer →
    SaidOutside (calls caller) f answer
  /-- Whoever asked was told of the file between two calls. -/
  replies : ∀ p ∈ s.replies, ∃ before, before <+: s.order ∧ p.2 = p.1.ask (serial calls f before)

theorem Orderly.serialized (orderly : Orderly calls f s) : Serialized calls f s where
  once := orderly.distinct
  settled := orderly.free
  underWay _ := orderly.held_file
  answers := orderly.left
  outside caller absent answer finished := by
    rcases orderly.outside caller absent with waiting | ⟨told, progress, said⟩
    · rw [waiting] at finished
      cases finished
    · rw [progress] at finished
      cases finished
      exact said
  replies := orderly.replies

variable [DecidableEq Caller]

theorem Orderly.run (unlocked : f.held = false) {turns : List (Turn Caller)}
    (orderly : Orderly calls f s) (ran : s.run calls turns = some s') : Orderly calls f s' := by
  induction turns generalizing s with
  | nil =>
    cases ran
    exact orderly
  | cons t ts ih =>
    rw [Traffic.run] at ran
    split at ran
    next => cases ran
    next next taken => exact ih (orderly.turn unlocked taken) ran

/-- Whatever turns the callers take, it is as if the calls that got the lock had been made one after
another. -/
theorem interleaving_is_serial (calls : Caller → Call) (f : Disk.File) {turns : List (Turn Caller)}
    (ran : (Traffic.start f).run calls turns = some s) :
    Serialized calls { f with held := false } s :=
  ((orderly_start calls f).run rfl ran).serialized

end

/-- Two calls on one branch and one that is passed over. -/
def sampleCalls : Fin 3 → Call
  | 0 => ⟨⟨.zero, 200⟩, .minute 1, "main", .red, .minute 0, some "a"⟩
  | 1 => ⟨⟨.zero, 200⟩, .minute 6, "main", .green, .minute 5, some "b"⟩
  | 2 => ⟨⟨.zero, 200⟩, .minute 6, "main", .red, .minute 6, some "c"⟩

def sampleTurns : List (Turn (Fin 3)) :=
  [.attempt 0, .attempt 1, .read 0, .ask (.get (.minute 9) "main"), .apply 0, .giveUp 2,
   .replace 0, .ask (.get (.minute 9) "main"), .release 0, .attempt 1, .read 1, .apply 1,
   .replace 1, .release 1]

theorem interleaving_is_serial_sample : ∃ s,
    (Traffic.start (.fresh "state" "state.json")).run sampleCalls sampleTurns = some s ∧
    s.order = [0, 1] ∧ s.file = serial sampleCalls (.fresh "state" "state.json") [0, 1] ∧
    s.progress 1 = .finished ((sampleCalls 1).alone
      ((sampleCalls 0).alone (.fresh "state" "state.json")).2).1 ∧
    s.progress 2 = .finished (.ok .passedOver) := by
  have ended : ((Traffic.start (.fresh "state" "state.json")).run sampleCalls sampleTurns).map
      (fun s => (s.order, s.holder, (s.progress 2).isFinished)) = some ([0, 1], none, true) := by
    decide +kernel
  obtain ⟨s, ran, same⟩ := Option.map_eq_some_iff.mp ended
  simp only [Prod.mk.injEq] at same
  obtain ⟨order, holder, told⟩ := same
  have law := interleaving_is_serial sampleCalls (.fresh "state" "state.json") ran
  refine ⟨s, ran, order, ?_, ?_, ?_⟩
  · rw [law.settled holder, order]
    rfl
  · exact law.answers [0] 1 [] order (by rw [holder]; exact nofun)
  · cases progress : s.progress 2 with
    | finished answer =>
      rcases law.outside 2 (by rw [order]; decide) answer progress with early | ⟨_, passed⟩
      · cases early
      · rw [passed]
    | _ =>
      rw [progress] at told
      cases told

end Cycle

end RedGreen
