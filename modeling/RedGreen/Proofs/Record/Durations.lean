import RedGreen.Record
import RedGreen.Proofs.Cycle.Entries
import RedGreen.Proofs.Time.Conversion

/-!
# The duration of a record

A commit and what it did to its cycle may both name a duration.  A record reports that of the
commit, in seconds, from which it is found again.  A duration of no length counts as absent here,
so such a commit reports what its cycle says instead.
-/

namespace RedGreen

namespace Record

variable {c : Commit} {o : Cycle.Observation} {d : Duration} {phase : Phase}

/-! ## The choice between two durations -/

theorem durationOf_of_none (absent : c.cycleDuration = none) : durationOf c o = o.duration := by
  rw [durationOf, absent]

theorem durationOf_of_zero (given : c.cycleDuration = some .zero) :
    durationOf c o = o.duration := by
  rw [durationOf, given]
  exact if_pos rfl

theorem durationOf_of_ne_zero (given : c.cycleDuration = some d) (long : d ≠ .zero) :
    durationOf c o = some d := by
  have length : d.micros ≠ 0 := fun none => long (Duration.ext none)
  rw [durationOf, given]
  exact if_neg length

theorem mem_durationOf (chosen : d ∈ durationOf c o) : d ∈ c.cycleDuration ∨ d ∈ o.duration := by
  cases given : c.cycleDuration with
  | none =>
    rw [durationOf_of_none given] at chosen
    exact .inr chosen
  | some e =>
    by_cases long : e = .zero
    · subst long
      rw [durationOf_of_zero given] at chosen
      exact .inr chosen
    · rw [durationOf_of_ne_zero given long] at chosen
      exact .inl chosen

/-! ## The record -/

/-- A classified commit is recorded whenever its duration does not run backwards. -/
theorem ofCommit_eq_ok (now : DateTime) (classified : c.phase = some phase)
    (forward : ∀ d ∈ durationOf c o, 0 ≤ d.micros) :
    ∃ r, ofCommit now c o = .ok r ∧
      r.cycleSeconds = (durationOf c o).map Duration.toSeconds := by
  rw [ofCommit, classified]
  dsimp only
  cases chosen : durationOf c o with
  | none => exact ⟨_, rfl, rfl⟩
  | some d =>
    have least : Binary64.le .zero d.toSeconds = true :=
      Duration.zero_le_toSeconds (forward d chosen)
    rw [Option.map_some]
    simp only [least, if_true]
    exact ⟨_, rfl, rfl⟩

/-- What a record keeps of the duration that its commit names. -/
structure Keeps (c : Commit) (o : Cycle.Observation) (r : Record) : Prop where
  /-- A commit that names none leaves the word to the cycle. -/
  unnamed : c.cycleDuration = none → (r.cycleSeconds.isSome ↔ o.duration.isSome)
  /-- There are seconds unless the commit names zero and the cycle nothing. -/
  named : ∀ d ∈ c.cycleDuration, (r.cycleSeconds.isSome ↔ d ≠ .zero ∨ o.duration.isSome)
  /-- The seconds are those of the duration unless it is zero and the cycle says otherwise. -/
  same : ∀ d ∈ c.cycleDuration, d.micros ≤ 2 ^ 33 * 1000000 →
    (r.cycleDuration = some (some d) ↔ d ≠ .zero ∨ o.duration = some .zero)

/-- Every duration of some length is kept; zero is only where the cycle names it as well. -/
theorem ofCommit_keeps (now : DateTime) (classified : c.phase = some phase)
    (forward : ∀ d ∈ c.cycleDuration, 0 ≤ d.micros) (observed : ∀ d ∈ o.duration, 0 ≤ d.micros) :
    ∃ r, ofCommit now c o = .ok r ∧ Keeps c o r := by
  obtain ⟨r, made, seconds⟩ := ofCommit_eq_ok now classified fun d chosen =>
    (mem_durationOf chosen).elim (forward d) (observed d)
  have reported : r.cycleSeconds.isSome ↔ (durationOf c o).isSome := by
    rw [seconds, Option.isSome_map]
  have duration : r.cycleDuration =
      (durationOf c o).map fun d => Duration.ofSeconds? d.toSeconds := by
    rw [cycleDuration, seconds, Option.map_map]
    rfl
  refine ⟨r, made, ?_, ?_, ?_⟩
  · intro absent
    rw [reported, durationOf_of_none absent]
  · intro d given
    rw [reported]
    by_cases long : d = .zero
    · subst long
      rw [durationOf_of_zero given]
      exact ⟨.inr, fun some => some.resolve_left (absurd rfl)⟩
    · rw [durationOf_of_ne_zero given long]
      exact iff_of_true rfl (.inl long)
  · intro d given small
    rw [duration]
    by_cases long : d = .zero
    · subst long
      rw [durationOf_of_zero given]
      constructor
      · intro zero
        obtain ⟨e, cycle, back⟩ := Option.map_eq_some_iff.mp zero
        right
        rw [cycle, (Duration.ofSeconds?_toSeconds_eq_zero_iff (observed e cycle)).mp back]
      · intro some
        rw [some.resolve_left (absurd rfl), Option.map_some]
        exact congrArg Option.some
          ((Duration.ofSeconds?_toSeconds_eq_zero_iff (by decide)).mpr rfl)
    · rw [durationOf_of_ne_zero given long, Option.map_some,
        Duration.ofSeconds?_toSeconds_of_le (forward d given) small]
      exact iff_of_true rfl (.inl long)

/-! ## Zero -/

/-- A green commit that closes its cycle at the time at which it was opened, or earlier. -/
def closesAtOnce : Commit where
  hash := "abc123def4567890"
  branch := "main"
  message := "feat: x"
  phase := some .green
  filesChanged := 1
  linesAdded := 40
  linesRemoved := 3
  changedPaths := ["a"]
  author := "Ann"
  repository := "shop"
  occurredAt := .minute 0
  cycleDuration := some .zero

theorem ofCommit_keeps_zero :
    closesAtOnce.phase = some .green ∧ (∀ d ∈ closesAtOnce.cycleDuration, 0 ≤ d.micros) ∧
      ∃ r, ofCommit closesAtOnce.occurredAt closesAtOnce
        { Cycle.Observation.empty with duration := some .zero } = .ok r ∧
        r.cycleDuration = some (some .zero) := by
  have forward : ∀ d ∈ closesAtOnce.cycleDuration, 0 ≤ d.micros := by
    rintro d ⟨⟩
    decide
  obtain ⟨r, made, keeps⟩ := ofCommit_keeps (c := closesAtOnce)
    (o := { Cycle.Observation.empty with duration := some .zero }) closesAtOnce.occurredAt rfl
    forward forward
  exact ⟨rfl, forward, r, made, (keeps.same .zero rfl (by decide)).mpr (.inr rfl)⟩

/-- Without a word from the cycle zero is left out, and any other word takes its place. -/
theorem zero_is_not_kept :
    closesAtOnce.cycleDuration = some .zero ∧
      (ofCommit closesAtOnce.occurredAt closesAtOnce .empty).map cycleSeconds = .ok none ∧
      (ofCommit closesAtOnce.occurredAt closesAtOnce
        { Cycle.Observation.empty with duration := some Duration.tick }).map cycleDuration =
          .ok (some (some Duration.tick)) := by
  decide +kernel

end Record

end RedGreen
