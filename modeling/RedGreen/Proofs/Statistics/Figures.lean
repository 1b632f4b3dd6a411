import RedGreen.Statistics
import RedGreen.Proofs.Time.Seconds

/-!
# Figures over records

As long as the durations of the records stay within what two points in time can lie apart, the
figures over them exist, and the counts are those of the records.
-/

namespace RedGreen

namespace Statistics

section

variable {k : Nat} {xs : List Binary64}

theorem totalUnits_bounds (atMost : ∀ x ∈ xs, x.AtMost k) :
    0 ≤ totalUnits xs ∧
      totalUnits xs ≤ ((2 ^ k * (Magnitude.unitsPerOne * xs.length) : Nat) : Int) := by
  induction xs with
  | nil => exact ⟨Int.le_refl 0, Int.natCast_nonneg _⟩
  | cons x xs ih =>
    obtain ⟨m, rfl, bound⟩ := atMost x List.mem_cons_self
    obtain ⟨least, most⟩ := ih fun y mem => atMost y (List.mem_cons_of_mem _ mem)
    have total : totalUnits (.finite false m :: xs) = m.units + totalUnits xs := rfl
    -- One number more raises the bound by the bound of one number.
    have split : 2 ^ k * (Magnitude.unitsPerOne * (xs.length + 1)) =
        2 ^ k * Magnitude.unitsPerOne + 2 ^ k * (Magnitude.unitsPerOne * xs.length) := by
      ring
    rw [total, List.length_cons, split, Nat.cast_add]
    have bound : (m.units : Int) ≤ ((2 ^ k * Magnitude.unitsPerOne : Nat) : Int) :=
      Int.ofNat_le.mpr bound
    exact ⟨Int.add_nonneg (Int.natCast_nonneg _) least, Int.add_le_add bound most⟩

theorem mean_atMost (atMost : ∀ x ∈ xs, x.AtMost k) (nonempty : xs ≠ []) (small : k ≤ 900) :
    (mean xs).AtMost k := by
  obtain ⟨least, most⟩ := totalUnits_bounds atMost
  exact Binary64.ofUnits_atMost (List.length_pos_iff.mpr nonempty) small least most

theorem getD_atMost (atMost : ∀ x ∈ xs, x.AtMost k) (i : Nat) : (xs.getD i .zero).AtMost k := by
  rw [List.getD_eq_getElem?_getD]
  cases found : xs[i]? with
  | none => exact Binary64.atMost_zero k
  | some x => exact atMost x (List.mem_of_getElem? found)

theorem medianOf_atMost (atMost : ∀ x ∈ xs, x.AtMost k) (small : k ≤ 800) :
    (medianOf xs).AtMost k := by
  have sorted : ∀ x ∈ xs.mergeSort Binary64.le, x.AtMost k := fun x mem =>
    atMost x (List.mem_mergeSort.mp mem)
  rw [medianOf, middle]
  split
  next => exact getD_atMost sorted _
  next => exact ((getD_atMost sorted _).add (getD_atMost sorted _) (by omega)).half (by omega)

theorem figure?_isSome {f : List Binary64 → Binary64} (small : k ≤ 42)
    (bounded : xs ≠ [] → (f xs).AtMost k) : ∃ figure, figure? f xs = some figure := by
  cases xs with
  | nil => exact ⟨none, rfl⟩
  | cons x xs =>
    obtain ⟨d, turned, _⟩ :=
      Duration.ofSeconds?_of_atMost (bounded (List.cons_ne_nil x xs)) small
    refine ⟨some d, ?_⟩
    rw [figure?, turned, Option.map_some]
    exact List.cons_ne_nil x xs

end

section

variable {r : Record} (records : List Record)

theorem durations?_cons_none (open_cycle : r.cycleSeconds = none) :
    durations? (r :: records) = durations? records := by
  have absent : r.cycleDuration = none := by
    rw [Record.cycleDuration, open_cycle, Option.map_none]
  rw [durations?, List.filterMap_cons_none absent, durations?]

theorem durations?_cons_some {x : Binary64} (closed : r.cycleSeconds = some x) :
    durations? (r :: records) =
      (Duration.ofSeconds? x).bind fun d => (durations? records).map (d :: ·) := by
  have present : r.cycleDuration = some (Duration.ofSeconds? x) := by
    rw [Record.cycleDuration, closed, Option.map_some]
  rw [durations?, List.filterMap_cons_some present, List.mapM_cons, durations?]
  cases Duration.ofSeconds? x with
  | none => rfl
  | some d =>
    cases (records.filterMap Record.cycleDuration).mapM id <;> rfl

end

theorem durations?_eq_some {k : Nat} (small : k ≤ 42) {records : List Record}
    (bounded : ∀ r ∈ records, ∀ x ∈ r.cycleSeconds, x.AtMost k) :
    ∃ ds, durations? records = some ds ∧
      ds.length = records.countP (fun r => r.cycleSeconds.isSome) ∧
      ∀ d ∈ ds, d.Spans (k + 2) := by
  induction records with
  | nil => exact ⟨[], rfl, rfl, fun _ mem => absurd mem List.not_mem_nil⟩
  | cons r records ih =>
    obtain ⟨ds, found, length, spans⟩ := ih fun s mem => bounded s (List.mem_cons_of_mem _ mem)
    cases seconds : r.cycleSeconds with
    | none =>
      refine ⟨ds, by rw [durations?_cons_none _ seconds, found], ?_, spans⟩
      rw [length, List.countP_cons_of_neg (by simp [seconds])]
    | some x =>
      obtain ⟨d, turned, spanned⟩ := Duration.ofSeconds?_of_atMost
        (bounded r List.mem_cons_self x seconds) small
      refine ⟨d :: ds, ?_, ?_, List.forall_mem_cons.mpr ⟨spanned, spans⟩⟩
      · rw [durations?_cons_some _ seconds, turned, found]
        rfl
      · rw [List.length_cons, length, List.countP_cons_of_pos (by simp [seconds])]

/-- The figures over records exist, when the durations are not too long, and count the records. -/
theorem ofRecords?_eq_some {all : List Record}
    (bounded : ∀ r ∈ all, ∀ x ∈ r.cycleSeconds, x.AtMost 39) :
    ∃ s, ofRecords? all = some s ∧
      s.phaseCounts = Phase.all.map (fun p =>
        (p, (all.filter fun r => !r.duplicate).countP fun r => decide (r.phase = p))) ∧
      s.closedCycles = (all.filter fun r => !r.duplicate).countP (fun r => r.cycleSeconds.isSome) ∧
      s.orphanGreens = (all.filter fun r => !r.duplicate).countP Record.orphanGreen := by
  have bounded : ∀ r ∈ all.filter fun r => !r.duplicate, ∀ x ∈ r.cycleSeconds, x.AtMost 39 :=
    fun r mem => bounded r (List.mem_filter.mp mem).1
  obtain ⟨ds, found, length, spans⟩ := durations?_eq_some (by decide) bounded
  -- On the way to durations and back the bound grows by two powers of two.
  have seconds : ∀ x ∈ ds.map Duration.toSeconds, x.AtMost 41 := by
    intro x mem
    obtain ⟨d, found, rfl⟩ := List.mem_map.mp mem
    exact (spans d found).toSeconds (by decide)
  obtain ⟨average, averaged⟩ := figure?_isSome (by decide) fun nonempty =>
    mean_atMost seconds nonempty (by decide)
  obtain ⟨median, halved⟩ := figure?_isSome (by decide) fun _ =>
    medianOf_atMost seconds (by decide)
  rw [ofRecords?, found]
  simp only [Option.bind_eq_bind, Option.bind_some, averaged, halved]
  exact ⟨_, rfl, rfl, length, rfl⟩

/-! ## More records -/

/-- Duplicates at the end of a journal change no figure. -/
theorem ofRecords?_append_duplicates (log : List Record) {more : List Record}
    (duplicates : ∀ r ∈ more, r.duplicate = true) : ofRecords? (log ++ more) = ofRecords? log := by
  have none : (more.filter fun r => !r.duplicate) = [] := by
    rw [List.filter_eq_nil_iff]
    intro r mem
    simp [duplicates r mem]
  rw [ofRecords?, ofRecords?, List.filter_append, none, List.append_nil]

/-- A record of a commit that has a phase and did nothing to any cycle. -/
structure IsIdle (phase : Phase) (r : Record) : Prop where
  phase : r.phase = phase
  duplicate : r.duplicate = false
  cycleSeconds : r.cycleSeconds = none
  abandonedCycle : r.abandonedCycle = false
  orphanGreen : r.orphanGreen = false
  cycleStatus : r.cycleStatus = .ok

/-- The figures with some more commits of a phase that did nothing to any cycle. -/
def withIdle (s : Statistics) (phase : Phase) (count : Nat) : Statistics :=
  { s with
    totalCommits := s.totalCommits + count
    phaseCounts := s.phaseCounts.map fun p => (p.1, if p.1 = phase then p.2 + count else p.2) }

theorem durations?_append_idle (log : List Record) {phase : Phase} {more : List Record}
    (idle : ∀ r ∈ more, IsIdle phase r) : durations? (log ++ more) = durations? log := by
  have none : more.filterMap Record.cycleDuration = [] := by
    rw [List.filterMap_eq_nil_iff]
    intro r mem
    rw [Record.cycleDuration, (idle r mem).cycleSeconds, Option.map_none]
  rw [durations?, durations?, List.filterMap_append, none, List.append_nil]

theorem countP_append_none {p : Record → Bool} (log : List Record) {more : List Record}
    (none : ∀ r ∈ more, p r = false) : (log ++ more).countP p = log.countP p := by
  have zero : more.countP p = 0 := List.countP_eq_zero.mpr fun r mem => by simp [none r mem]
  rw [List.countP_append, zero, Nat.add_zero]

/-- Commits that did nothing to any cycle add to the commits of their phase, and to nothing else. -/
theorem ofRecords?_append_idle {log more : List Record} {phase : Phase} {s : Statistics}
    (made : ofRecords? log = some s) (idle : ∀ r ∈ more, IsIdle phase r) :
    ofRecords? (log ++ more) = some (s.withIdle phase more.length) := by
  have kept : (more.filter fun r => !r.duplicate) = more := by
    rw [List.filter_eq_self]
    intro r mem
    simp [(idle r mem).duplicate]
  simp only [ofRecords?, Option.bind_eq_bind, Option.bind_eq_some_iff] at made
  obtain ⟨ds, found, average, averaged, median, halved, built⟩ := made
  cases built
  simp only [ofRecords?, Option.bind_eq_bind, List.filter_append, kept,
    durations?_append_idle _ idle,
    found, Option.bind_some, averaged, halved]
  rw [countP_append_none _ fun r mem => (idle r mem).abandonedCycle,
    countP_append_none _ fun r mem => (idle r mem).orphanGreen,
    countP_append_none _ fun r mem => by rw [(idle r mem).cycleStatus]; rfl]
  -- Only the counts of commits are left.
  have phases : (Phase.all.map fun p => (p, (log.filter (fun r => !r.duplicate) ++ more).countP
      fun r => decide (r.phase = p))) = (Phase.all.map fun p => (p,
        (log.filter fun r => !r.duplicate).countP fun r => decide (r.phase = p))).map fun p =>
          (p.1, if p.1 = phase then p.2 + more.length else p.2) := by
    rw [List.map_map]
    refine List.map_congr_left fun p _ => Prod.ext rfl ?_
    by_cases same : p = phase
    · subst same
      have all : more.countP (fun r => decide (r.phase = p)) = more.length :=
        List.countP_eq_length.mpr fun r mem => decide_eq_true (idle r mem).phase
      simp only [Function.comp, List.countP_append, all, if_true]
    · have others : ∀ r ∈ more, decide (r.phase = p) = false := fun r mem => by
        simp [(idle r mem).phase, Ne.symm same]
      simp [countP_append_none _ others, same]
  rw [phases, List.length_append]
  rfl

end Statistics

end RedGreen
