import RedGreen.CommandLine.Answer
import RedGreen.Proofs.Statistics.Recorded

/-!
# Laws of the statistics

The figures exist for every list of records whose durations can be represented.  They do not depend
on the order of the records or on duplicates, the counts add up over lists and over branches, and
the average and the median lie between the fastest and the slowest cycle.
-/

namespace RedGreen

/-- A record whose closed cycle, if there is one, took a time that can be represented. -/
def Record.HasDuration (r : Record) : Prop :=
  ∀ x ∈ r.cycleSeconds, (Duration.ofSeconds? x).isSome = true

instance (r : Record) : Decidable r.HasDuration :=
  inferInstanceAs (Decidable (∀ x ∈ r.cycleSeconds, _))

namespace Statistics

/-- The figures that count records. -/
inductive Count where
  | commits
  | phase (p : Phase)
  | closedCycles
  | abandonedCycles
  | orphanGreens
  | skippedUpdates

/-- Whether a record is counted, if it is no duplicate. -/
def Count.holds : Count → Record → Bool
  | .commits, _ => true
  | .phase p, r => decide (r.phase = p)
  | .closedCycles, r => r.cycleSeconds.isSome
  | .abandonedCycles, r => r.abandonedCycle
  | .orphanGreens, r => r.orphanGreen
  | .skippedUpdates, r => decide (r.cycleStatus = .skipped)

/-- What a count is among the figures. -/
def count (s : Statistics) : Count → Nat
  | .commits => s.totalCommits
  | .phase p => (s.phaseCounts.lookup p).getD 0
  | .closedCycles => s.closedCycles
  | .abandonedCycles => s.abandonedCycles
  | .orphanGreens => s.orphanGreens
  | .skippedUpdates => s.skippedUpdates

/-- The records that count. -/
def originals (rs : List Record) : List Record := rs.filter fun r => !r.duplicate

/-- The durations of closed cycles, but for those that cannot be represented. -/
def recorded (rs : List Record) : List Duration := rs.filterMap fun r => r.cycleDuration.join

/-! ## Durations of records -/

section

variable {rs : List Record}

theorem cycleDuration_eq_some {r : Record} {d : Duration} :
    r.cycleDuration.join = some d ↔ ∃ x ∈ r.cycleSeconds, Duration.ofSeconds? x = some d := by
  rw [Record.cycleDuration]
  cases r.cycleSeconds with
  | none => simp
  | some x => simp

theorem isMeasured_of_recorded (valid : ∀ r ∈ rs, r.IsValid) :
    ∀ d ∈ recorded rs, d.IsMeasured := by
  intro d mem
  obtain ⟨r, found, duration⟩ := List.mem_filterMap.mp mem
  obtain ⟨x, seconds, made⟩ := cycleDuration_eq_some.mp duration
  exact Duration.isMeasured_of_ofSeconds? (valid r found x seconds) made

theorem recorded_cons_none {r : Record} (open_cycle : r.cycleSeconds = none) :
    recorded (r :: rs) = recorded rs := by
  have absent : r.cycleDuration.join = none := by
    rw [Record.cycleDuration, open_cycle]
    rfl
  exact List.filterMap_cons_none (f := fun r : Record => r.cycleDuration.join) absent

theorem recorded_cons_some {r : Record} {x : Binary64} {d : Duration}
    (closed : r.cycleSeconds = some x) (made : Duration.ofSeconds? x = some d) :
    recorded (r :: rs) = d :: recorded rs := by
  have present : r.cycleDuration.join = some d := cycleDuration_eq_some.mpr ⟨x, closed, made⟩
  exact List.filterMap_cons_some (f := fun r : Record => r.cycleDuration.join) present

theorem durations?_eq (short : ∀ r ∈ rs, r.HasDuration) : durations? rs = some (recorded rs) := by
  induction rs with
  | nil => rfl
  | cons r rs ih =>
    obtain ⟨here, later⟩ := List.forall_mem_cons.mp short
    cases seconds : r.cycleSeconds with
    | none => rw [durations?_cons_none _ seconds, recorded_cons_none seconds, ih later]
    | some x =>
      obtain ⟨d, made⟩ := Option.isSome_iff_exists.mp (here x seconds)
      rw [durations?_cons_some _ seconds, recorded_cons_some seconds made, ih later, made]
      rfl

theorem length_recorded (short : ∀ r ∈ rs, r.HasDuration) :
    (recorded rs).length = rs.countP fun r => r.cycleSeconds.isSome := by
  induction rs with
  | nil => rfl
  | cons r rs ih =>
    obtain ⟨here, later⟩ := List.forall_mem_cons.mp short
    cases seconds : r.cycleSeconds with
    | none =>
      rw [recorded_cons_none seconds, ih later, List.countP_cons_of_neg (by simp [seconds])]
    | some x =>
      obtain ⟨d, made⟩ := Option.isSome_iff_exists.mp (here x seconds)
      rw [recorded_cons_some seconds made, List.length_cons, ih later,
        List.countP_cons_of_pos (by simp [seconds])]

end

/-! ## All figures -/

/-- The figures of a list of records, given those over the durations. -/
def figuresOf (rs : List Record) (average median : Option Duration) : Statistics where
  totalCommits := rs.length
  phaseCounts := Phase.all.map fun p => (p, rs.countP fun r => decide (r.phase = p))
  closedCycles := (recorded rs).length
  average := average
  median := median
  fastest := shortest (recorded rs)
  slowest := longest (recorded rs)
  abandonedCycles := rs.countP Record.abandonedCycle
  orphanGreens := rs.countP Record.orphanGreen
  skippedUpdates := rs.countP fun r => decide (r.cycleStatus = .skipped)

section

variable {all : List Record}

theorem of_originals {p : Record → Prop} (every : ∀ r ∈ all, p r) : ∀ r ∈ originals all, p r :=
  fun r mem => every r (List.mem_filter.mp mem).1

theorem ofRecords?_eq (short : ∀ r ∈ all, r.HasDuration) : ofRecords? all = (do
    let average ← figure? mean ((recorded (originals all)).map Duration.toSeconds)
    let median ← figure? medianOf ((recorded (originals all)).map Duration.toSeconds)
    return figuresOf (originals all) average median) := by
  have durations := durations?_eq (of_originals short)
  rw [originals] at durations
  rw [ofRecords?]
  simp only [durations, Option.bind_eq_bind, Option.bind_some]
  rfl

theorem count_figuresOf {rs : List Record} (short : ∀ r ∈ rs, r.HasDuration)
    (average median : Option Duration) (c : Count) :
    (figuresOf rs average median).count c = rs.countP c.holds := by
  cases c with
  | commits => exact (List.countP_eq_length.mpr fun _ _ => rfl).symm
  | phase p =>
    cases p <;> rfl
  | closedCycles => exact length_recorded short
  | abandonedCycles => rfl
  | orphanGreens => rfl
  | skippedUpdates => rfl

/-- The figures exist; without a closed cycle there is neither an average nor a median. -/
theorem ofRecords?_exists (valid : ∀ r ∈ all, r.IsValid) (short : ∀ r ∈ all, r.HasDuration) :
    ∃ average median, ofRecords? all = some (figuresOf (originals all) average median) ∧
      (recorded (originals all) = [] ∧ average = none ∧ median = none ∨
        ∃ mean middle fastest slowest,
          Figures (recorded (originals all)) mean middle fastest slowest ∧
            average = some mean ∧ median = some middle) := by
  rw [ofRecords?_eq short]
  by_cases empty : recorded (originals all) = []
  · rw [empty]
    exact ⟨none, none, rfl, .inl ⟨rfl, rfl, rfl⟩⟩
  · obtain ⟨average, median, fastest, slowest, figures⟩ :=
      figures_exist (isMeasured_of_recorded (of_originals valid)) empty
    rw [figures.mean, figures.medianOf]
    exact ⟨some average, some median, rfl,
      .inr ⟨average, median, fastest, slowest, figures, rfl, rfl⟩⟩

/-- Every count among the figures counts the records that are no duplicates. -/
theorem count_eq {s : Statistics} (made : ofRecords? all = some s)
    (valid : ∀ r ∈ all, r.IsValid) (short : ∀ r ∈ all, r.HasDuration) (c : Count) :
    s.count c = (originals all).countP c.holds := by
  obtain ⟨average, median, figures, _⟩ := ofRecords?_exists valid short
  rw [made] at figures
  cases figures
  exact count_figuresOf (of_originals short) average median c

theorem ofRecords?_perm {other : List Record} (same : all.Perm other)
    (valid : ∀ r ∈ all, r.IsValid) (short : ∀ r ∈ all, r.HasDuration) :
    ofRecords? other = ofRecords? all := by
  have kept : (originals all).Perm (originals other) := same.filter _
  have durations : (recorded (originals all)).Perm (recorded (originals other)) :=
    kept.filterMap _
  have measured := isMeasured_of_recorded (of_originals valid)
  have seconds := durations.map Duration.toSeconds
  have figures (average median : Option Duration) :
      figuresOf (originals other) average median = figuresOf (originals all) average median := by
    simp only [figuresOf, kept.length_eq, durations.length_eq, kept.countP_eq,
      shortest_perm durations, longest_perm durations]
  rw [ofRecords?_eq short, ofRecords?_eq fun r mem => short r (same.mem_iff.mpr mem),
    figure?_congr seconds (mean_perm seconds),
    figure?_congr seconds (medianOf_toSeconds_perm durations measured)]
  simp only [figures]

end

/-! ## Parts of a list -/

section

variable {α κ : Type} [DecidableEq κ] {f : α → κ} {keys : List κ}

theorem sum_ite_eq (n : Nat) (distinct : keys.Nodup) {k : κ} (mem : k ∈ keys) :
    (keys.map fun j => if k = j then n else 0).sum = n := by
  induction keys with
  | nil => cases mem
  | cons j keys ih =>
    obtain ⟨notIn, distinct⟩ := List.nodup_cons.mp distinct
    rw [List.map_cons, List.sum_cons]
    by_cases same : k = j
    · have none : ∀ i ∈ keys, (if k = i then n else 0) = 0 := by
        intro i found
        rw [if_neg]
        rintro rfl
        exact notIn (same ▸ found)
      rw [if_pos same, List.map_congr_left none]
      simp
    · rw [if_neg same, Nat.zero_add, ih distinct ((List.mem_cons.mp mem).resolve_left same)]

/-- Every element is counted with its own key, and with no other. -/
theorem sum_countP_filter (distinct : keys.Nodup) (p : α → Bool) {l : List α}
    (covered : ∀ a ∈ l, f a ∈ keys) :
    (keys.map fun k => (l.filter fun a => f a = k).countP p).sum = l.countP p := by
  induction l with
  | nil => simp
  | cons a l ih =>
    obtain ⟨here, later⟩ := List.forall_mem_cons.mp covered
    have split : ∀ k ∈ keys, ((a :: l).filter fun b => f b = k).countP p =
        (l.filter fun b => f b = k).countP p + if f a = k then (if p a then 1 else 0) else 0 := by
      intro k _
      by_cases same : f a = k
      · rw [List.filter_cons_of_pos (by simpa using same), List.countP_cons, if_pos same]
      · rw [List.filter_cons_of_neg (by simpa using same), if_neg same, Nat.add_zero]
    rw [List.map_congr_left split, List.sum_map_add, ih later, sum_ite_eq _ distinct here,
      List.countP_cons]

end

/-! ## The laws -/

/-- What is known of the figures of a list of records. -/
structure Laws (all : List Record) (s : Statistics) : Prop where
  /-- Every count is the number of records of its kind that are no duplicates. -/
  counted : ∀ c : Count, s.count c = (originals all).countP c.holds
  permuted : ∀ other, all.Perm other → ofRecords? other = some s
  distinct : ofRecords? (all.filter fun r => !r.duplicate) = some s
  phases : (s.phaseCounts.map Prod.snd).sum = s.totalCommits
  closed : s.closedCycles ≤ s.totalCommits
  appended : ∀ more : List Record, (∀ r ∈ more, r.IsValid) → (∀ r ∈ more, r.HasDuration) →
    ∃ t u, ofRecords? more = some t ∧ ofRecords? (all ++ more) = some u ∧
      ∀ c, u.count c = s.count c + t.count c
  /-- The counts of a branch are those that are shown when only this branch is asked for. -/
  branches : (∀ r ∈ all, r.branch ≠ []) → ∀ names : List Text, names.Nodup →
    (∀ b, b ∈ names ↔ ∃ r ∈ all, r.branch = b) →
    ∃ parts, List.Forall₂ (fun b t => ofRecords? (CommandLine.onBranch (some b) all) = some t)
      names parts ∧ ∀ c, s.count c = (parts.map fun t => t.count c).sum
  absent : s.closedCycles = 0 ↔
    s.average = none ∧ s.median = none ∧ s.fastest = none ∧ s.slowest = none
  ordered : s.closedCycles ≠ 0 → ∃ average median fastest slowest,
    s.average = some average ∧ s.median = some median ∧
    s.fastest = some fastest ∧ s.slowest = some slowest ∧
    (fastest.micros ≤ average.micros ∧ average.micros ≤ slowest.micros) ∧
    (fastest.micros ≤ median.micros ∧ median.micros ≤ slowest.micros) ∧
    (∃ r ∈ all, r.cycleDuration = some (some fastest)) ∧
    ∃ r ∈ all, r.cycleDuration = some (some slowest)

section

variable {all : List Record} {s : Statistics}

theorem mem_recorded {d : Duration} (mem : d ∈ recorded (originals all)) :
    ∃ r ∈ all, r.cycleDuration = some (some d) := by
  obtain ⟨r, found, duration⟩ := List.mem_filterMap.mp mem
  exact ⟨r, (List.mem_filter.mp found).1, Option.join_eq_some_iff.mp duration⟩

theorem ofRecords?_originals (all : List Record) :
    ofRecords? (all.filter fun r => !r.duplicate) = ofRecords? all := by
  rw [ofRecords?, ofRecords?, List.filter_filter]
  simp only [Bool.and_self]

theorem sum_phaseCounts (average median : Option Duration) (rs : List Record) :
    ((figuresOf rs average median).phaseCounts.map Prod.snd).sum = rs.length := by
  have every : ∀ r ∈ rs, r.phase ∈ Phase.all := by
    intro r _
    cases r.phase <;> decide
  have sum := sum_countP_filter (by decide) (fun _ => true) every
  rw [List.countP_true] at sum
  rw [figuresOf, List.map_map, ← sum]
  congr 1
  refine List.map_congr_left fun p _ => ?_
  exact List.countP_eq_length_filter

theorem onBranch_eq {b : Text} (named : b ≠ []) (rs : List Record) :
    CommandLine.onBranch (some b) rs = rs.filter fun r => r.branch = b := by
  cases b with
  | nil => exact absurd rfl named
  | cons c t => rfl

theorem originals_filter (p : Record → Bool) (rs : List Record) :
    originals (rs.filter p) = (originals rs).filter p := by
  rw [originals, originals, List.filter_comm]

/-- Every branch has figures, with the counts of its own records. -/
theorem figures_of_branches (valid : ∀ r ∈ all, r.IsValid) (short : ∀ r ∈ all, r.HasDuration)
    {names : List Text} (named : ∀ b ∈ names, b ≠ []) :
    ∃ parts, List.Forall₂ (fun b t => ofRecords? (CommandLine.onBranch (some b) all) = some t)
      names parts ∧ ∀ c : Count, parts.map (fun t => t.count c) =
        names.map fun b => ((originals all).filter fun r => r.branch = b).countP c.holds := by
  induction names with
  | nil => exact ⟨[], .nil, fun _ => rfl⟩
  | cons b names ih =>
    obtain ⟨here, later⟩ := List.forall_mem_cons.mp named
    obtain ⟨parts, made, counts⟩ := ih later
    have within {p : Record → Prop} (every : ∀ r ∈ all, p r) :
        ∀ r ∈ CommandLine.onBranch (some b) all, p r := by
      rw [onBranch_eq here]
      exact fun r mem => every r (List.mem_filter.mp mem).1
    obtain ⟨_, _, first, _⟩ := ofRecords?_exists (within valid) (within short)
    refine ⟨_ :: parts, .cons first made, fun c => ?_⟩
    rw [List.map_cons, List.map_cons, counts, count_eq first (within valid) (within short),
      onBranch_eq here, originals_filter]

theorem branches_of_made (made : ofRecords? all = some s) (valid : ∀ r ∈ all, r.IsValid)
    (short : ∀ r ∈ all, r.HasDuration) (named : ∀ r ∈ all, r.branch ≠ []) {names : List Text}
    (distinct : names.Nodup) (listed : ∀ b, b ∈ names ↔ ∃ r ∈ all, r.branch = b) :
    ∃ parts, List.Forall₂ (fun b t => ofRecords? (CommandLine.onBranch (some b) all) = some t)
      names parts ∧ ∀ c, s.count c = (parts.map fun t => t.count c).sum := by
  have nonempty : ∀ b ∈ names, b ≠ [] := by
    intro b mem
    obtain ⟨r, found, rfl⟩ := (listed b).mp mem
    exact named r found
  obtain ⟨parts, each, counts⟩ := figures_of_branches valid short nonempty
  have covered : ∀ r ∈ originals all, r.branch ∈ names :=
    of_originals fun r found => (listed r.branch).mpr ⟨r, found, rfl⟩
  refine ⟨parts, each, fun c => ?_⟩
  rw [counts, count_eq made valid short, sum_countP_filter distinct c.holds covered]

/-- The laws of the figures hold for all records whose durations can be represented. -/
theorem ofRecords?_laws (valid : ∀ r ∈ all, r.IsValid) (short : ∀ r ∈ all, r.HasDuration) :
    ∃ s, ofRecords? all = some s ∧ Laws all s := by
  obtain ⟨average, median, made, figures⟩ := ofRecords?_exists valid short
  refine ⟨_, made, ?_⟩
  constructor
  case counted => exact count_eq made valid short
  case permuted =>
    intro other same
    rw [ofRecords?_perm same valid short, made]
  case distinct => rw [ofRecords?_originals, made]
  case phases => exact sum_phaseCounts average median (originals all)
  case closed =>
    show (recorded (originals all)).length ≤ (originals all).length
    exact List.length_filterMap_le _ _
  case appended =>
    intro more validMore shortMore
    obtain ⟨_, _, madeMore, _⟩ := ofRecords?_exists validMore shortMore
    have validBoth := List.forall_mem_append.mpr ⟨valid, validMore⟩
    have shortBoth := List.forall_mem_append.mpr ⟨short, shortMore⟩
    obtain ⟨_, _, madeBoth, _⟩ := ofRecords?_exists validBoth shortBoth
    refine ⟨_, _, madeMore, madeBoth, fun c => ?_⟩
    rw [count_eq made valid short, count_eq madeMore validMore shortMore,
      count_eq madeBoth validBoth shortBoth, originals, List.filter_append, List.countP_append]
    rfl
  case branches =>
    intro named names distinct listed
    exact branches_of_made made valid short named distinct listed
  case absent =>
    rcases figures with ⟨empty, rfl, rfl⟩ | ⟨mean, middle, fastest, slowest, figures, rfl, rfl⟩
    · exact ⟨fun _ => ⟨rfl, rfl, by rw [figuresOf, empty]; rfl, by rw [figuresOf, empty]; rfl⟩,
        fun _ => by rw [figuresOf, empty]; rfl⟩
    · refine ⟨fun none => ?_, nofun⟩
      exact absurd none (List.length_pos_of_mem figures.fastest_mem).ne'
  case ordered =>
    intro closed
    rcases figures with ⟨empty, rfl, rfl⟩ | ⟨mean, middle, fastest, slowest, figures, rfl, rfl⟩
    · exact absurd (by rw [figuresOf, empty]; rfl) closed
    · exact ⟨mean, middle, fastest, slowest, rfl, rfl, figures.shortest, figures.longest,
        figures.average_between, figures.median_between, mem_recorded figures.fastest_mem,
        mem_recorded figures.slowest_mem⟩

end

/-- Two closed cycles, of 30 and 90 seconds, and a duplicate of the second. -/
def twoCycles : List Record :=
  [{ Record.sample with cycleSeconds := some (.ofNat 30) }, Record.sample,
   { Record.sample with duplicate := true }]

def seconds (n : Nat) (short : n ≤ 60 * 60) : Duration := ⟨n * 1000000, by omega, by omega⟩

/-- The average and the median of the two cycles are a minute. -/
theorem ofRecords?_laws_twoCycles :
    (∀ r ∈ twoCycles, r.IsValid) ∧ (∀ r ∈ twoCycles, r.HasDuration) ∧
      ∃ s, ofRecords? twoCycles = some s ∧ Laws twoCycles s ∧
        s.totalCommits = 2 ∧ s.closedCycles = 2 ∧
        s.fastest = some (seconds 30 (by decide)) ∧ s.slowest = some (seconds 90 (by decide)) ∧
        s.average = some (seconds 60 (by decide)) ∧ s.median = some (seconds 60 (by decide)) := by
  have valid : ∀ r ∈ twoCycles, r.IsValid := by decide +kernel
  have short : ∀ r ∈ twoCycles, r.HasDuration := by decide +kernel
  obtain ⟨s, made, laws⟩ := ofRecords?_laws valid short
  have ascending : (recorded (originals twoCycles)).map Duration.toSeconds =
      [.ofNat 30, .ofNat 90] := by decide +kernel
  have average : figure? mean [.ofNat 30, .ofNat 90] = some (some (seconds 60 (by decide))) := by
    decide +kernel
  have median : figure? medianOf [.ofNat 30, .ofNat 90] =
      some (some (seconds 60 (by decide))) := by
    have sorted : List.mergeSort [Binary64.ofNat 30, .ofNat 90] Binary64.le =
        [.ofNat 30, .ofNat 90] := List.mergeSort_of_pairwise (by decide +kernel)
    show (Duration.ofSeconds? (middle _)).map some = _
    rw [sorted]
    decide +kernel
  have figures : s = figuresOf (originals twoCycles) (some (seconds 60 (by decide)))
      (some (seconds 60 (by decide))) := by
    rw [ofRecords?_eq short, ascending, average, median] at made
    exact (Option.some.inj made).symm
  refine ⟨valid, short, s, made, laws, ?_⟩
  rw [figures]
  decide +kernel

end Statistics

end RedGreen
