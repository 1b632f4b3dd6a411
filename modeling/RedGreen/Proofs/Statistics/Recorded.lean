import RedGreen.Proofs.Statistics.Between
import RedGreen.Proofs.Record.RoundTrip

/-!
# Figures over recorded durations

The durations of records come from numbers of seconds, so they survive the way to the figures and
back: the average and the median lie between the fastest and the slowest cycle, and the order of the
records does not matter.
-/

namespace RedGreen

namespace Duration

/-- The magnitude of the seconds of a duration without a minus sign. -/
def magnitude (d : Duration) : Magnitude :=
  (Magnitude.ofRatio? d.micros.natAbs 1000000).getD .zero

section

variable {d e : Duration}

theorem toSeconds_eq_magnitude (least : 0 ≤ d.micros) :
    d.toSeconds = .finite false d.magnitude := by
  obtain ⟨m, seconds, ratio, _⟩ := toSeconds_eq least
  rw [seconds, magnitude, ratio, Option.getD_some]

theorem magnitude_mono (least : 0 ≤ d.micros) (le : d.micros ≤ e.micros) :
    d.magnitude.units ≤ e.magnitude.units :=
  toSeconds_mono least le (toSeconds_eq_magnitude least)
    (toSeconds_eq_magnitude (least.trans le))

theorem magnitude_le (least : 0 ≤ d.micros) :
    d.magnitude.units ≤ 2 ^ 47 * Magnitude.unitsPerOne := by
  have upper := d.upper
  have spans : d.Spans 47 := ⟨least, by omega⟩
  obtain ⟨m, seconds, bound⟩ := spans.toSeconds (by decide)
  rw [toSeconds_eq_magnitude least] at seconds
  cases seconds
  exact bound

theorem IsMeasured.ofSeconds? (measured : d.IsMeasured) :
    Duration.ofSeconds? (.finite false d.magnitude) = some d := by
  have least := measured.least
  obtain ⟨m, made⟩ := measured
  rw [← toSeconds_eq_magnitude least]
  exact ofSeconds?_toSeconds made

end

end Duration

namespace Statistics

/-! ## The fastest and the slowest -/

/-- Keeping the better of two durations finds one that is best of all. -/
theorem foldl_best (key : Duration → Int) (better : Duration → Duration → Prop)
    [DecidableRel better] (means : ∀ a b, better a b ↔ key a < key b) (d : Duration)
    (ds : List Duration) :
    ds.foldl (fun a b => if better b a then b else a) d ∈ d :: ds ∧
      ∀ e ∈ d :: ds, key (ds.foldl (fun a b => if better b a then b else a) d) ≤ key e := by
  induction ds generalizing d with
  | nil => exact ⟨List.mem_cons_self, fun e mem => by rw [List.mem_singleton.mp mem]; rfl⟩
  | cons c ds ih =>
    rw [List.foldl_cons]
    by_cases wins : better c d
    · rw [if_pos wins]
      obtain ⟨mem, best⟩ := ih c
      refine ⟨List.mem_cons_of_mem d mem, List.forall_mem_cons.mpr ⟨?_, best⟩⟩
      have less := (means c d).mp wins
      have first := best c List.mem_cons_self
      omega
    · rw [if_neg wins]
      obtain ⟨mem, best⟩ := ih d
      obtain ⟨first, others⟩ := List.forall_mem_cons.mp best
      have least := (means c d).not.mp wins
      refine ⟨?_, List.forall_mem_cons.mpr ⟨first, List.forall_mem_cons.mpr ⟨by omega, others⟩⟩⟩
      rcases List.mem_cons.mp mem with same | later
      · rw [same]
        exact List.mem_cons_self
      · exact List.mem_cons_of_mem d (List.mem_cons_of_mem c later)

theorem shortest_eq {ds : List Duration} (nonempty : ds ≠ []) :
    ∃ d ∈ ds, shortest ds = some d ∧ ∀ e ∈ ds, d.micros ≤ e.micros := by
  cases ds with
  | nil => exact absurd rfl nonempty
  | cons d ds =>
    obtain ⟨mem, best⟩ := foldl_best Duration.micros (fun a b => a.micros < b.micros)
      (fun _ _ => Iff.rfl) d ds
    exact ⟨_, mem, rfl, best⟩

theorem longest_eq {ds : List Duration} (nonempty : ds ≠ []) :
    ∃ d ∈ ds, longest ds = some d ∧ ∀ e ∈ ds, e.micros ≤ d.micros := by
  cases ds with
  | nil => exact absurd rfl nonempty
  | cons d ds =>
    obtain ⟨mem, best⟩ := foldl_best (fun d => -d.micros) (fun a b => b.micros < a.micros)
      (fun _ _ => Int.neg_lt_neg_iff.symm) d ds
    exact ⟨_, mem, rfl, fun e found => Int.neg_le_neg_iff.mp (best e found)⟩

/-- What is best of all durations in a list does not depend on their order. -/
theorem best_perm {f : List Duration → Option Duration} (rel : Duration → Duration → Prop)
    (antisymm : ∀ d e, rel d e → rel e d → d = e)
    (best : ∀ ds : List Duration, ds ≠ [] → ∃ d ∈ ds, f ds = some d ∧ ∀ e ∈ ds, rel d e)
    {ds es : List Duration} (same : ds.Perm es) : f ds = f es := by
  by_cases empty : ds = []
  · rw [empty] at same
    rw [empty, same.nil_eq]
  · have nonempty : es ≠ [] := fun none => empty (none ▸ same).eq_nil
    obtain ⟨d, memD, bestD, allD⟩ := best ds empty
    obtain ⟨e, memE, bestE, allE⟩ := best es nonempty
    rw [bestD, bestE,
      antisymm d e (allD e (same.mem_iff.mpr memE)) (allE d (same.mem_iff.mp memD))]

theorem shortest_perm {ds es : List Duration} (same : ds.Perm es) : shortest ds = shortest es :=
  best_perm (fun d e => d.micros ≤ e.micros)
    (fun _ _ le ge => Duration.ext (Int.le_antisymm le ge)) (fun _ => shortest_eq) same

theorem longest_perm {ds es : List Duration} (same : ds.Perm es) : longest ds = longest es :=
  best_perm (fun d e => e.micros ≤ d.micros)
    (fun _ _ ge le => Duration.ext (Int.le_antisymm le ge)) (fun _ => longest_eq) same

/-! ## The average and the median -/

theorem figure?_of_nonempty (f : List Binary64 → Binary64) {xs : List Binary64}
    (nonempty : xs ≠ []) : figure? f xs = (Duration.ofSeconds? (f xs)).map some := by
  cases xs with
  | nil => exact absurd rfl nonempty
  | cons x xs => rfl

theorem figure?_congr {f : List Binary64 → Binary64} {xs ys : List Binary64} (same : xs.Perm ys)
    (value : f xs = f ys) : figure? f xs = figure? f ys := by
  by_cases empty : xs = []
  · rw [empty] at same
    rw [empty, same.nil_eq]
  · have nonempty : ys ≠ [] := fun none => empty (none ▸ same).eq_nil
    rw [figure?_of_nonempty f empty, figure?_of_nonempty f nonempty, value]

section

variable {ds es : List Duration}

theorem map_toSeconds (measured : ∀ d ∈ ds, d.IsMeasured) :
    ds.map Duration.toSeconds = (ds.map Duration.magnitude).map (.finite false) := by
  rw [List.map_map]
  exact List.map_congr_left fun d mem => Duration.toSeconds_eq_magnitude (measured d mem).least

theorem medianOf_toSeconds_perm (same : ds.Perm es) (measured : ∀ d ∈ ds, d.IsMeasured) :
    medianOf (ds.map Duration.toSeconds) = medianOf (es.map Duration.toSeconds) := by
  rw [map_toSeconds measured, map_toSeconds fun e mem => measured e (same.mem_iff.mpr mem)]
  exact medianOf_perm (same.map _)

/-- A figure between two recorded durations is a duration between them. -/
theorem figure?_between {f : List Binary64 → Binary64} {fast slow : Duration}
    (least : fast.IsMeasured) (most : slow.IsMeasured) (nonempty : ds ≠ [])
    (between : Between fast.magnitude slow.magnitude (f (ds.map Duration.toSeconds))) :
    ∃ d, figure? f (ds.map Duration.toSeconds) = some (some d) ∧
      fast.micros ≤ d.micros ∧ d.micros ≤ slow.micros := by
  obtain ⟨m, value, lower, upper⟩ := between
  obtain ⟨d, made, below⟩ := Duration.ofSeconds?_mono upper most.ofSeconds?
  obtain ⟨a, again, above⟩ := Duration.ofSeconds?_mono lower made
  have same : some fast = some a := least.ofSeconds?.symm.trans again
  cases same
  have some_seconds : ds.map Duration.toSeconds ≠ [] := by simpa using nonempty
  exact ⟨d, by rw [figure?_of_nonempty f some_seconds, value, made]; rfl, above, below⟩

/-- The figures over some durations, the average and the median between the others. -/
structure Figures (ds : List Duration) (average median fastest slowest : Duration) : Prop where
  fastest_mem : fastest ∈ ds
  slowest_mem : slowest ∈ ds
  shortest : shortest ds = some fastest
  longest : longest ds = some slowest
  mean : figure? mean (ds.map Duration.toSeconds) = some (some average)
  medianOf : figure? medianOf (ds.map Duration.toSeconds) = some (some median)
  average_between : fastest.micros ≤ average.micros ∧ average.micros ≤ slowest.micros
  median_between : fastest.micros ≤ median.micros ∧ median.micros ≤ slowest.micros

theorem figures_exist (measured : ∀ d ∈ ds, d.IsMeasured) (nonempty : ds ≠ []) :
    ∃ average median fastest slowest, Figures ds average median fastest slowest := by
  obtain ⟨fast, fastMem, shortest, least⟩ := shortest_eq nonempty
  obtain ⟨slow, slowMem, longest, most⟩ := longest_eq nonempty
  have inside : ∀ x ∈ ds.map Duration.toSeconds, Between fast.magnitude slow.magnitude x := by
    intro x mem
    obtain ⟨d, found, rfl⟩ := List.mem_map.mp mem
    have nonneg := (measured d found).least
    exact ⟨d.magnitude, Duration.toSeconds_eq_magnitude nonneg,
      Duration.magnitude_mono (measured fast fastMem).least (least d found),
      Duration.magnitude_mono nonneg (most d found)⟩
  have bounded := Duration.magnitude_le (measured slow slowMem).least
  have some_seconds : ds.map Duration.toSeconds ≠ [] := by simpa using nonempty
  obtain ⟨average, mean, averageBetween⟩ := figure?_between (measured fast fastMem)
    (measured slow slowMem) nonempty (mean_between inside some_seconds (by decide) bounded)
  obtain ⟨median, medianOf, medianBetween⟩ := figure?_between (measured fast fastMem)
    (measured slow slowMem) nonempty (medianOf_between inside some_seconds (by decide) bounded)
  exact ⟨average, median, fast, slow, fastMem, slowMem, shortest, longest, mean, medianOf,
    averageBetween, medianBetween⟩

end

end Statistics

end RedGreen
