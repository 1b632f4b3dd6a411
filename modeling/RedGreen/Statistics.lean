import RedGreen.Record

/-!
# Statistics of cycles

Figures over the records of a journal.  Duplicates do not count.  The mean and the median are
taken over seconds and turned back into durations; the shortest and the longest cycle are
durations as recorded.
-/

namespace RedGreen

structure Statistics where
  totalCommits : Nat
  /-- How many commits each phase has, for every phase in order. -/
  phaseCounts : List (Phase × Nat)
  closedCycles : Nat
  average : Option Duration
  median : Option Duration
  fastest : Option Duration
  slowest : Option Duration
  abandonedCycles : Nat
  orphanGreens : Nat
  skippedUpdates : Nat
  deriving DecidableEq

namespace Statistics

/-- The sum of finite numbers in least units. -/
def totalUnits (xs : List Binary64) : Int := 
  xs.foldr (fun x n => x.units?.getD 0 + n) 0

/-- The exact mean of finite numbers, rounded once. -/
def mean (xs : List Binary64) : Binary64 := .ofUnits false (totalUnits xs) xs.length

/-- The middle one of numbers in order, or the mean of the middle two. -/
def middle (sorted : List Binary64) : Binary64 :=
  let half := sorted.length / 2
  if sorted.length % 2 = 1 then sorted.getD half .zero
  else ((sorted.getD (half - 1) .zero).add (sorted.getD half .zero)).divNat 2

def medianOf (xs : List Binary64) : Binary64 := middle (xs.mergeSort Binary64.le)

def shortest : List Duration → Option Duration
  | [] => none
  | d :: ds => some (ds.foldl (fun a b => if b.micros < a.micros then b else a) d)

def longest : List Duration → Option Duration
  | [] => none
  | d :: ds => some (ds.foldl (fun a b => if a.micros < b.micros then b else a) d)

/-- The durations of the closed cycles, or `none` when one of them cannot be represented. -/
def durations? (records : List Record) : Option (List Duration) :=
  (records.filterMap Record.cycleDuration).mapM id

/-- A figure over the seconds of closed cycles: no figure over no cycles.  The outer `none` is a
figure that is no duration. -/
def figure? (f : List Binary64 → Binary64) : List Binary64 → Option (Option Duration)
  | [] => some none
  | seconds => (Duration.ofSeconds? (f seconds)).map some

/-- The figures over a list of records, or `none` when a duration cannot be represented. -/
def ofRecords? (all : List Record) : Option Statistics := do
  let records := all.filter fun r => !r.duplicate
  let durations ← durations? records
  let seconds := durations.map Duration.toSeconds
  let average ← figure? mean seconds
  let median ← figure? medianOf seconds
  return {
    totalCommits := records.length
    phaseCounts := Phase.all.map fun p => (p, records.countP fun r => decide (r.phase = p))
    closedCycles := durations.length
    average := average
    median := median
    fastest := shortest durations
    slowest := longest durations
    abandonedCycles := records.countP Record.abandonedCycle
    orphanGreens := records.countP Record.orphanGreen
    skippedUpdates := records.countP fun r => decide (r.cycleStatus = .skipped) }

end Statistics

end RedGreen
