import RedGreen.Proofs.Delivery.Answers
import RedGreen.Proofs.Delivery.Waits

/-!
# Series of attempts

A series stops at the first attempt that is not to be tried again, and at the last one that is
allowed.  Before each further attempt there is one wait, and the breaker learns the end once.
-/

namespace RedGreen

namespace Delivery

/-- A series from attempt `first` on, which may go on to attempt `last`, stops at attempt `n`. -/
structure StopsAt (exchange : Nat → Exchange) (first last n : Nat) : Prop where
  first_le : first ≤ n
  le_last : n ≤ last
  retried : ∀ i, first ≤ i → i < n → ∃ reason, judge (exchange (i - 1)) = .ok (.tryAgain reason)
  stopped : n < last → ∀ reason, judge (exchange (n - 1)) ≠ .ok (.tryAgain reason)

/-- How a series ends whose last attempt is judged so. -/
def endingOf : Except Failure Verdict → Ending
  | .error failure => .brokenOff failure
  | .ok .delivered => .delivered
  | .ok (.final reason) | .ok (.tryAgain reason) => .failed reason

/-- What a series that stops at attempt `n` amounts to. -/
structure Series.Reaches (s : Series) (d : Settings.Delivery) (exchange : Nat → Exchange)
    (first n : Nat) : Prop where
  attempts : s.attempts = n
  delays : s.delays =
    (List.range' first (n - first)).map fun i : Nat => (backoff d i).getD d.backoffMax
  ending : s.ending = endingOf (judge (exchange (n - 1)))

variable {exchange : Nat → Exchange} {first last n m : Nat}

theorem StopsAt.unique (one : StopsAt exchange first last n)
    (other : StopsAt exchange first last m) : n = m := by
  -- The earlier of two would have been tried again.
  have never : ∀ {a b}, StopsAt exchange first last a → StopsAt exchange first last b → ¬a < b := by
    intro a b early late less
    obtain ⟨reason, again⟩ := late.retried a early.first_le less
    exact early.stopped (Nat.lt_of_lt_of_le less late.le_last) reason again
  exact Nat.le_antisymm (Nat.not_lt.mp (never other one)) (Nat.not_lt.mp (never one other))

theorem StopsAt.here (le : first ≤ last)
    (stopped : first < last → ∀ reason, judge (exchange (first - 1)) ≠ .ok (.tryAgain reason)) :
    StopsAt exchange first last first :=
  ⟨Nat.le_refl _, le, fun _ le lt => absurd le (Nat.not_le.mpr lt), stopped⟩

theorem StopsAt.later {reason : Text}
    (again : judge (exchange (first - 1)) = .ok (.tryAgain reason))
    (stops : StopsAt exchange (first + 1) last n) : StopsAt exchange first last n where
  first_le := Nat.le_of_succ_le stops.first_le
  le_last := stops.le_last
  retried i le lt := by
    rcases Nat.eq_or_lt_of_le le with rfl | more
    · exact ⟨reason, again⟩
    · exact stops.retried i more lt
  stopped := stops.stopped

namespace Series

variable {d : Settings.Delivery} {s : Series}

theorem Reaches.here (attempts : s.attempts = first) (delays : s.delays = [])
    (ending : s.ending = endingOf (judge (exchange (first - 1)))) :
    s.Reaches d exchange first first where
  attempts := attempts
  delays := by
    rw [delays, Nat.sub_self]
    rfl
  ending := ending

theorem Reaches.behind (reaches : s.Reaches d exchange (first + 1) n) (later : first + 1 ≤ n)
    (note : Note) :
    (s.behind note ((backoff d first).getD d.backoffMax)).Reaches d exchange first n where
  attempts := reaches.attempts
  delays := by
    have more : n - first = n - (first + 1) + 1 := by omega
    rw [more, List.range'_succ, List.map_cons, ← reaches.delays]
    rfl
  ending := reaches.ending

end Series

/-- A series that does not go on is one attempt. -/
theorem attemptFrom_here (d : Settings.Delivery) (hash : Text) {left : Nat}
    (stopped : 0 < left → ∀ reason, judge (exchange (first - 1)) ≠ .ok (.tryAgain reason)) :
    (attemptFrom d hash exchange left first).Reaches d exchange first first := by
  unfold attemptFrom
  split
  next failure judged => exact .here rfl rfl (by rw [judged]; rfl)
  next judged => exact .here rfl rfl (by rw [judged]; rfl)
  next reason judged => exact .here rfl rfl (by rw [judged]; rfl)
  next reason judged =>
    cases left with
    | zero => exact .here rfl rfl (by rw [judged]; rfl)
    | succ left => exact absurd judged (stopped (Nat.succ_pos left) reason)

/-- Every series stops somewhere, and is what the attempts up to there make it. -/
theorem attemptFrom_reaches (d : Settings.Delivery) (hash : Text) (exchange : Nat → Exchange)
    (left first : Nat) : ∃ n, StopsAt exchange first (first + left) n ∧
      (attemptFrom d hash exchange left first).Reaches d exchange first n := by
  induction left generalizing first with
  | zero =>
    exact ⟨first, .here (Nat.le_refl _) fun lt => absurd lt (Nat.lt_irrefl _),
      attemptFrom_here d hash fun lt => absurd lt (Nat.lt_irrefl _)⟩
  | succ left ih =>
    by_cases again : ∃ reason, judge (exchange (first - 1)) = .ok (.tryAgain reason)
    · obtain ⟨reason, again⟩ := again
      obtain ⟨n, stops, reaches⟩ := ih (first + 1)
      have step : attemptFrom d hash exchange (left + 1) first =
          (attemptFrom d hash exchange left (first + 1)).behind
            (failedNote first d.maxAttempts.toNat hash reason)
            ((backoff d first).getD d.backoffMax) := by
        rw [attemptFrom, again]
      rw [Nat.add_right_comm] at stops
      exact ⟨n, .later again stops, step ▸ reaches.behind stops.first_le _⟩
    · have stopped := not_exists.mp again
      exact ⟨first, .here (Nat.le_add_right _ _) fun _ => stopped,
        attemptFrom_here d hash fun _ => stopped⟩

end Delivery

end RedGreen
