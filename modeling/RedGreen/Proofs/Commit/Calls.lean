import RedGreen.Proofs.Run.Extraction
import RedGreen.Proofs.Settings.Accepted

/-!
# Calls on commits

A commit is checked once, when it is made.  The calls on it copy it without another check, so what
the check found lasts only because the calls are guarded: `Makes` says which calls succeed and what
they make, and everything about a run of calls is carried along `Makes`.
-/

namespace RedGreen

namespace Field

/-- A count is the integer that was given, which was not negative. -/
theorem count_eq_ok {v : Json} {n : Nat} (accepted : count v = .ok n) : int v = .ok (n : Int) := by
  obtain ⟨i, least, rfl⟩ := Checked.map_eq_ok accepted
  have bound := intFrom_eq_ok least
  obtain ⟨j, read, guarded⟩ := Checked.andThen_eq_ok least
  obtain ⟨_, rfl⟩ := guard_eq_ok guarded
  rw [read, Int.toNat_of_nonneg bound]

end Field

namespace Commit

def fieldNames : List Text :=
  ["commit_hash", "branch", "message", "phase", "files_changed", "lines_added", "lines_removed",
    "changed_paths", "author", "repository", "occurred_at", "cycle_duration"]

inductive Call where
  | withPhase (phase : Phase)
  | withCycleDuration (duration : Option Duration)
  /-- A value is assigned to one of the fields. -/
  | assign (field : Text) (known : field ∈ fieldNames) (value : Json)

inductive CallError where
  | refused (e : CommitError)
  | rejected (r : Rejection)

def perform (c : Commit) : Call → Except CallError Commit
  | .withPhase phase => (c.withPhase phase).mapError .refused
  | .withCycleDuration duration => (c.withCycleDuration duration).mapError .refused
  | .assign field _ value => .error (.rejected (c.assign field value))

/-- The commit after a call; a call that fails leaves it as it was. -/
def next (c : Commit) (call : Call) : Commit :=
  match c.perform call with
  | .ok c' => c'
  | .error _ => c

def after (c : Commit) (calls : List Call) : Commit := calls.foldl next c

/-! ## One call -/

/-- The calls that succeed, and what they make of a commit. -/
inductive Makes (c : Commit) : Call → Commit → Prop
  | phase {p : Phase} (unset : ∀ old ∈ c.phase, old = p) :
    Makes c (.withPhase p) { c with phase := some p }
  | duration {d : Option Duration} (green : d.isSome → c.phase = some .green) :
    Makes c (.withCycleDuration d) { c with cycleDuration := d }

theorem perform_eq_ok_iff {c c' : Commit} {call : Call} :
    c.perform call = .ok c' ↔ c.Makes call c' := by
  constructor
  · intro performed
    cases call with
    | withPhase p =>
      rw [perform, withPhase] at performed
      split at performed
      next old set =>
        split at performed
        next same =>
          cases performed
          refine .phase ?_
          rw [set]
          rintro _ ⟨⟩
          exact same
        next => cases performed
      next unset =>
        cases performed
        refine .phase ?_
        rw [unset]
        exact nofun
    | withCycleDuration d =>
      rw [perform, withCycleDuration] at performed
      split at performed
      next => cases performed
      next free =>
        cases performed
        exact .duration fun closed => by simpa [closed] using free
    | assign field known value => cases performed
  · intro makes
    cases makes with
    | phase unset =>
      rw [perform, withPhase]
      split
      next old set =>
        rw [if_pos (unset old set)]
        rfl
      next => rfl
    | duration green =>
      rw [perform, withCycleDuration, if_neg]
      · rfl
      · simpa using green

theorem next_cases (c : Commit) (call : Call) : c.next call = c ∨ c.Makes call (c.next call) := by
  rw [next]
  cases performed : c.perform call with
  | error e => exact .inl rfl
  | ok c' => exact .inr (perform_eq_ok_iff.mp performed)

/-! ## What every call keeps -/

/-- What holds of a commit at all times. -/
structure IsSound (c : Commit) : Prop where
  named : c.IsNamed
  occurredAt : c.occurredAt.IsUtc
  duration : c.cycleDuration.isSome → c.phase = some .green

/-- What a commit can become: a phase that is set stays, and apart from the phase and the duration
nothing changes. -/
structure Becomes (first c : Commit) : Prop where
  phase : ∀ p ∈ first.phase, c.phase = some p
  others : c = { first with phase := c.phase, cycleDuration := c.cycleDuration }

theorem Becomes.refl (c : Commit) : c.Becomes c := ⟨fun _ set => set, rfl⟩

theorem Becomes.trans {first second third : Commit} (one : first.Becomes second)
    (two : second.Becomes third) : first.Becomes third := by
  refine ⟨fun p set => two.phase p (one.phase p set), ?_⟩
  have changed := two.others
  rw [one.others] at changed
  exact changed

theorem Becomes.isNamed {first c : Commit} (becomes : first.Becomes c) (named : first.IsNamed) :
    c.IsNamed := by
  rw [becomes.others]
  exact ⟨named.branch, named.author, named.repository⟩

theorem Makes.becomes {c c' : Commit} {call : Call} (makes : c.Makes call c') : c.Becomes c' := by
  cases makes with
  | phase unset => exact ⟨fun p set => congrArg some (unset p set).symm, rfl⟩
  | duration green => exact ⟨fun _ set => set, rfl⟩

theorem Makes.isSound {c c' : Commit} {call : Call} (makes : c.Makes call c') (sound : c.IsSound) :
    c'.IsSound := by
  have named := makes.becomes.isNamed sound.named
  cases makes with
  | phase unset =>
    refine ⟨named, sound.occurredAt, fun closed => ?_⟩
    -- The duration was there before, so the phase was set already, and the call kept it.
    rw [unset .green (sound.duration closed)]
  | duration green => exact ⟨named, sound.occurredAt, green⟩

theorem after_cons (c : Commit) (call : Call) (calls : List Call) :
    c.after (call :: calls) = (c.next call).after calls := rfl

theorem after_append (c : Commit) (calls more : List Call) :
    c.after (calls ++ more) = (c.after calls).after more := List.foldl_append

theorem becomes_after (c : Commit) (calls : List Call) : c.Becomes (c.after calls) := by
  induction calls generalizing c with
  | nil => exact .refl c
  | cons call calls ih =>
    rw [after_cons]
    obtain same | makes := c.next_cases call
    · rw [same]
      exact ih c
    · exact makes.becomes.trans (ih _)

theorem IsSound.after {c : Commit} (sound : c.IsSound) (calls : List Call) :
    (c.after calls).IsSound := by
  induction calls generalizing c with
  | nil => exact sound
  | cons call calls ih =>
    rw [after_cons]
    obtain same | makes := c.next_cases call
    · rw [same]
      exact ih sound
    · exact ih (makes.isSound sound)

/-! ## Commits as they are made -/

/-- The counts are integers that a document gives, 0 where it gives none. -/
structure Counts (document : Json.Members) (c : Commit) : Prop where
  files : Field.optional "files_changed" 0 Field.int document = .ok (c.filesChanged : Int)
  added : Field.optional "lines_added" 0 Field.int document = .ok (c.linesAdded : Int)
  removed : Field.optional "lines_removed" 0 Field.int document = .ok (c.linesRemoved : Int)

theorem int_of_count {name : Text} {document : Json.Members} {n : Nat}
    (accepted : Field.optional name 0 Field.count document = .ok n) :
    Field.optional name 0 Field.int document = .ok (n : Int) := by
  rw [Field.optional] at accepted ⊢
  cases given : document.get? name with
  | none =>
    rw [given] at accepted
    cases accepted
    rfl
  | some v =>
    rw [given] at accepted
    dsimp only
    rw [Field.count_eq_ok (Checked.under_eq_ok accepted)]
    rfl

theorem isName_of_optional {name : Text} {document : Json.Members} {t : Text}
    (accepted : Field.optional name unknownName
      (fun v => (Field.text v).map nameOrUnknown) document = .ok t) : IsName t :=
  Field.optional_eq_ok accepted isName_unknownName fun _ _ => isName_of_text

/-- A commit that was accepted has names and counts, and a time in UTC when it was given one. -/
theorem check_eq_ok {now : DateTime} {document : Json.Members} {c : Commit}
    (accepted : check now document = .ok c) :
    c.IsNamed ∧ c.Counts document ∧
      ((document.get? "occurred_at").isSome → c.occurredAt.IsUtc) := by
  obtain ⟨f₁₁, duration, upToTime, _, rfl⟩ := Checked.seq_eq_ok accepted
  obtain ⟨f₁₀, time, upToRepository, timed, rfl⟩ := Checked.seq_eq_ok upToTime
  obtain ⟨f₉, repository, upToAuthor, placed, rfl⟩ := Checked.seq_eq_ok upToRepository
  obtain ⟨f₈, author, upToPaths, written, rfl⟩ := Checked.seq_eq_ok upToAuthor
  obtain ⟨f₇, paths, upToRemoved, _, rfl⟩ := Checked.seq_eq_ok upToPaths
  obtain ⟨f₆, removed, upToAdded, minus, rfl⟩ := Checked.seq_eq_ok upToRemoved
  obtain ⟨f₅, added, upToFiles, plus, rfl⟩ := Checked.seq_eq_ok upToAdded
  obtain ⟨f₄, files, upToPhase, touched, rfl⟩ := Checked.seq_eq_ok upToFiles
  obtain ⟨f₃, phase, upToMessage, _, rfl⟩ := Checked.seq_eq_ok upToPhase
  obtain ⟨f₂, message, upToBranch, _, rfl⟩ := Checked.seq_eq_ok upToMessage
  obtain ⟨f₁, branch, upToHash, named, rfl⟩ := Checked.seq_eq_ok upToBranch
  obtain ⟨hash, _, rfl⟩ := Checked.map_eq_ok upToHash
  refine ⟨⟨isName_of_optional named, isName_of_optional written, isName_of_optional placed⟩,
    ⟨int_of_count touched, int_of_count plus, int_of_count minus⟩, fun given => ?_⟩
  rw [Field.optional] at timed
  obtain ⟨v, found⟩ := Option.isSome_iff_exists.mp given
  rw [found] at timed
  exact Field.isUtc_of_utc (Checked.under_eq_ok timed)

/-- A commit made with a time and without a duration, from a document or from a repository. -/
inductive IsMade (c : Commit) : Prop
  | checked {now : DateTime} {document : Json.Members} (accepted : check now document = .ok c)
    (timed : (document.get? "occurred_at").isSome) (opened : c.cycleDuration = none)
  | extracted {now : DateTime} {r : Repository} {reference : Text}
    (read : Extraction.extract now r reference = .ok c)

theorem IsMade.isSound {c : Commit} (made : c.IsMade) : c.IsSound := by
  cases made with
  | checked accepted timed opened =>
    obtain ⟨named, _, utc⟩ := check_eq_ok accepted
    refine ⟨named, utc timed, fun closed => ?_⟩
    rw [opened] at closed
    cases closed
  | extracted read =>
    have extracted := Extraction.isExtracted read
    refine ⟨Extraction.isNamed read, extracted.occurredAt, fun closed => ?_⟩
    rw [extracted.cycleDuration] at closed
    cases closed

theorem Becomes.counts {first c : Commit} (becomes : first.Becomes c) {document : Json.Members}
    (counts : first.Counts document) : c.Counts document := by
  rw [becomes.others]
  exact ⟨counts.files, counts.added, counts.removed⟩

/-- Whatever is called on a commit, it stays sound, and nothing but the phase and the duration
changes: the names, the time and the counts that were given are those it was made with.  No field is
ever assigned, and a phase that is set stays. -/
theorem calls_preserve {first : Commit} (made : first.IsMade) (calls : List Call) :
    (first.after calls).IsSound ∧ first.Becomes (first.after calls) ∧
    (∀ now document, check now document = .ok first → (first.after calls).Counts document) ∧
    (∀ field known value, (first.after calls).perform (.assign field known value) =
      .error (.rejected (.issues [⟨.frozen, [.name field]⟩]))) ∧
    ∀ more p, (first.after calls).phase = some p →
      (first.after (calls ++ more)).phase = some p := by
  have becomes := first.becomes_after calls
  refine ⟨made.isSound.after calls, becomes, fun now document accepted => ?_,
    fun field known value => rfl, fun more p set => ?_⟩
  · obtain ⟨_, counts, _⟩ := check_eq_ok accepted
    exact becomes.counts counts
  · rw [after_append]
    exact (becomes_after _ more).phase p set

def sampleDocument : Json.Members :=
  [("commit_hash", .str "abc"), ("branch", .str " main\n"), ("author", .str " "),
    ("lines_added", .str " 3 "), ("occurred_at", .int 1704067200)]

/-- Calls of which only the second and the last succeed. -/
def sampleCalls : List Call :=
  [.withCycleDuration (some .zero), .withPhase .green, .withPhase .red,
    .assign "phase" (by decide) .null, .withCycleDuration (some .zero)]

theorem calls_preserve_sample :
    let first : Commit :=
      ⟨"abc", "main", [], none, 0, 3, 0, [], "unknown", "unknown", .minute 0, none⟩
    check (.minute 7) sampleDocument = .ok first ∧ first.IsMade ∧
      (first.after sampleCalls).IsSound ∧ (first.after sampleCalls).Counts sampleDocument ∧
      (first.after sampleCalls).cycleDuration = some .zero ∧
      (first.after sampleCalls).phase = some .green ∧
      (first.after (sampleCalls ++ [.withPhase .red])).phase = some .green := by
  intro first
  have accepted : check (.minute 7) sampleDocument = .ok first := rfl
  have made : first.IsMade := .checked accepted rfl rfl
  obtain ⟨sound, _, counts, _, stays⟩ := calls_preserve made sampleCalls
  exact ⟨accepted, made, sound, counts _ _ accepted, rfl, rfl, stays _ _ rfl⟩

end Commit

end RedGreen
