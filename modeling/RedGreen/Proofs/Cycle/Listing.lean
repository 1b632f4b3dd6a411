import RedGreen.Proofs.Cycle.Frame

/-!
# The list of open cycles

Every entry that reads as an open cycle is listed once, the oldest cycle first and those of one
time as they stand in the file.  A reader of one branch finds its cycle open just when it is listed.
-/

namespace RedGreen

namespace Cycle

/-! ## What an entry contributes -/

/-- The state as it is read at another time, when its entry does not say when it was updated. -/
def State.updatedBy (now : DateTime) (s : State) : State := { s with updatedAt := now }

theorem State.check_of_absent {document : Json.Members}
    (absent : document.get? "updated_at" = none) (now later : DateTime) :
    check later document = (check now document).map (updatedBy later) := by
  have default : ∀ t, Field.optional "updated_at" t Field.utc document = .accept t := by
    intro t
    rw [Field.optional, absent]
  rw [check, check, default, default]
  -- The time only comes in when all other members are accepted.
  generalize Field.required "branch" Field.nonEmptyText document = branch,
    Field.optional "pending_red_at" none (Field.orNull Field.utc) document = redAt,
    Field.optional "pending_red_hash" none (Field.orNull Field.text) document = redHash
  rcases branch with (issues | _) | branch <;> rcases redAt with (issues' | _) | redAt <;>
    rcases redHash with (issues'' | _) | redHash <;> rfl

theorem State.check_of_present {document : Json.Members} {v : Json}
    (present : document.get? "updated_at" = some v) (now later : DateTime) :
    check later document = check now document := by
  have same : Field.optional "updated_at" later Field.utc document =
      Field.optional "updated_at" now Field.utc document := by
    rw [Field.optional, Field.optional, present]
  rw [check, check, same]

theorem State.ofJson_clock (v : Json) :
    (∀ now later, ofJson later v = ofJson now v) ∨
      ∀ now later, ofJson later v = (ofJson now v).map (updatedBy later) := by
  cases v with
  | obj document =>
    cases said : Json.Members.get? "updated_at" document with
    | none => exact .inr fun now later => check_of_absent said now later
    | some v => exact .inl fun now later => check_of_present said now later
  | null | bool _ | int _ | float _ | str _ | arr _ => exact .inl fun now later => rfl

/-- The open cycle that an entry adds to the list, if it reads as one. -/
def contribution (now : DateTime) (v : Json) : Option State :=
  match State.ofJson now v with
  | .ok s => if s.isOpen then some s else none
  | .error _ => none

/-- What the entries of an object contribute, in their order. -/
def contributions (now : DateTime) (members : Json.Members) : List State :=
  members.filterMap fun p => contribution now p.2

theorem ofJson_of_contribution {now : DateTime} {v : Json} {s : State}
    (contributed : contribution now v = some s) : State.ofJson now v = .ok s ∧ s.isOpen = true := by
  rw [contribution] at contributed
  split at contributed
  next t read =>
    split at contributed
    next opened =>
      cases contributed
      exact ⟨read, opened⟩
    next => cases contributed
  next => cases contributed

/-- The clock does not say whether a cycle is open. -/
theorem isSome_contribution (now later : DateTime) (v : Json) :
    (contribution later v).isSome = (contribution now v).isSome := by
  rw [contribution, contribution]
  rcases State.ofJson_clock v with said | unsaid
  · rw [said now later]
  · rw [unsaid now later]
    cases State.ofJson now v with
    | error e => rfl
    | ok s =>
      show (if s.isOpen then some (s.updatedBy later) else none).isSome =
        (if s.isOpen then some s else none).isSome
      split <;> rfl

theorem IsDated.later {now : DateTime} {members : Json.Members} {branch : Text}
    (dated : IsDated now members branch) (later : DateTime) : IsDated later members branch := by
  intro v found overflow
  refine dated v found ?_
  rcases State.ofJson_clock v with said | unsaid
  · rw [said later now, overflow]
  · rw [unsaid later now, overflow]
    rfl

/-! ## Readers -/

section

variable {now : DateTime} {branches members : Json.Members} {branch : Text}

theorem filter_of_loadBranch {current : Option State}
    (loaded : loadBranch now branches branch = .ok current) :
    current.filter State.isOpen = (branches.get? branch).bind (contribution now) := by
  rw [loadBranch_eq_ofJson] at loaded
  cases found : branches.get? branch with
  | none =>
    rw [found] at loaded
    cases loaded
    rfl
  | some v =>
    rw [found] at loaded
    dsimp only at loaded
    rw [Option.bind_some, contribution]
    cases read : State.ofJson now v with
    | ok s =>
      rw [read] at loaded
      cases loaded
      rfl
    | error e =>
      rw [read] at loaded
      cases e with
      | issues =>
        cases loaded
        rfl
      | overflow => cases loaded

theorem filter_of_loadAll {states : List State}
    (within : ∀ p ∈ members, branches.get? p.1 = some p.2)
    (loaded : loadAll now branches members = .ok states) :
    states.filter State.isOpen = contributions now members := by
  induction members generalizing states with
  | nil =>
    cases loaded
    rfl
  | cons p members ih =>
    obtain ⟨name, v⟩ := p
    obtain ⟨found, within⟩ := List.forall_mem_cons.mp within
    rw [loadAll] at loaded
    cases first : loadBranch now branches name with
    | error e =>
      rw [first] at loaded
      cases loaded
    | ok current =>
    cases rest : loadAll now branches members with
    | error e =>
      rw [first, rest] at loaded
      cases loaded
    | ok more =>
    rw [first, rest] at loaded
    cases loaded
    have contributed := filter_of_loadBranch first
    rw [found, Option.bind_some] at contributed
    have opened : current.toList.filter State.isOpen =
        (current.filter State.isOpen).toList := by
      cases current with
      | none => rfl
      | some s => cases opened : s.isOpen <;> simp [Option.filter, opened]
    rw [List.filter_append, ih within rest, contributions, contributions, List.filterMap_cons,
      opened, contributed]
    cases contribution now v <;> rfl

end

/-! ## The order of the list -/

/-- When a cycle was opened, in microseconds on its clock. -/
def State.since (s : State) : Int := (s.pendingRedAt.map DateTime.micros).getD 0

/-- A cycle comes before another when it is older, or as old and `R` puts it first. -/
def Before (R : State → State → Prop) (s t : State) : Prop :=
  s.since < t.since ∨ s.since = t.since ∧ R s t

section

variable {R : State → State → Prop} {s t : State} {states : List State}

theorem insertByTime_cons (s t : State) (states : List State) : insertByTime s (t :: states) =
    if s.since < t.since then s :: t :: states else t :: insertByTime s states :=
  rfl

theorem insertByTime_perm (s : State) (states : List State) :
    (insertByTime s states).Perm (s :: states) := by
  induction states with
  | nil => exact .refl _
  | cons t states ih =>
    rw [insertByTime_cons]
    split
    next => exact .refl _
    next => exact (ih.cons t).trans (.swap s t states)

/-- What is older than the first cycle is older than all. -/
theorem forall_older (sorted : (t :: states).Pairwise (Before R)) (older : s.since < t.since) :
    ∀ u ∈ t :: states, s.since < u.since := by
  refine List.forall_mem_cons.mpr ⟨older, fun u mem => ?_⟩
  rcases List.rel_of_pairwise_cons sorted mem with later | same
  · exact older.trans later
  · exact same.1 ▸ older

theorem pairwise_insertByTime (sorted : states.Pairwise (Before R)) (last : ∀ t ∈ states, R t s) :
    (insertByTime s states).Pairwise (Before R) := by
  induction states with
  | nil => exact List.pairwise_singleton _ s
  | cons t states ih =>
    obtain ⟨least, rest⟩ := List.pairwise_cons.mp sorted
    obtain ⟨first, last⟩ := List.forall_mem_cons.mp last
    rw [insertByTime_cons]
    split
    next older =>
      exact List.pairwise_cons.mpr ⟨fun u mem => .inl (forall_older sorted older u mem), sorted⟩
    next notOlder =>
      refine List.pairwise_cons.mpr ⟨fun u mem => ?_, ih rest last⟩
      rcases List.mem_cons.mp ((insertByTime_perm s states).mem_iff.mp mem) with rfl | mem
      · exact (Int.lt_or_eq_of_le (Int.not_lt.mp notOlder)).imp_right fun same => ⟨same, first⟩
      · exact least u mem

theorem filter_insertByTime (sorted : states.Pairwise (Before R)) (i : Int) :
    (insertByTime s states).filter (fun t => t.since = i) =
      (states ++ [s]).filter (fun t => t.since = i) := by
  induction states with
  | nil => rfl
  | cons t states ih =>
    rw [insertByTime_cons]
    split
    next older =>
      rw [← List.singleton_append, List.filter_append, List.filter_append]
      by_cases same : s.since = i
      · -- Behind `s` there is no other cycle of its time.
        have none : (t :: states).filter (fun t => t.since = i) = [] := by
          refine List.filter_eq_nil_iff.mpr fun u mem => ?_
          have later := forall_older sorted older u mem
          simp only [decide_eq_true_eq]
          omega
        rw [none, List.append_nil, List.nil_append]
      · have none : [s].filter (fun t => t.since = i) = [] := by simp [same]
        rw [none, List.append_nil, List.nil_append]
    next => rw [List.cons_append, List.filter_cons, List.filter_cons, ih sorted.of_cons]

theorem sortByTime_concat (states : List State) (s : State) :
    sortByTime (states ++ [s]) = insertByTime s (sortByTime states) := by
  rw [sortByTime, List.foldl_append]
  rfl

theorem sortByTime_perm (states : List State) : (sortByTime states).Perm states := by
  induction states using List.reverseRecOn with
  | nil => exact .refl _
  | append_singleton states s ih =>
    rw [sortByTime_concat]
    exact (insertByTime_perm s _).trans ((ih.cons s).trans (List.perm_append_singleton s _).symm)

/-- Cycles of the same time stay in the order in which they are given. -/
theorem pairwise_sortByTime (given : states.Pairwise R) :
    (sortByTime states).Pairwise (Before R) := by
  induction states using List.reverseRecOn with
  | nil => exact .nil
  | append_singleton states s ih =>
    obtain ⟨given, _, last⟩ := List.pairwise_append.mp given
    rw [sortByTime_concat]
    refine pairwise_insertByTime (ih given) fun t mem => ?_
    exact last t ((sortByTime_perm states).mem_iff.mp mem) s (List.mem_singleton_self s)

theorem filter_sortByTime (states : List State) (i : Int) :
    (sortByTime states).filter (fun t => t.since = i) =
      states.filter (fun t => t.since = i) := by
  induction states using List.reverseRecOn with
  | nil => rfl
  | append_singleton states s ih =>
    have sorted : (sortByTime states).Pairwise (Before fun _ _ => True) :=
      pairwise_sortByTime (List.pairwise_of_forall fun _ _ => trivial)
    rw [sortByTime_concat, filter_insertByTime sorted, List.filter_append, List.filter_append, ih]

end

/-! ## The list -/

theorem State.ofJson_eq_ok {now : DateTime} {v : Json} {s : State} (read : ofJson now v = .ok s) :
    ∃ document : Json.Members, v = .obj document ∧
      document.get? "branch" = some (.str s.branch) ∧ ∀ t ∈ s.pendingRedAt, t.IsUtc := by
  cases v with
  | obj document =>
    obtain ⟨_, _, upToHash, _, rfl⟩ := Checked.seq_eq_ok (show check now document = .ok s from read)
    obtain ⟨_, _, upToRed, _, rfl⟩ := Checked.seq_eq_ok upToHash
    obtain ⟨_, redAt, upToBranch, timed, rfl⟩ := Checked.seq_eq_ok upToRed
    obtain ⟨branch, named, rfl⟩ := Checked.map_eq_ok upToBranch
    obtain ⟨_, found, text⟩ := Field.required_eq_ok named
    obtain ⟨rfl, _⟩ := Field.nonEmptyText_eq_ok_iff.mp text
    refine ⟨document, rfl, found, ?_⟩
    rintro t (rfl : redAt = some t)
    rcases Field.optional_cases timed with absent | ⟨v, _, checked⟩
    · cases absent
    · exact Field.isUtc_of_utc (Field.orNull_eq_ok checked)
  | null | bool _ | int _ | float _ | str _ | arr _ => cases read

theorem isSome_filter_isOpen {s : Option State} :
    (s.filter State.isOpen).isSome = true ↔ ∃ t ∈ s, t.isOpen = true := by
  cases s with
  | none => simp
  | some t => cases opened : t.isOpen <;> simp [Option.filter, opened]

/-- A list of all open cycles among the entries of a file. -/
structure Lists (now : DateTime) (f : Disk.File) (members : Json.Members) (states : List State) :
    Prop where
  /-- Each entry that reads as an open cycle is listed once, and nothing else is. -/
  complete : states.Perm (contributions now members)
  opened : ∀ s ∈ states, ∃ t, s.pendingRedAt = some t ∧ t.IsUtc
  ordered : states.Pairwise fun s t => s.since ≤ t.since
  stable : ∀ i, states.filter (fun s => s.since = i) =
    (contributions now members).filter fun s => s.since = i
  /-- A reader of one branch finds the cycle that its entry contributes, at whatever time. -/
  found : ∀ later branch, ∃ s, get later f branch = .ok s ∧
    s.filter State.isOpen = (members.get? branch).bind (contribution later) ∧
    ((∃ t ∈ s, t.isOpen = true) ↔
      ∃ v, members.get? branch = some v ∧ (contribution now v).isSome)

section

variable {now : DateTime} {f : Disk.File} {document members : Json.Members} {states : List State}

theorem distinct_of_read (read : Document.read f = .ok document)
    (listed : branchesIn document = .obj members) : members.Distinct :=
  (Json.obtained_obj.mp (obtained_entries (obtained_of_read read) listed)).1

theorem loadAll_of_pending (read : Document.read f = .ok document)
    (listed : branchesIn document = .obj members) (answered : pending now f = .ok states) :
    ∃ all, loadAll now members members = .ok all ∧
      states = sortByTime (all.filter State.isOpen) := by
  rw [pending_of_read read, listed] at answered
  cases loaded : loadAll now members members with
  | error e =>
    simp only [loaded] at answered
    cases answered
  | ok all =>
    simp only [loaded] at answered
    cases answered
    exact ⟨all, rfl, rfl⟩

theorem states_of_pending (read : Document.read f = .ok document)
    (listed : branchesIn document = .obj members) (answered : pending now f = .ok states) :
    states = sortByTime (contributions now members) := by
  obtain ⟨all, loaded, rfl⟩ := loadAll_of_pending read listed answered
  have found : ∀ p ∈ members, members.get? p.1 = some p.2 := fun p mem =>
    Json.Members.get?_of_mem (distinct_of_read read listed) mem
  rw [filter_of_loadAll found loaded]

/-- The list, whenever there is one, is of all open cycles. -/
theorem lists_of_pending (read : Document.read f = .ok document)
    (listed : branchesIn document = .obj members) (answered : pending now f = .ok states) :
    Lists now f members states := by
  obtain ⟨all, loaded, _⟩ := loadAll_of_pending read listed answered
  have dated := loadAll_isOk_iff.mp ⟨all, loaded⟩
  rw [states_of_pending read listed answered]
  have sorted : (sortByTime (contributions now members)).Pairwise (Before fun _ _ => True) :=
    pairwise_sortByTime (List.pairwise_of_forall fun _ _ => trivial)
  exact {
    complete := sortByTime_perm _
    opened := by
      intro s mem
      obtain ⟨p, _, contributed⟩ :=
        List.mem_filterMap.mp ((sortByTime_perm _).mem_iff.mp mem)
      obtain ⟨read, opened⟩ := ofJson_of_contribution contributed
      obtain ⟨t, redAt⟩ := Option.isSome_iff_exists.mp opened
      obtain ⟨_, _, _, utc⟩ := State.ofJson_eq_ok read
      exact ⟨t, redAt, utc t redAt⟩
    ordered := sorted.imp fun before => before.elim Int.le_of_lt fun same => Int.le_of_eq same.1
    stable := filter_sortByTime _
    found := by
      intro later branch
      -- A branch without an entry has no time that could be out of range.
      have dated : IsDated later members branch := by
        intro v entry
        exact (dated _ (Json.Members.mem_of_get? entry)).later later v entry
      obtain ⟨s, loaded⟩ := loadBranch_isOk_iff.mpr dated
      have opened := filter_of_loadBranch loaded
      refine ⟨s, (get_of_read read listed later branch).trans loaded, opened, ?_⟩
      rw [← isSome_filter_isOpen, opened]
      cases members.get? branch with
      | none => simp
      | some v => simp [isSome_contribution now later v] }

end

end Cycle

end RedGreen
