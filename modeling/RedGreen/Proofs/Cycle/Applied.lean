import RedGreen.Proofs.Cycle.Visits
import RedGreen.Proofs.Json.Received
import RedGreen.Proofs.Time.Seconds

/-!
# What becomes of any document

The store may find any document in its file, with anything under the names it uses.  `Applied` says
all that it makes of one, and from it follows what holds of every answer and of every document that
is written: a document that was read becomes one that can be read again.
-/

namespace RedGreen

namespace Cycle

/-! ## Documents -/

/-- Whether the hash of a commit is among those that a document remembers. -/
def isKnown (document : Json.Members) (hash : Option Text) : Except StoreError Bool :=
  match countedHash hash with
  | none => .ok false
  | some t => isProcessed t ((document.get? "processed").getD (.arr []))

/-- All that can become of the entries of a document. -/
inductive Paired (now : DateTime) (members : Json.Members) (current : Option State) (branch : Text)
    (time : DateTime) (hash : Option Text) : Bool → Json.Members → Observation → Prop where
  | red (scalar : branch.IsScalar) (nonempty : branch ≠ []) :
    Paired now members current branch time hash true
      (members.put branch ((Opening.mk time hash now).state branch).toJson)
      { Observation.empty with abandonedRedAt := current.bind State.pendingRedAt }
  | orphan (closed : current.bind State.pendingRedAt = none) :
    Paired now members current branch time hash false members
      { Observation.empty with orphan := true }
  | closing {started : DateTime} (pending : current.bind State.pendingRedAt = some started) :
    Paired now members current branch time hash false (members.erase branch)
      { Observation.empty with
        duration := some (.max (time.since started) .zero)
        cycleStartedAt := some started }

section

variable {now time : DateTime} {members members' : Json.Members} {current : Option State}
  {branch : Text} {hash : Option Text} {isRed : Bool} {o : Observation}

theorem pair_eq_ok_iff : pair now members current branch isRed time hash = .ok (members', o) ↔
    Paired now members current branch time hash isRed members' o := by
  constructor
  · intro paired
    unfold pair at paired
    cases isRed with
    | true =>
      by_cases named : branch.IsScalar ∧ branch ≠ []
      · rw [openedState_eq named.1 named.2] at paired
        cases paired
        exact .red named.1 named.2
      · obtain ⟨r, rejected⟩ := openedState_eq_error named now time hash
        rw [rejected] at paired
        cases paired
    | false =>
      cases pending : current.bind State.pendingRedAt with
      | none =>
        simp only [pending, Bool.false_eq_true, if_false] at paired
        cases paired
        exact .orphan pending
      | some started =>
        simp only [pending, Bool.false_eq_true, if_false] at paired
        cases paired
        exact .closing pending
  · intro paired
    cases paired with
    | red scalar nonempty => rw [pair, openedState_eq scalar nonempty]; rfl
    | orphan closed => simp [pair, closed]
    | closing pending => simp [pair, pending]

theorem Paired.isTaken (paired : Paired now members current branch time hash isRed members' o) :
    o.duplicate = false ∧ o.skipped = false := by
  cases paired <;> exact ⟨rfl, rfl⟩

/-- Only a green commit closes a cycle, and in no less than no time. -/
theorem Paired.closes (paired : Paired now members current branch time hash isRed members' o) :
    ∀ d ∈ o.duration, isRed = false ∧ d.Spans 39 := by
  intro d mem
  cases paired with
  | red | orphan => cases mem
  | closing =>
    cases mem
    exact ⟨rfl, Duration.spans_since time _⟩

end

/-- All that can become of a document. -/
inductive Applied (now : DateTime) (n : Int) (document : Json.Members) (branch : Text)
    (isRed : Bool) (time : DateTime) (hash : Option Text) : Json.Members → Observation → Prop where
  | duplicate (known : isKnown document hash = .ok true) :
    Applied now n document branch isRed time hash
      (document.put "version" (.int documentVersion)) { Observation.empty with duplicate := true }
  | counted {members members' : Json.Members} {current : Option State} {processed : Json}
      {o : Observation} (unknown : isKnown document hash = .ok false)
      (listed : branchesOf ((document.get? "branches").getD (.obj [])) = .ok members)
      (loaded : loadBranch now members branch = .ok current)
      (paired : Paired now members current branch time hash isRed members' o)
      (remembered : remember n hash ((document.get? "processed").getD (.arr [])) = .ok processed) :
    Applied now n document branch isRed time hash
      (((document.put "version" (.int documentVersion)).put "processed" processed).put "branches"
        (.obj members')) o

section

variable {now time : DateTime} {n : Int} {document document' : Json.Members} {branch : Text}
  {hash : Option Text} {isRed : Bool} {o : Observation}

theorem apply_eq_steps : apply now n document branch isRed time hash = (do
    let seen ← isKnown document hash
    if seen then
      return (document.put "version" (.int documentVersion),
        { Observation.empty with duplicate := true })
    let members ← branchesOf ((document.get? "branches").getD (.obj []))
    let current ← loadBranch now members branch
    let (members, observation) ← pair now members current branch isRed time hash
    let processed ← remember n hash ((document.get? "processed").getD (.arr []))
    return (((document.put "version" (.int documentVersion)).put "processed" processed).put
      "branches" (.obj members), observation)) := by
  rw [apply, get?_versioned (by decide), get?_versioned (by decide), isKnown]
  cases countedHash hash <;> rfl

theorem apply_eq_ok_iff : apply now n document branch isRed time hash = .ok (document', o) ↔
    Applied now n document branch isRed time hash document' o := by
  rw [apply_eq_steps]
  simp only [bind, Except.bind, pure, Except.pure]
  constructor
  · intro applied
    cases seen : isKnown document hash with
    | error e =>
      rw [seen] at applied
      cases applied
    | ok known =>
    rw [seen] at applied
    cases known with
    | true =>
      cases applied
      exact .duplicate seen
    | false =>
    simp only [Bool.false_eq_true, if_false] at applied
    cases listed : branchesOf ((document.get? "branches").getD (.obj [])) with
    | error e =>
      rw [listed] at applied
      cases applied
    | ok members =>
    cases loaded : loadBranch now members branch with
    | error e =>
      simp only [listed, loaded] at applied
      cases applied
    | ok current =>
    cases paired : pair now members current branch isRed time hash with
    | error e =>
      simp only [listed, loaded, paired] at applied
      cases applied
    | ok p =>
    cases remembered : remember n hash ((document.get? "processed").getD (.arr [])) with
    | error e =>
      simp only [listed, loaded, paired, remembered] at applied
      cases applied
    | ok processed =>
    simp only [listed, loaded, paired, remembered] at applied
    cases applied
    exact .counted seen listed loaded (pair_eq_ok_iff.mp paired) remembered
  · intro applied
    cases applied with
    | duplicate known => simp [known]
    | counted unknown listed loaded paired remembered =>
      simp [unknown, listed, loaded, pair_eq_ok_iff.mpr paired, remembered]

theorem Applied.skipped (applied : Applied now n document branch isRed time hash document' o) :
    o.skipped = false := by
  cases applied with
  | duplicate => rfl
  | counted _ _ _ paired => exact paired.isTaken.2

theorem Applied.closes (applied : Applied now n document branch isRed time hash document' o) :
    ∀ d ∈ o.duration, isRed = false ∧ d.Spans 39 := by
  cases applied with
  | duplicate =>
    intro d mem
    cases mem
  | counted _ _ _ paired => exact paired.closes

/-! ## What is written -/

theorem branchesOf_eq_ok {v : Json} {members : Json.Members} (listed : branchesOf v = .ok members) :
    v = .obj members := by
  cases v with
  | obj => cases listed; rfl
  | _ => cases listed

open Json (Received)

theorem Received.get? {depth : Nat} {members : Json.Members}
    (received : Received (depth + 1) (.obj members)) {name : Text} {v : Json}
    (found : members.get? name = some v) : Received depth v :=
  ((Json.received_obj.mp received).2 _ (Json.Members.mem_of_get? found)).2

theorem Received.put {depth : Nat} {members : Json.Members}
    (received : Received (depth + 1) (.obj members)) {name : Text} (joinless : name.Joinless)
    {v : Json} (value : Received depth v) :
    Received (depth + 1) (.obj (members.put name v)) := by
  obtain ⟨distinct, all⟩ := Json.received_obj.mp received
  refine Json.received_obj.mpr ⟨distinct.put name v, fun p mem => ?_⟩
  rcases Json.Members.mem_put mem with rfl | mem
  · exact ⟨joinless, value⟩
  · exact all p mem

theorem Received.erase {depth : Nat} {members : Json.Members}
    (received : Received (depth + 1) (.obj members)) (name : Text) :
    Received (depth + 1) (.obj (members.erase name)) := by
  obtain ⟨distinct, all⟩ := Json.received_obj.mp received
  exact Json.received_obj.mpr ⟨distinct.erase name,
    fun p mem => all p ((Json.Members.erase_sublist name members).subset mem)⟩

/-- The entry of a red commit is written and read like any other value. -/
theorem received_entry (s : State) : Received 1 s.toJson where
  named := by
    have distinct : List.Nodup (α := Text)
        ["branch", "pending_red_at", "pending_red_hash", "updated_at"] := by decide
    have scalar : ∀ t ∈ (["branch", "pending_red_at", "pending_red_hash", "updated_at"] :
        List Text), t.IsScalar := by decide
    have joinless := fun t mem => (scalar t mem).joinless
    obtain ⟨branch, redAt, hash, updatedAt⟩ := s
    cases redAt <;> cases hash <;>
      exact ⟨distinct, joinless _ (by simp), trivial, joinless _ (by simp), trivial,
        joinless _ (by simp), trivial, joinless _ (by simp), trivial, trivial⟩
  within := ⟨State.nesting_toJson s, State.longNumeral?_toJson s⟩

theorem Paired.received {depth : Nat} (enough : 1 ≤ depth) {members members' : Json.Members}
    {current : Option State} (received : Received (depth + 1) (.obj members))
    (paired : Paired now members current branch time hash isRed members' o) :
    Received (depth + 1) (.obj members') := by
  cases paired with
  | red scalar nonempty =>
    have entry := received_entry ((Opening.mk time hash now).state branch)
    exact Received.put received scalar.joinless ⟨entry.named, entry.within.weaken enough⟩
  | orphan => exact received
  | closing => exact Received.erase received branch

theorem received_processed {depth : Nat} {processed processed' : Json}
    (received : Received (depth + 1) processed)
    (remembered : remember n hash processed = .ok processed') :
    Received (depth + 1) processed' := by
  unfold remember at remembered
  split at remembered
  next =>
    cases remembered
    exact received
  next t _ =>
    split at remembered
    next items =>
      cases remembered
      refine Json.received_arr.mpr fun v mem => ?_
      -- What is remembered was known before, or is the hash of this commit.
      rcases List.mem_append.mp (Ledger.mem_keepLast mem) with old | new
      · exact Json.received_arr.mp received v old
      · rw [List.mem_singleton.mp new]
        exact Json.received_str depth t
    next => cases remembered

/-- Whatever a document that was read becomes can be written and read again. -/
theorem Applied.received {depth : Nat} (enough : 1 ≤ depth)
    (received : Received (depth + 2) (.obj document))
    (applied : Applied now n document branch isRed time hash document' o) :
    Received (depth + 2) (.obj document') := by
  have scalar : ∀ name ∈ documentNames, Text.IsScalar name := by decide
  have names := fun name mem => (scalar name mem).joinless
  have versioned : Received (depth + 2)
      (.obj (document.put "version" (.int documentVersion))) :=
    Received.put received (names _ (by decide)) ⟨trivial, Nat.zero_le _, by decide +kernel⟩
  -- Members that are missing start out empty.
  have member (name : Text) {v : Json} (empty : Received (depth + 1) v) :
      Received (depth + 1) ((document.get? name).getD v) := by
    cases found : document.get? name with
    | none => exact empty
    | some w => exact Received.get? received found
  cases applied with
  | duplicate => exact versioned
  | @counted members members' current processed _ _ listed _ paired remembered =>
    have processed := received_processed
      (member "processed" (v := .arr []) (Json.received_arr.mpr (List.forall_mem_nil _))) remembered
    have branches := member "branches" (v := .obj [])
      (Json.received_obj.mpr ⟨Json.Members.distinct_nil, List.forall_mem_nil _⟩)
    rw [branchesOf_eq_ok listed] at branches
    exact Received.put (Received.put versioned (names _ (by decide)) processed)
      (names _ (by decide)) (paired.received enough branches)

end

end Cycle

end RedGreen
