import RedGreen.Cycle.Store
import RedGreen.Proofs.Cycle.Entries

/-!
# The ledger behind the store

The store is a small machine whose state lies in a file.  `Ledger` is that state without the file:
the hashes that are remembered and the open cycles.  A document keeps a ledger when it holds
nothing else, and a file holds a ledger when it is read as such a document; each visit of the store
then does to the file what `Ledger.visit` does to the ledger.
-/

namespace RedGreen

namespace Cycle

/-- What the store knows. -/
structure Ledger where
  hashes : List Text
  opened : Text → Option Opening

namespace Ledger

def empty : Ledger := ⟨[], fun _ => none⟩

def knows (l : Ledger) (hash : Option Text) : Bool :=
  match countedHash hash with
  | none => false
  | some t => l.hashes.any fun u => decide (u = t)

/-- What is kept about a branch. -/
def state? (l : Ledger) (branch : Text) : Option State :=
  (l.opened branch).map fun o => o.state branch

/-- What a red or green commit does to the cycle of its branch. -/
def observe (l : Ledger) (branch : Text) (isRed : Bool) (at' : DateTime) : Observation :=
  if isRed then { Observation.empty with abandonedRedAt := (l.opened branch).map Opening.redAt }
  else match l.opened branch with
    | none => { Observation.empty with orphan := true }
    | some o =>
      { Observation.empty with
        duration := some (.max (at'.since o.redAt) .zero)
        cycleStartedAt := some o.redAt }

/-- The ledger after a red or green commit. -/
def take (n : Int) (now : DateTime) (l : Ledger) (branch : Text) (isRed : Bool) (at' : DateTime)
    (hash : Option Text) : Ledger where
  hashes := match countedHash hash with
    | none => l.hashes
    | some t => keepLast n (l.hashes ++ [t])
  opened b :=
    if branch = b then (if isRed then some ⟨at', hash, now⟩ else none) else l.opened b

/-- What a visit says and leaves behind, while the lock is free or not. -/
def visit (n : Int) (held : Bool) (now : DateTime) (l : Ledger) (branch : Text) (phase : Phase)
    (at' : DateTime) (hash : Option Text) : Observation × Ledger :=
  match isRed? phase, at'.toUtc? with
  | some isRed, some utc =>
    if held then (.passedOver, l)
    else if l.knows hash then ({ Observation.empty with duplicate := true }, l)
    else (l.observe branch isRed utc, l.take n now branch isRed utc hash)
  | _, _ => (.empty, l)

/-- A ledger that a document keeps. -/
structure Lasts (l : Ledger) : Prop where
  hashes : ∀ t ∈ l.hashes, t.Joinless
  opened : ∀ b o, l.opened b = some o → o.Lasts ∧ b.IsScalar ∧ b ≠ []

theorem lasts_empty : empty.Lasts :=
  ⟨fun _ mem => absurd mem List.not_mem_nil, fun _ _ found => nomatch found⟩

theorem mem_keepLast {α : Type} {n : Int} {x : α} {items : List α} (mem : x ∈ keepLast n items) :
    x ∈ items := by
  unfold keepLast at mem
  split at mem <;> exact List.mem_of_mem_drop mem

theorem mem_keepLast_append {n : Int} (atLeastOne : 1 ≤ n) (t : Text) (ts : List Text) :
    t ∈ keepLast n (ts ++ [t]) := by
  have positive : 0 < n := atLeastOne
  have few : (ts ++ [t]).length - n.toNat ≤ ts.length := by
    rw [List.length_append, List.length_singleton]
    omega
  rw [keepLast, if_pos positive, List.drop_append_of_le_length few]
  exact List.mem_append_right _ (List.mem_singleton.mpr rfl)

/-- A commit that was just taken into account is known from then on. -/
theorem knows_take {n : Int} (atLeastOne : 1 ≤ n) (l : Ledger) (now at' : DateTime) (branch : Text)
    (isRed : Bool) {hash : Text} (named : hash ≠ []) :
    (l.take n now branch isRed at' (some hash)).knows (some hash) = true := by
  have counted : countedHash (some hash) = some hash :=
    Option.filter_eq_some_iff.mpr ⟨rfl, by simpa using named⟩
  rw [knows, take, counted]
  simpa using mem_keepLast_append atLeastOne hash l.hashes

theorem Lasts.take {l : Ledger} (lasts : l.Lasts) {n : Int} {now at' : DateTime} {branch : Text}
    {isRed : Bool} {hash : Option Text} (clock : now.IsUtc) (utc : at'.IsUtc)
    (spelled : ∀ t ∈ hash, t.Joinless)
    (named : isRed = true → branch.IsScalar ∧ branch ≠ []) :
    (l.take n now branch isRed at' hash).Lasts where
  hashes t mem := by
    rw [Ledger.take] at mem
    cases counted : countedHash hash with
    | none =>
      rw [counted] at mem
      exact lasts.hashes t mem
    | some u =>
      rw [counted] at mem
      -- What is remembered was known before, or is the hash of this commit.
      rcases List.mem_append.mp (mem_keepLast mem) with old | new
      · exact lasts.hashes t old
      · rw [List.mem_singleton.mp new]
        exact spelled u (Option.filter_eq_some_iff.mp counted).1
  opened b o found := by
    rw [Ledger.take] at found
    by_cases same : branch = b
    · subst same
      cases isRed with
      | true =>
        simp only [if_pos, Option.some.injEq] at found
        subst found
        exact ⟨⟨utc, spelled, clock⟩, named rfl⟩
      | false => simp at found
    · simp only [if_neg same] at found
      exact lasts.opened b o found

end Ledger

/-! ## Documents -/

/-- The members under which the entries of all open cycles stand, and nothing else. -/
def Enters (members : Json.Members) (opened : Text → Option Opening) : Prop :=
  members.Distinct ∧ ∀ b, Json.Members.get? b members = (opened b).map fun o => (o.state b).toJson

def documentNames : List Text := ["version", "processed", "branches"]

/-- A document that keeps a ledger and nothing else. -/
structure Keeps (document : Json.Members) (l : Ledger) : Prop where
  distinct : document.Distinct
  names : ∀ p ∈ document, p.1 ∈ documentNames
  version : ∀ v, document.get? "version" = some v → v = .int documentVersion
  processed : (document.get? "processed").getD (.arr []) = .arr (l.hashes.map .str)
  branches : ∃ members, (document.get? "branches").getD (.obj []) = .obj members ∧
    Enters members l.opened

theorem keeps_empty : Keeps [] .empty :=
  ⟨Json.Members.distinct_nil, nofun, nofun, rfl, [], rfl, Json.Members.distinct_nil, fun _ => rfl⟩

/-- What stands under a name of a document. -/
inductive Part (l : Ledger) : Json → Prop where
  | version : Part l (.int documentVersion)
  | processed : Part l (.arr (l.hashes.map .str))
  | branches {members : Json.Members} (enters : Enters members l.opened) : Part l (.obj members)

theorem Keeps.part {document : Json.Members} {l : Ledger} (keeps : Keeps document l) {k : Text}
    {v : Json} (mem : (k, v) ∈ document) : Part l v := by
  have found := Json.Members.get?_of_mem keeps.distinct mem
  have name : k ∈ documentNames := keeps.names _ mem
  -- One case for each name.
  simp only [documentNames, List.mem_cons, List.not_mem_nil, or_false] at name
  rcases name with rfl | rfl | rfl
  · rw [keeps.version v found]
    exact .version
  · have processed := keeps.processed
    rw [found] at processed
    cases processed
    exact .processed
  · obtain ⟨members, branches, enters⟩ := keeps.branches
    rw [found] at branches
    cases branches
    exact .branches enters

theorem Enters.entry {members : Json.Members} {l : Ledger} (enters : Enters members l.opened)
    {b : Text} {v : Json} (mem : (b, v) ∈ members) :
    ∃ o, l.opened b = some o ∧ v = (o.state b).toJson := by
  have found := Json.Members.get?_of_mem enters.1 mem
  rw [enters.2] at found
  obtain ⟨o, opened, entry⟩ := Option.map_eq_some_iff.mp found
  exact ⟨o, opened, entry.symm⟩

theorem Part.kept {l : Ledger} (lasts : l.Lasts) {v : Json} (part : Part l v) :
    Json.Kept .document v := by
  cases part with
  | version => trivial
  | processed =>
    refine Json.keptItems_iff.mpr fun v mem => ?_
    obtain ⟨t, known, rfl⟩ := List.mem_map.mp mem
    exact Json.keepsText_document (lasts.hashes t known)
  | branches enters =>
    refine ⟨enters.1, Json.keptMembers_iff.mpr fun (b, v) mem => ?_⟩
    obtain ⟨o, opened, rfl⟩ := enters.entry mem
    obtain ⟨lasting, scalar, _⟩ := lasts.opened b o opened
    exact ⟨Json.keepsText_document scalar.joinless, State.kept_toJson lasting scalar⟩

theorem Part.nesting_le {l : Ledger} {v : Json} (part : Part l v) : Json.nesting v ≤ 2 := by
  cases part with
  | version => exact Nat.zero_le _
  | processed =>
    refine Nat.le_succ_of_le (Nat.succ_le_succ (Json.nestingItems_le.mpr fun v mem => ?_))
    obtain ⟨t, _, rfl⟩ := List.mem_map.mp mem
    exact Nat.le_refl _
  | branches enters =>
    refine Nat.succ_le_succ (Json.nestingMembers_le.mpr fun (b, v) mem => ?_)
    obtain ⟨o, _, rfl⟩ := enters.entry mem
    exact State.nesting_toJson _

theorem Part.short {l : Ledger} {v : Json} (part : Part l v) : Json.longNumeral? v = none := by
  cases part with
  | version => decide +kernel
  | processed =>
    refine Json.longNumeralItems?_eq_none.mpr fun v mem => ?_
    obtain ⟨t, _, rfl⟩ := List.mem_map.mp mem
    rfl
  | branches enters =>
    refine Json.longNumeralMembers?_eq_none.mpr fun (b, v) mem => ?_
    obtain ⟨o, _, rfl⟩ := enters.entry mem
    exact State.longNumeral?_toJson _

/-! ## Written and read -/

theorem sortedItems_strings (ts : List Text) :
    Json.sortedItems (ts.map .str) = ts.map .str := by
  induction ts with
  | nil => rfl
  | cons t ts ih =>
    rw [List.map_cons, Json.sortedItems, ih]
    rfl

/-- The members of an object after a reader has put them in the order of their names. -/
def reordered (members : Json.Members) : Json.Members :=
  Json.Members.sorted (Json.sortedMembers members)

theorem sorted_obj (members : Json.Members) :
    (Json.obj members).sorted = .obj (reordered members) := by
  rw [Json.sorted, reordered]

theorem distinct_reordered {members : Json.Members} (distinct : members.Distinct) :
    (reordered members).Distinct :=
  distinct.sortedMembers.sorted

theorem get?_reordered {members : Json.Members} (distinct : members.Distinct) (name : Text) :
    (reordered members).get? name = (members.get? name).map Json.sorted := by
  rw [reordered, Json.Members.get?_sorted distinct.sortedMembers, Json.Members.get?_sortedMembers]

theorem Enters.reordered {members : Json.Members} {opened : Text → Option Opening}
    (enters : Enters members opened) : Enters (reordered members) opened := by
  refine ⟨distinct_reordered enters.1, fun b => ?_⟩
  rw [get?_reordered enters.1, enters.2]
  cases opened b with
  | none => rfl
  | some o => exact congrArg some (State.sorted_toJson _)

theorem Keeps.reordered {document : Json.Members} {l : Ledger} (keeps : Keeps document l) :
    Keeps (reordered document) l where
  distinct := distinct_reordered keeps.distinct
  names p mem := by
    -- A reader sorts the members and what stands in them, but the names stay.
    have name : p.1 ∈ (Cycle.reordered document).map Prod.fst := List.mem_map_of_mem mem
    rw [Cycle.reordered, ((Json.Members.sorted_perm _).map Prod.fst).mem_iff,
      Json.Members.names_sortedMembers] at name
    obtain ⟨q, mem, same⟩ := List.mem_map.mp name
    rw [← same]
    exact keeps.names q mem
  version v found := by
    rw [get?_reordered keeps.distinct] at found
    obtain ⟨w, old, rfl⟩ := Option.map_eq_some_iff.mp found
    rw [keeps.version w old]
    rfl
  processed := by
    have processed := keeps.processed
    rw [get?_reordered keeps.distinct]
    cases found : document.get? "processed" with
    | none =>
      rw [found] at processed
      exact processed
    | some v =>
      rw [found, Option.getD_some] at processed
      rw [processed, Option.map_some, Option.getD_some, Json.sorted, sortedItems_strings]
  branches := by
    obtain ⟨members, branches, enters⟩ := keeps.branches
    rw [get?_reordered keeps.distinct]
    cases found : document.get? "branches" with
    | none =>
      rw [found] at branches
      exact ⟨members, branches, enters⟩
    | some v =>
      rw [found, Option.getD_some] at branches
      exact ⟨_, by rw [branches, Option.map_some, sorted_obj, Option.getD_some], enters.reordered⟩

/-- A document that keeps a ledger is read back as one. -/
theorem Keeps.ofText {document : Json.Members} {l : Ledger} (keeps : Keeps document l)
    (lasts : l.Lasts) :
    Document.ofText (Json.document (.obj document)) = .ok (Cycle.reordered document) := by
  -- The names of a document are its own three, all of them ASCII.
  have kept : Json.Kept .document (.obj document) :=
    ⟨keeps.distinct, Json.keptMembers_iff.mpr fun (k, v) mem =>
      ⟨Json.keepsText_document (Text.IsScalar.joinless ?_), (keeps.part mem).kept lasts⟩⟩
  have again := keeps.reordered
  have nesting : Json.nesting (Json.obj document).sorted ≤ 3 := by
    rw [sorted_obj]
    exact Nat.succ_le_succ
      (Json.nestingMembers_le.mpr fun (k, v) mem => (again.part mem).nesting_le)
  have short : Json.longNumeral? (Json.obj document).sorted = none := by
    rw [sorted_obj]
    exact Json.longNumeralMembers?_eq_none.mpr fun (k, v) mem => (again.part mem).short
  have read := Json.read_document kept (Nat.le_trans nesting (by decide))
  rw [short] at read
  · rw [Document.ofText, read, sorted_obj]
  · have scalar : ∀ name ∈ documentNames, Text.IsScalar name := by decide
    exact scalar k (keeps.names _ mem)

end Cycle

end RedGreen
