import RedGreen.Proofs.Cycle.Ledger
import RedGreen.Proofs.Documents

/-!
# Visits of the store

Each visit reads the whole document, changes it and writes it back.  On a file that holds a ledger
this comes to what the ledger says, and the file holds the next ledger.
-/

namespace RedGreen

namespace Cycle

/-! ## Documents -/

section

variable {l : Ledger} {members : Json.Members}

theorem loadBranch_eq (enters : Enters members l.opened) (lasts : l.Lasts) (now : DateTime)
    (branch : Text) :
    loadBranch now members branch = .ok (l.state? branch) := by
  rw [loadBranch, enters.2, Ledger.state?]
  cases opened : l.opened branch with
  | none => rfl
  | some o =>
    obtain ⟨lasting, scalar, nonempty⟩ := lasts.opened branch o opened
    have read := State.ofJson_toJson lasting scalar nonempty now
    obtain ⟨entry, shape⟩ : ∃ entry, (o.state branch).toJson = .obj entry := ⟨_, rfl⟩
    rw [shape] at read
    simp only [Option.map_some, shape, read]

theorem openedState_eq {branch : Text} (scalar : branch.IsScalar) (nonempty : branch ≠ [])
    (now at' : DateTime) (hash : Option Text) :
    openedState now branch at' hash = .ok ((Opening.mk at' hash now).state branch) := by
  rw [openedState, Field.nonEmptyText_eq_ok_iff.mpr ⟨rfl, scalar, nonempty⟩]
  rfl

theorem pair_eq (enters : Enters members l.opened) {branch : Text} {isRed : Bool}
    (named : isRed = true → branch.IsScalar ∧ branch ≠ []) (n : Int) (now at' : DateTime)
    (hash : Option Text) :
    ∃ members', pair now members (l.state? branch) branch isRed at'
      hash = .ok (members', l.observe branch isRed at') ∧
      Enters members' (l.take n now branch isRed at' hash).opened := by
  cases isRed with
  | true =>
    obtain ⟨scalar, nonempty⟩ := named rfl
    -- A red commit enters its branch, over an older entry if there is one.
    refine ⟨members.put branch ((Opening.mk at' hash now).state branch).toJson, ?_,
      enters.1.put _ _, fun b => ?_⟩
    · rw [pair, openedState_eq scalar nonempty]
      cases opened : l.opened branch <;> simp [Ledger.observe, Ledger.state?, opened, Opening.state]
    · rw [Json.Members.get?_put, enters.2, Ledger.take]
      by_cases same : branch = b
      · subst same
        simp
      · simp [same]
  | false =>
    cases opened : l.opened branch with
    | none =>
      -- A green commit without a cycle leaves the entries as they are.
      refine ⟨members, ?_, enters.1, fun b => ?_⟩
      · simp [pair, Ledger.observe, Ledger.state?, opened]
      · rw [enters.2, Ledger.take]
        by_cases same : branch = b
        · subst same
          simp [opened]
        · simp [same]
    | some o =>
      -- A green commit with a cycle takes its entry away.
      refine ⟨members.erase branch, ?_, enters.1.erase branch, fun b => ?_⟩
      · simp [pair, Ledger.observe, Ledger.state?, opened, Opening.state]
      · rw [Json.Members.get?_erase enters.1, enters.2, Ledger.take]
        by_cases same : branch = b
        · simp [same]
        · simp [same]

theorem isProcessed_strings (t : Text) (ts : List Text) :
    isProcessed t (.arr (ts.map .str)) = .ok (ts.any fun u => decide (u = t)) := by
  rw [isProcessed, List.any_map]
  rfl

theorem keepLast_map {α β : Type} (f : α → β) (n : Int) (items : List α) :
    keepLast n (items.map f) = (keepLast n items).map f := by
  unfold keepLast
  split <;> simp

theorem remember_strings (n : Int) (hash : Option Text) (ts : List Text) :
    remember n hash (.arr (ts.map .str)) = .ok (.arr ((match countedHash hash with
      | none => ts
      | some t => keepLast n (ts ++ [t])).map .str)) := by
  unfold remember
  cases countedHash hash with
  | none => rfl
  | some t =>
    show Except.ok (Json.arr (keepLast n (ts.map .str ++ [.str t]))) = _
    rw [← keepLast_map, List.map_append]
    rfl

end

theorem Keeps.put {document : Json.Members} {l l' : Ledger} (keeps : Keeps document l)
    {members : Json.Members} (enters : Enters members l'.opened) :
    Keeps (((document.put "version" (.int documentVersion)).put "processed"
      (.arr (l'.hashes.map .str))).put "branches" (.obj members)) l' where
  distinct := ((keeps.distinct.put _ _).put _ _).put _ _
  names p mem := by
    have known : ∀ name ∈ documentNames, name ∈ documentNames := fun _ => id
    rcases Json.Members.mem_put mem with rfl | mem
    · exact known "branches" (by decide)
    · rcases Json.Members.mem_put mem with rfl | mem
      · exact known "processed" (by decide)
      · rcases Json.Members.mem_put mem with rfl | mem
        · exact known "version" (by decide)
        · exact keeps.names p mem
  version v found := by
    rw [Json.Members.get?_put, if_neg (by decide), Json.Members.get?_put, if_neg (by decide),
      Json.Members.get?_put, if_pos rfl] at found
    exact (Option.some.inj found).symm
  processed := by
    rw [Json.Members.get?_put, if_neg (by decide), Json.Members.get?_put, if_pos rfl]
    rfl
  branches := ⟨members, by rw [Json.Members.get?_put, if_pos rfl]; rfl, enters⟩

section

variable {document : Json.Members} {l : Ledger}

theorem get?_versioned {name : Text} (other : name ≠ "version") :
    (document.put "version" (.int documentVersion)).get? name = document.get? name := by
  rw [Json.Members.get?_put, if_neg other.symm]

/-- What is done with a commit that was not taken into account before. -/
theorem apply_eq (keeps : Keeps document l) (now at' : DateTime) (n : Int) (branch : Text)
    (isRed : Bool) (hash : Option Text) :
    apply now n document branch isRed at' hash =
      if l.knows hash then .ok (document.put "version" (.int documentVersion),
        { Observation.empty with duplicate := true })
      else (do
        let members ← branchesOf ((document.get? "branches").getD (.obj []))
        let current ← loadBranch now members branch
        let (members, observation) ← pair now members current branch isRed at' hash
        let processed ← remember n hash (.arr (l.hashes.map .str))
        pure (((document.put "version" (.int documentVersion)).put "processed" processed).put
          "branches" (.obj members), observation)) := by
  rw [apply, get?_versioned (by decide), get?_versioned (by decide), keeps.processed, Ledger.knows]
  cases countedHash hash with
  | none => rfl
  | some t =>
    simp only [isProcessed_strings]
    rfl

/-- A hash that is not known leaves the outcome to the pairing of the branch. -/
theorem apply_eq_pair (keeps : Keeps document l) (lasts : l.Lasts) {members : Json.Members}
    (branches : (document.get? "branches").getD (.obj []) = .obj members)
    (enters : Enters members l.opened) {hash : Option Text} (unknown : l.knows hash = false)
    (now at' : DateTime) (n : Int) (branch : Text) (isRed : Bool) :
    apply now n document branch isRed at' hash =
      (pair now members (l.state? branch) branch isRed at' hash).map fun paired =>
        (((document.put "version" (.int documentVersion)).put "processed"
          (.arr ((l.take n now branch isRed at' hash).hashes.map .str))).put "branches"
            (.obj paired.1), paired.2) := by
  have listed : branchesOf (.obj members) = .ok members := rfl
  rw [apply_eq keeps, unknown, branches, listed, remember_strings]
  -- The document is written back only after the branch was read and paired.
  show (do
    let current ← loadBranch now members branch
    let (members, observation) ← pair now members current branch isRed at' hash
    Except.ok (((document.put "version" (.int documentVersion)).put "processed"
      (.arr ((l.take n now branch isRed at' hash).hashes.map .str))).put "branches" (.obj members),
        observation)) = _
  rw [loadBranch_eq enters lasts]
  cases paired : pair now members (l.state? branch) branch isRed at' hash with
  | error e =>
    simp only [bind, Except.bind, paired]
    rfl
  | ok outcome =>
    simp only [bind, Except.bind, paired]
    rfl

theorem apply_of_unknown (keeps : Keeps document l) (lasts : l.Lasts) {hash : Option Text}
    (unknown : l.knows hash = false) (now at' : DateTime) (n : Int) {branch : Text} {isRed : Bool}
    (named : isRed = true → branch.IsScalar ∧ branch ≠ []) :
    ∃ document', apply now n document branch isRed at' hash =
      .ok (document', l.observe branch isRed at') ∧
      Keeps document' (l.take n now branch isRed at' hash) := by
  obtain ⟨members, branches, enters⟩ := keeps.branches
  obtain ⟨members', paired, enters'⟩ := pair_eq enters named n now at' hash
  refine ⟨_, ?_, keeps.put enters'⟩
  rw [apply_eq_pair keeps lasts branches enters unknown, paired]
  rfl

end

/-! ## Files -/

/-- A file that can be replaced and is read as a document that keeps a ledger. -/
structure Holds (f : Disk.File) (l : Ledger) : Prop where
  reachable : f.blocked = false
  replaceable : f.node ≠ .directory
  document : ∃ document, Document.read f = .ok document ∧ Keeps document l
  lasts : l.Lasts

theorem holds_missing {f : Disk.File} (reachable : f.blocked = false)
    (missing : f.node = .missing) : Holds f .empty where
  reachable := reachable
  replaceable := by
    rw [missing]
    exact nofun
  document := by
    refine ⟨[], ?_, keeps_empty⟩
    rw [Document.read, Disk.File.content?, Disk.File.visibleNode, reachable, missing]
    rfl
  lasts := Ledger.lasts_empty

/-- The lock does not touch the document. -/
theorem Holds.lock {f : Disk.File} {l : Ledger} (holds : Holds f l) (held : Bool) :
    Holds { f with held := held } l :=
  ⟨holds.reachable, holds.replaceable, holds.document, holds.lasts⟩

theorem holds_written {f : Disk.File} {l : Ledger} {document : Json.Members}
    (reachable : f.blocked = false) (replaceable : f.node ≠ .directory)
    (keeps : Keeps document l) (lasts : l.Lasts) :
    ∃ g, Document.write f (.obj document) = .ok g ∧ Holds g l ∧ g.held = f.held := by
  refine ⟨_, Document.write_eq reachable replaceable _,
    ⟨reachable, ?_, ⟨reordered document, ?_, keeps.reordered⟩, lasts⟩, rfl⟩
  · intro directory
    cases directory
  · rw [Document.read_written reachable]
    exact keeps.ofText lasts

section

variable {f : Disk.File} {l : Ledger} {c : StoreConfig} {now time utc : DateTime} {branch : Text}
  {phase : Phase} {hash : Option Text}

/-- A busy lock passes the commit over. -/
theorem record_of_held (holds : Holds f l) (held : f.held = true)
    (paired : (isRed? phase).isSome = true) (shown : time.toUtc? = some utc) :
    record c now f branch phase time hash = (.ok .passedOver, f) := by
  obtain ⟨isRed, kind⟩ := Option.isSome_iff_exists.mp paired
  rw [record, kind, shown]
  simp only [Document.acquire_eq holds.reachable, held, if_true]

/-- A commit that was taken into account before changes nothing. -/
theorem record_of_known (holds : Holds f l) (free : f.held = false)
    (paired : (isRed? phase).isSome = true) (shown : time.toUtc? = some utc)
    (known : l.knows hash = true) :
    record c now f branch phase time hash =
      (.ok { Observation.empty with duplicate := true }, f) := by
  obtain ⟨isRed, kind⟩ := Option.isSome_iff_exists.mp paired
  obtain ⟨document, read, keeps⟩ := holds.document
  rw [record, kind, shown]
  simp only [Document.acquire_eq holds.reachable, free, Bool.false_eq_true, if_false, read]
  rw [apply_eq keeps, known]
  rfl

end

/-- A visit of the store does to the file what it does to the ledger. -/
theorem record_eq_visit {f : Disk.File} {l : Ledger} (holds : Holds f l) (c : StoreConfig)
    {now at' : DateTime} (clock : now.IsUtc) (inRange : at'.toUtc?.isSome) {branch : Text}
    {phase : Phase} (named : phase = .red → branch.IsScalar ∧ branch ≠ []) {hash : Option Text}
    (spelled : ∀ t ∈ hash, t.Joinless) :
    ∃ g, record c now f branch phase at' hash =
      (.ok (l.visit c.remembered f.held now branch phase at' hash).1, g) ∧
      Holds g (l.visit c.remembered f.held now branch phase at' hash).2 ∧ g.held = f.held := by
  obtain ⟨utc, shown⟩ := Option.isSome_iff_exists.mp inRange
  rw [Ledger.visit, shown]
  cases kind : isRed? phase with
  | none =>
    rw [record, kind]
    exact ⟨f, rfl, holds, rfl⟩
  | some isRed =>
    have paired := Option.isSome_of_eq_some kind
    have named : isRed = true → branch.IsScalar ∧ branch ≠ [] := by
      intro red
      refine named ?_
      cases phase <;> simp_all [isRed?]
    cases held : f.held with
    | true => exact ⟨f, record_of_held holds held paired shown, holds, held⟩
    | false =>
      cases known : l.knows hash with
      | true => exact ⟨f, record_of_known holds held paired shown known, holds, held⟩
      | false =>
        obtain ⟨document, read, keeps⟩ := holds.document
        obtain ⟨document', applied, keeps'⟩ :=
          apply_of_unknown keeps holds.lasts known now utc c.remembered named
        -- What is written now must be readable again, for the next visit.
        have lasts := holds.lasts.take (n := c.remembered) clock
          (DateTime.isUtc_of_toUtc? shown) spelled named
        obtain ⟨g, written, holds', same⟩ :=
          holds_written holds.reachable holds.replaceable keeps' lasts
        -- The store writes the document unless the answer is that of a duplicate.
        have fresh : (l.observe branch isRed utc).duplicate = false := by
          unfold Ledger.observe
          cases isRed <;> cases l.opened branch <;> rfl
        refine ⟨g, ?_, holds', same.trans held⟩
        rw [record, kind, shown]
        simp [Document.acquire_eq holds.reachable, held, read, applied, written, fresh]

theorem openedState_eq_error {branch : Text} (unnamed : ¬(branch.IsScalar ∧ branch ≠ []))
    (now time : DateTime) (hash : Option Text) :
    ∃ r, openedState now branch time hash = .error r := by
  rw [openedState]
  cases named : Field.nonEmptyText (.str branch) with
  | error e => cases e <;> exact ⟨_, rfl⟩
  | ok t =>
    obtain ⟨same, named⟩ := Field.nonEmptyText_eq_ok_iff.mp named
    cases same
    exact absurd named unnamed

theorem apply_of_unnamed {document : Json.Members} {l : Ledger} (keeps : Keeps document l)
    (lasts : l.Lasts) {branch : Text} (unnamed : ¬(branch.IsScalar ∧ branch ≠ []))
    {hash : Option Text} (unknown : l.knows hash = false) (n : Int) (now time : DateTime) :
    ∃ e, apply now n document branch true time hash = .error e := by
  obtain ⟨members, branches, enters⟩ := keeps.branches
  obtain ⟨r, rejected⟩ := openedState_eq_error unnamed now time hash
  have refused : pair now members (l.state? branch) branch true time hash =
      .error (.rejected r) := by
    rw [pair]
    simp [rejected]
  refine ⟨.rejected r, ?_⟩
  rw [apply_eq_pair keeps lasts branches enters unknown, refused]
  rfl

theorem record_of_unnamed {f : Disk.File} {l : Ledger} (holds : Holds f l)
    (free : f.held = false) {branch : Text} (unnamed : ¬(branch.IsScalar ∧ branch ≠ []))
    (c : StoreConfig) (now : DateTime) {time utc : DateTime} (shown : time.toUtc? = some utc)
    {hash : Option Text} (unknown : l.knows hash = false) :
    ∃ e, record c now f branch .red time hash = (.error e, f) := by
  obtain ⟨document, read, keeps⟩ := holds.document
  obtain ⟨e, failed⟩ := apply_of_unnamed keeps holds.lasts unnamed unknown c.remembered now utc
  refine ⟨e, ?_⟩
  rw [record, shown]
  simp only [isRed?, Document.acquire_eq holds.reachable, free, Bool.false_eq_true, if_false, read,
    failed]

/-- A red step on a branch that cannot be named in a document changes nothing. -/
theorem record_unnamed_cases {f : Disk.File} {l : Ledger} (holds : Holds f l) {branch : Text}
    (unnamed : ¬(branch.IsScalar ∧ branch ≠ [])) (c : StoreConfig) (now : DateTime)
    {time utc : DateTime} (shown : time.toUtc? = some utc) (hash : Option Text) :
    ∃ answer, record c now f branch .red time hash = (answer, f) ∧
      (answer = .ok .passedOver ∨ answer = .ok { Observation.empty with duplicate := true } ∨
        ∃ e, answer = .error e) := by
  cases held : f.held with
  | true => exact ⟨_, record_of_held holds held rfl shown, .inl rfl⟩
  | false =>
    cases known : l.knows hash with
    | true => exact ⟨_, record_of_known holds held rfl shown known, .inr (.inl rfl)⟩
    | false =>
      obtain ⟨e, failed⟩ := record_of_unnamed holds held unnamed c now shown known
      exact ⟨_, failed, .inr (.inr ⟨e, rfl⟩)⟩

theorem get_eq_state? {f : Disk.File} {l : Ledger} (holds : Holds f l) (now : DateTime)
    (branch : Text) : get now f branch = .ok (l.state? branch) := by
  obtain ⟨document, read, keeps⟩ := holds.document
  obtain ⟨members, branches, enters⟩ := keeps.branches
  rw [get, look, read]
  show (do
    let branches ← branchesOf ((document.get? "branches").getD (.obj []))
    loadBranch now branches branch) = _
  rw [branches]
  exact loadBranch_eq enters holds.lasts now branch

end Cycle

end RedGreen
