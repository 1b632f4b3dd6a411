import RedGreen.Proofs.Cycle.History
import RedGreen.Proofs.Cycle.Listing

/-!
# Open cycles in the store's own files

What the store writes, it writes in the order of the branch names and with the name of each branch
inside its entry.  So the list of open cycles from such a file names every branch once, and cycles
of one time follow the order of the names.
-/

namespace RedGreen

namespace Cycle

/-! ## Entries of the store's own -/

/-- Entries as the store writes them. -/
structure OwnEntries (members : Json.Members) : Prop where
  increasing : members.Increasing
  entry : ∀ p ∈ members, p.1.IsScalar ∧ ∃ o : Opening, p.2 = (o.state p.1).toJson

/-- Whatever can be read from the file, the store has written its entries. -/
def IsOwn (f : Disk.File) : Prop :=
  ∀ document, Document.read f = .ok document →
    ∃ members, branchesIn document = .obj members ∧ OwnEntries members

section

variable {now time : DateTime} {members members' : Json.Members} {current : Option State}
  {branch : Text} {hash : Option Text} {isRed : Bool} {o : Observation} {f : Disk.File}

theorem isOwn_of_missing (missing : f.node = .missing) : IsOwn f := by
  intro document read
  rw [Document.read, Disk.File.content?, Disk.File.visibleNode, missing, ite_self] at read
  cases read
  exact ⟨[], rfl, .nil, List.forall_mem_nil _⟩

theorem OwnEntries.paired (own : OwnEntries members)
    (paired : Paired now members current branch time hash isRed members' o) :
    ∀ p ∈ members', p.1.IsScalar ∧ ∃ o : Opening, p.2 = (o.state p.1).toJson := by
  intro p mem
  cases paired with
  | red scalar =>
    rcases Json.Members.mem_put mem with rfl | mem
    · exact ⟨scalar, _, rfl⟩
    · exact own.entry p mem
  | orphan => exact own.entry p mem
  | closing => exact own.entry p ((Json.Members.erase_sublist branch members).subset mem)

/-- Entries that are written out of order are read in order. -/
theorem ownEntries_behind (distinct : members.Distinct)
    (entry : ∀ p ∈ members, p.1.IsScalar ∧ ∃ o : Opening, p.2 = (o.state p.1).toJson) :
    OwnEntries (reordered (Json.joinedMembers members)) where
  increasing := Json.Members.increasing_sorted distinct.joined.sortedMembers
  entry := by
    intro p mem
    rw [reordered, (Json.Members.sorted_perm _).mem_iff, Json.Members.sortedMembers_eq_map,
      Json.joinedMembers_eq_map, List.map_map] at mem
    obtain ⟨q, among, rfl⟩ := List.mem_map.mp mem
    obtain ⟨scalar, ⟨redAt, hash, enteredAt⟩, written⟩ := entry q among
    refine ⟨scalar, ⟨redAt, hash.map Text.joined, enteredAt⟩, ?_⟩
    show q.2.joined.sorted = _
    rw [written, joined_entry scalar, State.sorted_toJson]
    rfl

/-- The store puts its own entries in the place of its own. -/
theorem IsOwn.replaced (own : IsOwn f) {c : StoreConfig} {phase : Phase} {document : Json.Members}
    (planned : Planned c now f branch phase time hash (.replace document o)) :
    IsOwn { f with node := .regular (Document.bytesOf (.obj document)) } := by
  have received := planned.received
  have back := read_of_planned planned
  cases planned with
  | taken kind shown reachable free read applied fresh =>
  obtain ⟨members, _, members', listed, _, paired, written⟩ := applied.entries fresh
  obtain ⟨entries, branches, own⟩ := own _ read
  rw [branches] at listed
  cases listed
  intro document' read
  rw [back reachable] at read
  cases read
  have distinct := (Json.received_obj.mp (Received.get? received written)).1
  exact ⟨reordered (Json.joinedMembers members'),
    branchesIn_read_back (Json.received_obj.mp received).1 written,
    ownEntries_behind distinct (own.paired paired)⟩

theorem IsOwn.record (own : IsOwn f) (c : StoreConfig) (now : DateTime) (branch : Text)
    (phase : Phase) (time : DateTime) (hash : Option Text) :
    IsOwn (record c now f branch phase time hash).2 := by
  rw [record_eq_plan]
  cases planned : plan c now f branch phase time hash with
  | error e => exact own
  | ok p =>
  cases p with
  | leave observation => exact own
  | replace document observation =>
    dsimp only
    cases written : Document.write f (.obj document) with
    | error fault => exact own
    | ok g =>
      rw [Document.write_eq_ok written]
      exact own.replaced (planned_of_plan planned)

theorem IsOwn.perform {w : World} (own : IsOwn w.file) (m : Move) : IsOwn (w.perform m).1.file := by
  cases m with
  | record branch phase time hash => exact own.record w.config w.now branch phase time hash
  | reopen | clock => exact own
  | lock held => exact own

/-- Whatever happens around the store, its file stays its own. -/
theorem IsOwn.run {w : World} (own : IsOwn w.file) (moves : List Move) :
    IsOwn (w.run moves).1.file := by
  induction moves generalizing w with
  | nil => exact own
  | cons m moves ih => exact ih (own.perform m)

/-! ## The list of the store's own entries -/

/-- Lists that name every branch once, and cycles of the same time in the order of the names. -/
structure ListsByName (now : DateTime) (members : Json.Members) (states : List State) : Prop where
  key : ∀ s ∈ states, ∃ v, members.get? s.branch = some v ∧ contribution now v = some s
  distinct : (states.map State.branch).Nodup
  ordered : states.Pairwise (Before fun s t => s.branch.less t.branch = true)

theorem branch_of_contribution {o : Opening} {name : Text} {s : State}
    (contributed : contribution now (o.state name).toJson = some s) : s.branch = name := by
  obtain ⟨read, _⟩ := ofJson_of_contribution contributed
  obtain ⟨document, same, found, _⟩ := State.ofJson_eq_ok read
  cases same
  cases found
  rfl

theorem OwnEntries.branch_eq (own : OwnEntries members) {p : Text × Json} (mem : p ∈ members)
    {s : State} (contributed : contribution now p.2 = some s) : s.branch = p.1 := by
  obtain ⟨_, o, written⟩ := own.entry p mem
  rw [written] at contributed
  exact branch_of_contribution contributed

theorem OwnEntries.contributions_increasing (own : OwnEntries members) (now : DateTime) :
    (contributions now members).Pairwise fun s t => s.branch.less t.branch = true := by
  refine List.pairwise_filterMap.mpr (own.increasing.imp_of_mem ?_)
  intro p q first second less s contributed t contributed'
  rw [own.branch_eq first contributed, own.branch_eq second contributed']
  exact less

theorem OwnEntries.lists (own : OwnEntries members) (distinct : members.Distinct)
    (now : DateTime) : ListsByName now members (sortByTime (contributions now members)) := by
  have increasing := own.contributions_increasing now
  have nodup : ((contributions now members).map State.branch).Nodup := by
    refine List.pairwise_map.mpr (increasing.imp fun less same => ?_)
    rw [same] at less
    have irreflexive := Text.less_asymm less
    rw [less] at irreflexive
    cases irreflexive
  have perm := sortByTime_perm (contributions now members)
  refine ⟨?_, (perm.map State.branch).nodup_iff.mpr nodup, pairwise_sortByTime increasing⟩
  intro s mem
  obtain ⟨p, entry, contributed⟩ := List.mem_filterMap.mp (perm.mem_iff.mp mem)
  refine ⟨p.2, ?_, contributed⟩
  rw [own.branch_eq entry contributed]
  exact Json.Members.get?_of_mem distinct entry

end

/-- The list, whenever there is one, is of all open cycles, the oldest first; and when the store
itself has written the file, starting from a missing one, it goes by the names of the branches. -/
theorem pending_is_exact {now : DateTime} {f : Disk.File} {document members : Json.Members}
    {states : List State} (read : Document.read f = .ok document)
    (listed : branchesIn document = .obj members) (answered : pending now f = .ok states) :
    Lists now f members states ∧
      ∀ (w : World) (moves : List Move), w.file.node = .missing → (w.run moves).1.file = f →
        ListsByName now members states := by
  refine ⟨lists_of_pending read listed answered, ?_⟩
  rintro w moves missing rfl
  obtain ⟨entries, branches, own⟩ := (isOwn_of_missing missing).run moves document read
  rw [listed] at branches
  cases branches
  rw [states_of_pending read listed answered]
  exact own.lists (distinct_of_read read listed) now

/-- Three red commits, two of them at the same time. -/
def redMoves : List Move :=
  [.record "zeta" .red (.minute 5) none, .record "alpha" .red (.minute 5) (some "b"),
   .record "main" .red (.minute 0) (some "a")]

/-- The file that they leave behind. -/
def redFile : Disk.File :=
  (World.run ⟨⟨.zero, 200⟩, .minute 6, .fresh "state" "state.json"⟩ redMoves).1.file

theorem pending_is_exact_red : ∃ document members states,
    Document.read redFile = .ok document ∧ branchesIn document = .obj members ∧
      pending (.minute 7) redFile = .ok states ∧ Lists (.minute 7) redFile members states ∧
      ListsByName (.minute 7) members states ∧
      states.map State.branch = ["main", "alpha", "zeta"] := by
  have names : (pending (.minute 7) redFile).toOption.map (List.map State.branch) =
      some [Text.ofString "main", Text.ofString "alpha", Text.ofString "zeta"] := by
    decide +kernel
  cases answered : pending (.minute 7) redFile with
  | error e =>
    rw [answered] at names
    cases names
  | ok states =>
    rw [answered] at names
    obtain ⟨document, read, _⟩ := pending_isOk_iff.mp ⟨states, answered⟩
    have own : IsOwn redFile := (isOwn_of_missing rfl).run redMoves
    obtain ⟨members, listed, _⟩ := own document read
    obtain ⟨lists, byName⟩ := pending_is_exact read listed answered
    exact ⟨document, members, states, read, listed, rfl, lists, byName _ redMoves rfl rfl,
      Option.some.inj names⟩

end Cycle

end RedGreen
