import Mathlib.Data.List.DropRight
import RedGreen.Proofs.Cycle.Corruption
import RedGreen.Proofs.Json.Sameness

/-!
# What a visit leaves alone

The document in the file may be anyone's.  A red or green commit that counts sets the version, adds
its hash to the list of hashes and touches the entry of its own branch; every other member, and
every other entry, keeps its value, whether or not the store can make sense of it.
-/

namespace RedGreen

namespace Cycle

/-! ## What a visit changes -/

/-- The hashes behind a commit: its own behind the others, and of all these the last `n`. -/
def historyBehind (n : Int) (hash : Option Text) (items : List Json) : List Json :=
  match countedHash hash with
  | none => items
  | some t => (items ++ [Json.str t]).rtake n.toNat

/-- The entry of the branch behind a commit that answered `o`. -/
def entryBehind (opening : Opening) (branch : Text) (isRed : Bool) (o : Observation)
    (before : Option Json) : Option Json :=
  if isRed then some (opening.state branch).toJson
  else if o.duration.isSome then none
  else before

/-- A commit turns one document into another, and `same` relates each value to what stands in its
place. -/
structure Frame (same : Json → Json → Prop) (n : Int) (opening : Opening) (branch : Text)
    (isRed : Bool) (o : Observation) (old : Json.Members) (items : List Json)
    (entries : Json.Members) (new : Json.Members) : Prop where
  version : new.get? "version" = some (.int 1)
  processed : ∃ items', new.get? "processed" = some (.arr items') ∧
    List.Forall₂ same (historyBehind n opening.hash items) items'
  branches : ∃ entries' : Json.Members, new.get? "branches" = some (.obj entries') ∧
    Option.Rel same (entryBehind opening branch isRed o (entries.get? branch))
      (entries'.get? branch) ∧
    ∀ name ≠ branch, Option.Rel same (entries.get? name) (entries'.get? name)
  others : ∀ name ∉ documentNames, Option.Rel same (old.get? name) (new.get? name)
  /-- A green commit that closes no cycle is an orphan. -/
  answer : isRed = false → o.orphan = o.duration.isNone

section

variable {now time : DateTime} {n : Int} {old new : Json.Members} {branch : Text}
  {hash : Option Text} {isRed : Bool} {o : Observation} {items : List Json}
  {entries entries' : Json.Members} {current : Option State}

theorem remember_items (atLeastOne : 1 ≤ n) :
    remember n hash (.arr items) = .ok (.arr (historyBehind n hash items)) := by
  rw [remember, historyBehind]
  cases countedHash hash with
  | none => rfl
  | some t =>
    dsimp only
    rw [keepLast, if_pos (show 0 < n from atLeastOne), List.rtake]

/-- Only the entry of the branch is touched. -/
theorem Paired.get? (paired : Paired now entries current branch time hash isRed entries' o)
    (distinct : entries.Distinct) (name : Text) : entries'.get? name =
      if branch = name then entryBehind ⟨time, hash, now⟩ branch isRed o (entries.get? branch)
      else entries.get? name := by
  cases paired with
  | red => exact Json.Members.get?_put ..
  | closing => exact Json.Members.get?_erase distinct ..
  | orphan =>
    split
    next same => subst same; rfl
    next => rfl

theorem Paired.answer (paired : Paired now entries current branch time hash isRed entries' o)
    (green : isRed = false) : o.orphan = o.duration.isNone := by
  cases paired with
  | red => cases green
  | orphan | closing => rfl

theorem rel_eq {α : Type} {a b : Option α} (equal : b = a) : Option.Rel Eq a b := by
  subst equal
  cases b with
  | none => exact .none
  | some b => exact .some rfl

theorem Applied.frame (applied : Applied now n old branch isRed time hash new o)
    (fresh : o.duplicate = false) (atLeastOne : 1 ≤ n) (processed : processedIn old = .arr items)
    (branches : branchesIn old = .obj entries) (distinct : entries.Distinct) :
    Frame Eq n ⟨time, hash, now⟩ branch isRed o old items entries new := by
  cases applied with
  | duplicate => cases fresh
  | @counted members members' _ processed' _ _ listed _ paired remembered =>
  obtain rfl : members = entries := by
    have listed := branchesOf_eq_ok listed
    rw [← branchesIn, branches] at listed
    injection listed with same
    exact same.symm
  rw [← processedIn, processed, remember_items atLeastOne] at remembered
  injection remembered with remembered
  subst remembered
  have touched := paired.get? distinct
  exact {
    version := by
      rw [Json.Members.get?_put, if_neg (by decide), Json.Members.get?_put, if_neg (by decide),
        Json.Members.get?_put, if_pos rfl, documentVersion]
    processed := by
      refine ⟨historyBehind n hash items, ?_, List.forall₂_refl _⟩
      rw [Json.Members.get?_put, if_neg (by decide), Json.Members.get?_put, if_pos rfl]
    branches := by
      refine ⟨members', ?_, rel_eq ?_, fun name other => rel_eq ?_⟩
      · rw [Json.Members.get?_put, if_pos rfl]
      · rw [touched, if_pos rfl]
      · rw [touched, if_neg other.symm]
    others := by
      intro name other
      simp only [documentNames, List.mem_cons, List.not_mem_nil, or_false, not_or] at other
      refine rel_eq ?_
      rw [Json.Members.get?_put, if_neg (Ne.symm other.2.2), Json.Members.get?_put,
        if_neg (Ne.symm other.2.1), Json.Members.get?_put, if_neg (Ne.symm other.1)]
    answer := paired.answer }

theorem Applied.scalar (applied : Applied now n old branch isRed time hash new o)
    (fresh : o.duplicate = false) (red : isRed = true) : branch.IsScalar := by
  cases applied with
  | duplicate => cases fresh
  | counted _ _ _ paired => exact (exists_paired_iff.mp ⟨_, _, paired⟩ red).1

/-! ## What is read afterwards -/

theorem countedHash_joined : countedHash (hash.map Text.joined) =
    (countedHash hash).map Text.joined := by
  have nonempty (t : Text) : t.joined.isEmpty = t.isEmpty := by
    induction t using Text.joined_induction with
    | pair c d t pair => rw [Text.joined_pair pair, List.isEmpty_cons, List.isEmpty_cons]
    | single c d t single => rw [Text.joined_single single, List.isEmpty_cons, List.isEmpty_cons]
    | short t short => rw [Text.joined_short short]
  cases hash with
  | none => rfl
  | some t => simp [countedHash, Option.filter, nonempty, apply_ite]

theorem get?_behind {ms : Json.Members} (distinct : ms.Distinct) (name : Text) :
    (reordered (Json.joinedMembers ms)).get? name =
      (ms.get? name).map fun v => v.joined.sorted := by
  rw [get?_reordered distinct.joined, Json.get?_joinedMembers, Option.map_map]
  rfl

theorem rel_behind {a b : Option Json} (equal : Option.Rel Eq a b)
    (kept : ∀ v ∈ a, Json.Same v v.joined.sorted) :
    Option.Rel Json.Same a (b.map fun v => v.joined.sorted) := by
  cases equal with
  | none => exact .none
  | some equal =>
    subst equal
    exact .some (kept _ rfl)

/-- A value that was read is found again when it was written back. -/
theorem same_behind {depth : Nat} {v : Json} (obtained : Json.Obtained depth v) :
    Json.Same v v.joined.sorted := by
  rw [Json.joined_of_joinless v obtained.joinless]
  exact Json.same_sorted v obtained.named

theorem Obtained.get? {depth : Nat} {members : Json.Members}
    (obtained : Json.Obtained (depth + 1) (.obj members)) {name : Text} {v : Json}
    (found : members.get? name = some v) : Json.Obtained depth v :=
  ((Json.obtained_obj.mp obtained).2 _ (Json.Members.mem_of_get? found)).2

theorem historyBehind_joined (kept : ∀ v ∈ items, Json.Same v v.joined.sorted) :
    List.Forall₂ Json.Same (historyBehind n (hash.map Text.joined) items)
      ((historyBehind n hash items).map fun v => v.joined.sorted) := by
  rw [historyBehind, historyBehind, countedHash_joined]
  cases countedHash hash with
  | none => exact List.forall₂_map_right_iff.mpr (List.forall₂_same.mpr kept)
  | some t =>
    show List.Forall₂ Json.Same ((items ++ [Json.str t.joined]).rtake n.toNat) _
    simp only [List.rtake, List.length_append, List.length_singleton, List.map_drop]
    refine List.forall₂_drop _ ?_
    rw [List.map_append]
    refine List.rel_append ?_ (.cons (.str t.joined) .nil)
    exact List.forall₂_map_right_iff.mpr (List.forall₂_same.mpr kept)

/-- A member that is missing counts as empty. -/
theorem Obtained.getD {depth : Nat} (obtained : Json.Obtained (depth + 1) (.obj old)) {empty : Json}
    (empty' : Json.Obtained depth empty) (name : Text) :
    Json.Obtained depth ((old.get? name).getD empty) := by
  cases found : old.get? name with
  | none => exact empty'
  | some v => exact Obtained.get? obtained found

theorem obtained_items {depth : Nat} (obtained : Json.Obtained (depth + 2) (.obj old))
    (processed : processedIn old = .arr items) : Json.Obtained (depth + 1) (.arr items) := by
  rw [← processed]
  refine Obtained.getD obtained ?_ "processed"
  exact Json.obtained_arr.mpr (List.forall_mem_nil _)

theorem obtained_entries {depth : Nat} (obtained : Json.Obtained (depth + 2) (.obj old))
    (branches : branchesIn old = .obj entries) : Json.Obtained (depth + 1) (.obj entries) := by
  rw [← branches]
  refine Obtained.getD obtained ?_ "branches"
  exact Json.obtained_obj.mpr ⟨Json.Members.distinct_nil, List.forall_mem_nil _⟩

/-- The entry of the branch as it is read back. -/
theorem rel_entryBehind {a b : Option Json}
    (equal : Option.Rel Eq (entryBehind ⟨time, hash, now⟩ branch isRed o a) b)
    (scalar : isRed = true → branch.IsScalar) (kept : ∀ v ∈ a, Json.Same v v.joined.sorted) :
    Option.Rel Json.Same (entryBehind ⟨time, hash.map Text.joined, now⟩ branch isRed o a)
      (b.map fun v => v.joined.sorted) := by
  cases isRed with
  | true =>
    cases equal with
    | some equal =>
    subst equal
    refine .some ?_
    -- Of a new entry, only the hash can be joined.
    have named := (received_entry (Opening.state ⟨time, hash.map Text.joined, now⟩ branch)).named
    show Json.Same _ (Json.sorted (Json.joined _))
    rw [joined_entry (scalar rfl)]
    exact Json.same_sorted _ named
  | false =>
    rw [entryBehind, if_neg Bool.false_ne_true] at equal ⊢
    split at equal
    next closed =>
      rw [if_pos closed]
      cases equal
      exact .none
    next closed =>
      rw [if_neg closed]
      exact rel_behind equal kept

/-- The document that is read back stands to the old one as the written document does, up to the
order of members. -/
theorem Frame.behind {depth : Nat}
    (frame : Frame Eq n ⟨time, hash, now⟩ branch isRed o old items entries new)
    (obtained : Json.Obtained (depth + 2) (.obj old))
    (received : Json.Received (depth + 2) (.obj new))
    (processed : processedIn old = .arr items) (branches : branchesIn old = .obj entries)
    (scalar : isRed = true → branch.IsScalar) :
    Frame Json.Same n ⟨time, hash.map Text.joined, now⟩ branch isRed o old items entries
      (reordered (Json.joinedMembers new)) := by
  have found {name : Text} {v : Json} (under : new.get? name = some v) :
      (reordered (Json.joinedMembers new)).get? name = some v.joined.sorted :=
    get?_read_back (Json.received_obj.mp received).1 under
  have list := obtained_items obtained processed
  have object := obtained_entries obtained branches
  have entryKept (name : Text) : ∀ v ∈ entries.get? name, Json.Same v v.joined.sorted :=
    fun v mem => same_behind (Obtained.get? object mem)
  obtain ⟨items', listed, history⟩ := frame.processed
  obtain ⟨entries', entered, entry, otherEntries⟩ := frame.branches
  have distinct := (Json.received_obj.mp (Received.get? received entered)).1
  exact {
    version := found frame.version
    processed := by
      rw [List.forall₂_eq_eq_eq] at history
      subst history
      refine ⟨_, ?_, historyBehind_joined fun v mem =>
        same_behind (Json.obtained_arr.mp list v mem)⟩
      rw [found listed, Json.joined, Json.sorted, Json.joinedItems_eq_map, Json.sortedItems_eq_map,
        List.map_map]
      rfl
    branches := by
      refine ⟨reordered (Json.joinedMembers entries'), ?_, ?_, fun name other => ?_⟩
      · rw [found entered, Json.joined, sorted_obj]
      · rw [get?_behind distinct]
        exact rel_entryBehind entry scalar (entryKept branch)
      · rw [get?_behind distinct]
        exact rel_behind (otherEntries name other) (entryKept name)
    others := by
      intro name other
      rw [get?_behind (Json.received_obj.mp received).1]
      exact rel_behind (frame.others name other) fun v mem =>
        same_behind (Obtained.get? obtained mem)
    answer := frame.answer }

/-- A commit that counts is written by its plan. -/
theorem planned_of_taken {c : StoreConfig} {f g : Disk.File} {phase : Phase}
    (recorded : record c now f branch phase time hash = (.ok o, g)) (fresh : o.duplicate = false)
    (taken : o.skipped = false) (kind : isRed? phase = some isRed) :
    ∃ written, Planned c now f branch phase time hash (.replace written o) ∧
      g = { f with node := .regular (Document.bytesOf (.obj written)) } := by
  rw [record_eq_plan] at recorded
  split at recorded
  next => cases recorded
  next planned =>
    cases recorded
    -- What leaves the file alone is another kind of commit, a busy lock or a duplicate.
    cases planned_of_plan planned with
    | idle other => rw [kind] at other; cases other
    | busy => cases taken
    | duplicate => cases fresh
  next written _ planned =>
    split at recorded
    next => cases recorded
    next replaced =>
      cases recorded
      exact ⟨written, planned_of_plan planned, Document.write_eq_ok replaced⟩

end

/-- A red or green commit that counts leaves everything in the document alone but the version, the
list of hashes and the entry of its branch, in what is written and in what is then read back. -/
theorem visit_frames {c : StoreConfig} {now time : DateTime} {f g : Disk.File} {branch : Text}
    {phase : Phase} {isRed : Bool} {hash : Option Text} {o : Observation} {old : Json.Members}
    {items : List Json} {entries : Json.Members} (atLeastOne : 1 ≤ c.remembered)
    (read : Document.read f = .ok old) (processed : processedIn old = .arr items)
    (branches : branchesIn old = .obj entries) (kind : isRed? phase = some isRed)
    (recorded : record c now f branch phase time hash = (.ok o, g)) (fresh : o.duplicate = false)
    (taken : o.skipped = false) :
    ∃ (utc : DateTime) (written new : Json.Members), time.toUtc? = some utc ∧
      g = { f with node := .regular (Document.bytesOf (.obj written)) } ∧
      Frame Eq c.remembered ⟨utc, hash, now⟩ branch isRed o old items entries written ∧
      Document.read g = .ok new ∧
      Frame Json.Same c.remembered ⟨utc, hash.map Text.joined, now⟩ branch isRed o old items
        entries new := by
  obtain ⟨written, planned, rfl⟩ := planned_of_taken recorded fresh taken kind
  have received := planned.received
  have obtained := obtained_of_read read
  have back := read_of_planned planned
  cases planned with
  | @taken _ utc _ _ _ kind' shown reachable _ read' applied _ =>
  rw [kind] at kind'
  cases kind'
  rw [read] at read'
  cases read'
  have distinct := (Json.obtained_obj.mp (obtained_entries obtained branches)).1
  have frame := applied.frame fresh atLeastOne processed branches distinct
  have scalar := applied.scalar fresh
  exact ⟨utc, written, _, shown, rfl, frame, back reachable,
    frame.behind obtained received processed branches scalar⟩

/-- A document with a member of someone else's and an entry that is no state. -/
def foreignDocument : Json.Members :=
  [("branches", .obj [("main", .int 5), ("side", .null)]), ("owner", .str "me"),
    ("processed", .arr [.int 1, .str "a"])]

def foreignFile : Disk.File :=
  { Disk.File.fresh "state" "state.json" with
    node := .regular (Document.bytesOf (.obj foreignDocument)) }

theorem read_foreignFile : Document.read foreignFile = .ok foreignDocument := by
  rw [foreignFile, Document.read_written rfl, Document.ofText]
  have names : ∀ name ∈ (["branches", "main", "side", "owner", "processed"] : List Text),
      name.IsScalar := by decide
  have joinless := fun name mem => (names name mem).joinless
  have outer : List.Nodup (α := Text) ["branches", "owner", "processed"] := by decide
  have inner : List.Nodup (α := Text) ["main", "side"] := by decide
  have named : Json.WellNamed (.obj foreignDocument) :=
    ⟨outer, joinless _ (by decide), ⟨inner, joinless _ (by decide), trivial,
      joinless _ (by decide), trivial, trivial⟩, joinless _ (by decide), trivial,
      joinless _ (by decide), ⟨trivial, trivial, trivial⟩, trivial⟩
  rw [Json.read_document_joined named ⟨by decide, by decide +kernel⟩]
  rfl

/-- A green commit finds nothing to close behind an entry that is no state, and leaves it there. -/
theorem visit_frames_foreign : ∃ (o : Observation) (g : Disk.File) (written new : Json.Members),
    record ⟨.zero, 2⟩ (.minute 1) foreignFile "main" .green (.minute 0) (some "b") = (.ok o, g) ∧
      o.duplicate = false ∧ o.skipped = false ∧
      g = { foreignFile with node := .regular (Document.bytesOf (.obj written)) } ∧
      Frame Eq 2 ⟨.minute 0, some "b", .minute 1⟩ "main" false o foreignDocument
        [.int 1, .str "a"] [("main", .int 5), ("side", .null)] written ∧
      Document.read g = .ok new ∧
      Frame Json.Same 2 ⟨.minute 0, some (Text.joined "b"), .minute 1⟩ "main" false o
        foreignDocument [.int 1, .str "a"] [("main", .int 5), ("side", .null)] new := by
  have answered : (record ⟨.zero, 2⟩ (.minute 1) foreignFile "main" .green (.minute 0)
      (some "b")).1.toOption = some { Observation.empty with orphan := true } := by
    decide +kernel
  obtain ⟨answer, g, recorded⟩ : ∃ answer g, record ⟨.zero, 2⟩ (.minute 1) foreignFile "main" .green
      (.minute 0) (some "b") = (answer, g) := ⟨_, _, rfl⟩
  rw [recorded] at answered
  cases answer with
  | error e => cases answered
  | ok o =>
    cases answered
    obtain ⟨utc, written, new, shown, file, frame, read, frame'⟩ :=
      visit_frames (c := ⟨.zero, 2⟩) (by decide) read_foreignFile rfl rfl rfl recorded rfl rfl
    cases shown
    exact ⟨_, g, written, new, recorded, rfl, rfl, file, frame, read, frame'⟩

end Cycle

end RedGreen
