import RedGreen.Proofs.Cycle.Plans

/-!
# What the store bears with

A file that holds no JSON, or no object, counts as empty, and an entry that is no state counts as
absent.  The store bears with no more than that: a content that is not UTF-8 or exceeds the limits
of the reader stops every reader of the file, and something else in place of the list of hashes or
of the object of branches, or a time that UTC cannot show, stops those who need it.
-/

namespace RedGreen

namespace Document

/-- A content that is decoded as a text, which is JSON or else malformed, but does not exceed the
limits of the reader. -/
def IsLegible (content : Bytes) : Prop :=
  ∃ t, Utf8.decode content = .ok t ∧
    ∀ e, Json.read t = .error e → ∃ fault position, e = .malformed fault position

theorem ofText_isOk_iff {t : Text} : (∃ document, ofText t = .ok document) ↔
    ∀ e, Json.read t = .error e → ∃ fault position, e = .malformed fault position := by
  unfold ofText
  cases parsed : Json.read t with
  | ok v => cases v <;> exact ⟨fun _ _ => nofun, fun _ => ⟨_, rfl⟩⟩
  | error e =>
    cases e with
    | malformed fault position => exact ⟨fun _ _ same => ⟨_, _, (Except.error.inj same).symm⟩,
        fun _ => ⟨_, rfl⟩⟩
    | tooManyDigits | tooDeep =>
      constructor
      · rintro ⟨_, ⟨⟩⟩
      · intro malformed
        obtain ⟨_, _, ⟨⟩⟩ := malformed _ rfl

theorem read_isOk_iff {f : Disk.File} {content : Bytes} (regular : f.node = .regular content)
    (reachable : f.blocked = false) :
    (∃ document, read f = .ok document) ↔ IsLegible content := by
  rw [read_of_regular regular reachable, IsLegible]
  cases Utf8.decode content with
  | error e =>
    constructor
    · rintro ⟨_, ⟨⟩⟩
    · rintro ⟨_, ⟨⟩, _⟩
  | ok t =>
    dsimp only
    rw [ofText_isOk_iff]
    constructor
    · intro malformed
      exact ⟨t, rfl, malformed⟩
    · rintro ⟨_, ⟨⟩, malformed⟩
      exact malformed

end Document

namespace Cycle

/-! ## Entries -/

def branchesIn (document : Json.Members) : Json := (document.get? "branches").getD (.obj [])

def processedIn (document : Json.Members) : Json := (document.get? "processed").getD (.arr [])

/-- UTC can show the times in the entry of a branch, if they are times. -/
def IsDated (now : DateTime) (members : Json.Members) (branch : Text) : Prop :=
  ∀ v, members.get? branch = some v → State.ofJson now v ≠ .error .overflow

/-- An entry that is null is no state either. -/
theorem loadBranch_eq_ofJson (now : DateTime) (members : Json.Members) (branch : Text) :
    loadBranch now members branch = match members.get? branch with
      | none => .ok none
      | some v => match State.ofJson now v with
        | .ok s => .ok (some s)
        | .error .overflow => .error (.rejected .overflow)
        | .error (.issues _) => .ok none := by
  unfold loadBranch
  cases members.get? branch with
  | none => rfl
  | some v => cases v <;> rfl

theorem loadBranch_isOk_iff {now : DateTime} {members : Json.Members} {branch : Text} :
    (∃ current, loadBranch now members branch = .ok current) ↔ IsDated now members branch := by
  rw [loadBranch_eq_ofJson, IsDated]
  cases members.get? branch with
  | none => exact ⟨fun _ _ => nofun, fun _ => ⟨_, rfl⟩⟩
  | some v =>
    dsimp only
    cases entry : State.ofJson now v with
    | ok s =>
      refine ⟨?_, fun _ => ⟨_, rfl⟩⟩
      rintro _ _ ⟨⟩
      rw [entry]
      exact nofun
    | error e =>
      cases e with
      | issues =>
        refine ⟨?_, fun _ => ⟨_, rfl⟩⟩
        rintro _ _ ⟨⟩
        rw [entry]
        exact nofun
      | overflow =>
        constructor
        · rintro ⟨_, ⟨⟩⟩
        · intro dated
          exact absurd entry (dated v rfl)

/-! ## Visits -/

/-- What a document must hold for a red or green commit to be answered. -/
inductive Bears (now : DateTime) (document : Json.Members) (branch : Text) (isRed : Bool)
    (hash : Option Text) : Prop where
  | known (known : isKnown document hash = .ok true)
  | counts {members : Json.Members} (unknown : isKnown document hash = .ok false)
      (listed : branchesIn document = .obj members) (dated : IsDated now members branch)
      (named : isRed = true → branch.IsScalar ∧ branch ≠ [])
      (remembers : ∀ t ∈ countedHash hash, ∃ items, processedIn document = .arr items)

section

variable {c : StoreConfig} {now time : DateTime} {n : Int} {document : Json.Members}
  {branch : Text} {hash : Option Text} {isRed : Bool}

theorem remember_isOk_iff {processed : Json} :
    (∃ processed', remember n hash processed = .ok processed') ↔
      ∀ t ∈ countedHash hash, ∃ items, processed = .arr items := by
  unfold remember
  cases countedHash hash with
  | none => exact ⟨fun _ _ => nofun, fun _ => ⟨_, rfl⟩⟩
  | some t =>
    cases processed with
    | arr items => exact ⟨fun _ _ _ => ⟨items, rfl⟩, fun _ => ⟨_, rfl⟩⟩
    | _ =>
      constructor
      · rintro ⟨_, ⟨⟩⟩
      · intro list
        obtain ⟨_, ⟨⟩⟩ := list t rfl

theorem exists_paired_iff {members : Json.Members} {current : Option State} :
    (∃ members' o, Paired now members current branch time hash isRed members' o) ↔
      (isRed = true → branch.IsScalar ∧ branch ≠ []) := by
  constructor
  · rintro ⟨members', o, paired⟩ red
    cases paired with
    | red scalar nonempty => exact ⟨scalar, nonempty⟩
    | orphan | closing => cases red
  · intro named
    cases isRed with
    | true => exact ⟨_, _, .red (named rfl).1 (named rfl).2⟩
    | false =>
      cases pending : current.bind State.pendingRedAt with
      | none => exact ⟨_, _, .orphan pending⟩
      | some started => exact ⟨_, _, .closing pending⟩

theorem exists_applied_iff :
    (∃ document' o, Applied now n document branch isRed time hash document' o) ↔
      Bears now document branch isRed hash := by
  constructor
  · rintro ⟨document', o, applied⟩
    cases applied with
    | duplicate known => exact .known known
    | counted unknown listed loaded paired remembered =>
      exact .counts unknown (branchesOf_eq_ok listed) (loadBranch_isOk_iff.mp ⟨_, loaded⟩)
        (exists_paired_iff.mp ⟨_, _, paired⟩) (remember_isOk_iff.mp ⟨_, remembered⟩)
  · intro bears
    cases bears with
    | known known => exact ⟨_, _, .duplicate known⟩
    | counts unknown listed dated named remembers =>
      obtain ⟨current, loaded⟩ := loadBranch_isOk_iff.mpr dated
      obtain ⟨members', o, paired⟩ := exists_paired_iff.mpr named
      obtain ⟨processed, remembered⟩ := remember_isOk_iff.mpr remembers
      have listed : branchesOf (branchesIn document) = .ok _ := congrArg branchesOf listed
      exact ⟨_, o, .counted unknown listed loaded paired remembered⟩

end

section

variable {c : StoreConfig} {now time utc : DateTime} {branch : Text} {phase : Phase}
  {hash : Option Text} {isRed : Bool} {f g : Disk.File} {content : Bytes} {o : Observation}

/-- A visit to a file that can be reached, read and replaced, with the lock free. -/
theorem record_eq_ok_iff (regular : f.node = .regular content) (reachable : f.blocked = false)
    (free : f.held = false) (kind : isRed? phase = some isRed) (shown : time.toUtc? = some utc) :
    record c now f branch phase time hash = (.ok o, g) ↔
      ∃ document document', Document.read f = .ok document ∧
        Applied now c.remembered document branch isRed utc hash document' o ∧
        g = if o.duplicate then f
          else { f with node := .regular (Document.bytesOf (.obj document')) } := by
  have written (document : Json.Members) : Document.write f (.obj document) =
      .ok { f with node := .regular (Document.bytesOf (.obj document)) } :=
    Document.write_eq reachable (by simp [regular]) _
  simp only [record, kind, shown, Document.acquire_eq reachable, free, Bool.false_eq_true,
    if_false, written]
  constructor
  · intro recorded
    cases read : Document.read f with
    | error fault =>
      rw [read] at recorded
      cases recorded
    | ok document =>
    rw [read] at recorded
    dsimp only at recorded
    cases applied : apply now c.remembered document branch isRed utc hash with
    | error e =>
      rw [applied] at recorded
      cases recorded
    | ok p =>
    obtain ⟨document', o'⟩ := p
    rw [applied] at recorded
    dsimp only at recorded
    refine ⟨document, document', rfl, ?_⟩
    split at recorded
    next same =>
      cases recorded
      exact ⟨apply_eq_ok_iff.mp applied, by rw [if_pos same]⟩
    next fresh =>
      cases recorded
      exact ⟨apply_eq_ok_iff.mp applied, by rw [if_neg fresh]⟩
  · rintro ⟨document, document', read, applied, rfl⟩
    simp only [read, apply_eq_ok_iff.mpr applied]
    split <;> rfl

/-- A visit is answered when its document bears it, and then it is not passed over. -/
theorem record_isOk_iff (regular : f.node = .regular content) (reachable : f.blocked = false)
    (free : f.held = false) (kind : isRed? phase = some isRed) (shown : time.toUtc? = some utc) :
    (∃ o, (record c now f branch phase time hash).1 = .ok o) ↔
      ∃ document, Document.read f = .ok document ∧ Bears now document branch isRed hash := by
  constructor
  · rintro ⟨o, answered⟩
    obtain ⟨document, document', read, applied, _⟩ :=
      (record_eq_ok_iff regular reachable free kind shown).mp (Prod.ext answered rfl)
    exact ⟨document, read, exists_applied_iff.mp ⟨document', o, applied⟩⟩
  · rintro ⟨document, read, bears⟩
    obtain ⟨document', o, applied⟩ := exists_applied_iff.mpr bears
    have recorded := (record_eq_ok_iff (c := c) regular reachable free kind shown).mpr
      ⟨document, document', read, applied, rfl⟩
    exact ⟨o, by rw [recorded]⟩

/-! ## What is found afterwards -/

theorem joined_entry (scalar : branch.IsScalar) (redAt : DateTime) (hash : Option Text)
    (enteredAt : DateTime) : (Opening.state ⟨redAt, hash, enteredAt⟩ branch).toJson.joined =
      (Opening.state ⟨redAt, hash.map Text.joined, enteredAt⟩ branch).toJson := by
  have name := Text.joined_of_joinless scalar.joinless
  have stamp (t : DateTime) : t.stamp.joined = t.stamp :=
    Text.joined_of_joinless (DateTime.isPlain_stamp t).isScalar.joinless
  cases hash <;>
    simp [Opening.state, State.toJson, Json.ofText?, Json.joined, Json.joinedMembers, name, stamp]

/-- What is read back under the name of a member that was written. -/
theorem get?_read_back {document : Json.Members} (distinct : document.Distinct) {name : Text}
    {v : Json} (found : document.get? name = some v) :
    (reordered (Json.joinedMembers document)).get? name = some v.joined.sorted := by
  rw [get?_reordered distinct.joined, Json.get?_joinedMembers, found]
  rfl

/-- The document that a visit has written is found by the next reader. -/
theorem read_of_planned {document : Json.Members}
    (planned : Planned c now f branch phase time hash (.replace document o))
    (reachable : f.blocked = false) :
    Document.read { f with node := .regular (Document.bytesOf (.obj document)) } =
      .ok (reordered (Json.joinedMembers document)) := by
  obtain ⟨decoded, parsed⟩ := planned.read_document
  have read := Document.read_of_regular
    (f := { f with node := .regular (Document.bytesOf (.obj document)) }) rfl reachable
  rw [read, decoded]
  dsimp only
  rw [Document.ofText, parsed]

theorem branchesIn_read_back {document members : Json.Members} (distinct : document.Distinct)
    (listed : document.get? "branches" = some (.obj members)) :
    branchesIn (reordered (Json.joinedMembers document)) =
      .obj (reordered (Json.joinedMembers members)) := by
  rw [branchesIn, get?_read_back distinct listed, Json.joined, sorted_obj]
  rfl

/-- A commit that counts leaves the entries that it makes of the old ones. -/
theorem Applied.entries {n : Int} {document document' : Json.Members}
    (applied : Applied now n document branch isRed time hash document' o)
    (fresh : o.duplicate = false) :
    ∃ members current members', branchesIn document = .obj members ∧
      loadBranch now members branch = .ok current ∧
      Paired now members current branch time hash isRed members' o ∧
      document'.get? "branches" = some (.obj members') := by
  cases applied with
  | duplicate => cases fresh
  | counted _ listed loaded paired _ =>
    refine ⟨_, _, _, branchesOf_eq_ok listed, loaded, paired, ?_⟩
    rw [Json.Members.get?_put, if_pos rfl]

theorem get_of_read {document members : Json.Members} (read : Document.read f = .ok document)
    (listed : branchesIn document = .obj members) (now : DateTime) (branch : Text) :
    get now f branch = loadBranch now members branch := by
  rw [get, look, read]
  show (branchesOf (branchesIn document) >>= _) = _
  rw [listed]
  rfl

/-- A red commit that is written leaves the cycle that it opens. -/
theorem get_of_planned {document : Json.Members} (clock : now.IsUtc)
    (kind : isRed? phase = some true) (shown : time.toUtc? = some utc)
    (planned : Planned c now f branch phase time hash (.replace document o)) (later : DateTime) :
    get later { f with node := .regular (Document.bytesOf (.obj document)) } branch =
      .ok (some (Opening.state ⟨utc, hash.map Text.joined, now⟩ branch)) := by
  have received := planned.received
  have back := read_of_planned planned
  cases planned with
  | taken kind' shown' reachable _ _ applied fresh =>
  rw [kind] at kind'
  rw [shown] at shown'
  cases kind'
  cases shown'
  obtain ⟨members, _, members', _, _, paired, listed⟩ := applied.entries fresh
  cases paired with
  | red scalar nonempty =>
  have entries := branchesIn_read_back (Json.received_obj.mp received).1 listed
  have distinct := (Json.received_obj.mp (Received.get? received listed)).1
  have entered := get?_read_back distinct
    ((Json.Members.get?_put branch branch _ members).trans (if_pos rfl))
  have lasts : Opening.Lasts ⟨utc, hash.map Text.joined, now⟩ := by
    refine ⟨DateTime.isUtc_of_toUtc? shown, ?_, clock⟩
    intro t mem
    obtain ⟨u, _, rfl⟩ := Option.map_eq_some_iff.mp mem
    exact Text.joinless_joined u
  rw [get_of_read (back reachable) entries, loadBranch_eq_ofJson, entered, joined_entry scalar,
    State.sorted_toJson]
  dsimp only
  rw [State.ofJson_toJson lasts scalar nonempty]

/-- Behind a red commit that counts, its branch has the cycle that it opened. -/
theorem get_of_red (regular : f.node = .regular content) (reachable : f.blocked = false)
    (free : f.held = false) (clock : now.IsUtc) (kind : isRed? phase = some true)
    (shown : time.toUtc? = some utc)
    (recorded : record c now f branch phase time hash = (.ok o, g)) (fresh : o.duplicate = false)
    (later : DateTime) :
    get later g branch = .ok (some (Opening.state ⟨utc, hash.map Text.joined, now⟩ branch)) := by
  obtain ⟨document, document', read, applied, rfl⟩ :=
    (record_eq_ok_iff regular reachable free kind shown).mp recorded
  have planned : Planned c now f branch phase time hash (.replace document' o) :=
    .taken kind shown reachable free read applied fresh
  rw [if_neg (Bool.eq_false_iff.mp fresh)]
  exact get_of_planned clock kind shown planned later

end

/-! ## Readers without a lock -/

section

variable {now : DateTime} {f : Disk.File} {branch : Text}

theorem get_isOk_iff : (∃ s, get now f branch = .ok s) ↔ ∃ document members,
    Document.read f = .ok document ∧ branchesIn document = .obj members ∧
      IsDated now members branch := by
  unfold get look
  cases Document.read f with
  | error fault =>
    constructor
    · rintro ⟨_, ⟨⟩⟩
    · rintro ⟨_, _, ⟨⟩, _⟩
  | ok document =>
    show (∃ s, (branchesOf (branchesIn document) >>= fun branches =>
      loadBranch now branches branch) = .ok s) ↔ _
    constructor
    · rintro ⟨s, found⟩
      cases listed : branchesIn document with
      | obj members =>
        rw [listed] at found
        exact ⟨document, members, rfl, listed, loadBranch_isOk_iff.mp ⟨s, found⟩⟩
      | _ =>
        rw [listed] at found
        cases found
    · rintro ⟨_, members, ⟨⟩, listed, dated⟩
      rw [listed]
      exact loadBranch_isOk_iff.mpr dated

theorem loadAll_isOk_iff {branches members : Json.Members} :
    (∃ states, loadAll now branches members = .ok states) ↔
      ∀ p ∈ members, IsDated now branches p.1 := by
  induction members with
  | nil => exact ⟨fun _ p mem => absurd mem List.not_mem_nil, fun _ => ⟨[], rfl⟩⟩
  | cons p members ih =>
    obtain ⟨name, v⟩ := p
    rw [List.forall_mem_cons, ← ih, ← loadBranch_isOk_iff, loadAll]
    cases loadBranch now branches name with
    | error e =>
      constructor
      · rintro ⟨_, ⟨⟩⟩
      · rintro ⟨⟨_, ⟨⟩⟩, _⟩
    | ok current =>
      cases loadAll now branches members with
      | error e =>
        constructor
        · rintro ⟨_, ⟨⟩⟩
        · rintro ⟨_, _, ⟨⟩⟩
      | ok states => exact ⟨fun _ => ⟨⟨_, rfl⟩, ⟨_, rfl⟩⟩, fun _ => ⟨_, rfl⟩⟩

theorem pending_of_read {document : Json.Members} (read : Document.read f = .ok document) :
    pending now f = match branchesIn document with
      | .obj branches =>
        (loadAll now branches branches).map fun states => sortByTime (states.filter State.isOpen)
      | .arr [] => .ok []
      | .arr (_ :: _) => .error (.lacks .arr .get)
      | .str [] => .ok []
      | .str (_ :: _) => .error (.lacks .str .get)
      | v => .error (.notListable v.kind) := by
  rw [pending, look, read]
  rfl

/-- An empty list and an empty text have no branches either. -/
theorem pending_isOk_iff : (∃ states, pending now f = .ok states) ↔ ∃ document,
    Document.read f = .ok document ∧
      (branchesIn document = .arr [] ∨ branchesIn document = .str [] ∨
        ∃ members, branchesIn document = .obj members ∧
          ∀ p ∈ members, IsDated now members p.1) := by
  cases read : Document.read f with
  | error fault =>
    rw [pending, look, read]
    constructor
    · rintro ⟨_, ⟨⟩⟩
    · rintro ⟨_, ⟨⟩, _⟩
  | ok document =>
    rw [pending_of_read read]
    simp only [Except.ok.injEq, exists_eq_left']
    cases listed : branchesIn document with
    | obj members =>
      simp only [reduceCtorEq, false_or, Json.obj.injEq, exists_eq_left', ← loadAll_isOk_iff]
      cases loadAll now members members <;> simp [Except.map]
    | arr items => cases items <;> simp
    | str t => cases t <;> simp
    | null | bool | int | float => simp

end

/-! ## The whole content -/

/-- How far the store bears with a content. -/
structure Tolerates (now : DateTime) (f : Disk.File) (content : Bytes) : Prop where
  legible : (∃ document, Document.read f = .ok document) ↔ Document.IsLegible content
  /-- A legible content that is no object counts as empty, and every commit is answered. -/
  fresh : Document.IsLegible content →
    (∀ t members, Utf8.decode content = .ok t → Json.read t ≠ .ok (.obj members)) →
    Document.read f = .ok [] ∧ ∀ (branch : Text) (isRed : Bool) (hash : Option Text),
      (isRed = true → branch.IsScalar ∧ branch ≠ []) → Bears now [] branch isRed hash
  answers : ∀ (c : StoreConfig) (branch : Text) (phase : Phase) (time utc : DateTime)
    (hash : Option Text) (isRed : Bool), isRed? phase = some isRed → time.toUtc? = some utc →
    ((∃ o, (record c now f branch phase time hash).1 = .ok o) ↔
      ∃ document, Document.read f = .ok document ∧ Bears now document branch isRed hash)
  counts : ∀ (c : StoreConfig) (branch : Text) (phase : Phase) (time : DateTime)
    (hash : Option Text) (o : Observation) (g : Disk.File),
    record c now f branch phase time hash = (.ok o, g) → o.skipped = false
  opens : ∀ (c : StoreConfig) (branch : Text) (time utc : DateTime) (hash : Option Text)
    (o : Observation) (g : Disk.File), time.toUtc? = some utc →
    record c now f branch .red time hash = (.ok o, g) → o.duplicate = false → ∀ later,
      get later g branch = .ok (some (Opening.state ⟨utc, hash.map Text.joined, now⟩ branch))
  gets : ∀ branch, (∃ s, get now f branch = .ok s) ↔ ∃ document members,
    Document.read f = .ok document ∧ branchesIn document = .obj members ∧
      IsDated now members branch
  lists : (∃ states, pending now f = .ok states) ↔ ∃ document,
    Document.read f = .ok document ∧
      (branchesIn document = .arr [] ∨ branchesIn document = .str [] ∨
        ∃ members, branchesIn document = .obj members ∧
          ∀ p ∈ members, IsDated now members p.1)

/-- An empty document bears every commit that can be entered. -/
theorem bears_nil {now : DateTime} {branch : Text} {isRed : Bool} {hash : Option Text}
    (named : isRed = true → branch.IsScalar ∧ branch ≠ []) : Bears now [] branch isRed hash := by
  have unknown : isKnown [] hash = .ok false := by
    rw [isKnown]
    cases countedHash hash <;> rfl
  have dated : IsDated now [] branch := by
    intro v found
    cases found
  exact .counts unknown rfl dated named fun _ _ => ⟨[], rfl⟩

theorem content_is_tolerated {f : Disk.File} {content : Bytes}
    (regular : f.node = .regular content) (reachable : f.blocked = false) (free : f.held = false)
    {now : DateTime} (clock : now.IsUtc) : Tolerates now f content where
  legible := Document.read_isOk_iff regular reachable
  fresh legible other := by
    refine ⟨?_, fun _ _ _ => bears_nil⟩
    obtain ⟨t, decoded, malformed⟩ := legible
    rw [Document.read_of_regular regular reachable, decoded]
    dsimp only
    rw [Document.ofText]
    cases parsed : Json.read t with
    | error e =>
      obtain ⟨fault, position, rfl⟩ := malformed e parsed
      rfl
    | ok v =>
      cases v with
      | obj members => exact absurd parsed (other t members decoded)
      | _ => rfl
  answers _ _ _ _ _ _ _ kind shown := record_isOk_iff regular reachable free kind shown
  counts c branch phase time hash o g recorded := by
    obtain ⟨p, planned, answer⟩ := planned_of_record recorded
    rw [← Bool.not_eq_true, planned.skipped_iff answer]
    simp [isBusy, free]
  opens c branch time utc hash o g shown recorded fresh :=
    get_of_red regular reachable free clock rfl shown recorded fresh
  gets _ := get_isOk_iff
  lists := pending_isOk_iff

/-- A file whose content is torn does not keep the store from opening a cycle. -/
theorem content_is_tolerated_torn :
    ∃ o g, record ⟨.zero, 200⟩ (.minute 1)
        { Disk.File.fresh "state" "state.json" with node := .regular [0x7B] } "main" .red
        (.minute 0) (some "a") = (.ok o, g) ∧
      o.skipped = false ∧
      get (.minute 2) g "main" =
        .ok (some (Opening.state ⟨.minute 0, some (Text.joined "a"), .minute 1⟩ "main")) := by
  have tolerates : Tolerates (.minute 1)
      { Disk.File.fresh "state" "state.json" with node := .regular [0x7B] } [0x7B] :=
    content_is_tolerated rfl rfl rfl rfl
  have answered : (record ⟨.zero, 200⟩ (.minute 1)
      { Disk.File.fresh "state" "state.json" with node := .regular [0x7B] } "main" .red
      (.minute 0) (some "a")).1.toOption = some .empty := by decide +kernel
  obtain ⟨answer, g, recorded⟩ : ∃ answer g, record ⟨.zero, 200⟩ (.minute 1)
      { Disk.File.fresh "state" "state.json" with node := .regular [0x7B] } "main" .red
      (.minute 0) (some "a") = (answer, g) := ⟨_, _, rfl⟩
  rw [recorded] at answered
  cases answer with
  | error e => cases answered
  | ok o =>
    cases answered
    exact ⟨_, g, recorded, tolerates.counts _ _ _ _ _ _ _ recorded,
      tolerates.opens _ _ _ _ _ _ _ rfl recorded rfl _⟩

/-- A byte that is no UTF-8 stops every reader of the file, and so does a list in place of the
object of branches; a number in place of the list of hashes stops the visits. -/
theorem content_is_not_tolerated :
    (record ⟨.zero, 200⟩ (.minute 1)
        { Disk.File.fresh "state" "state.json" with node := .regular [0xFF] } "main" .red
        (.minute 0) (some "a")).1.isOk = false ∧
      (get (.minute 1) { Disk.File.fresh "state" "state.json" with node := .regular [0xFF] }
        "main").isOk = false ∧
      (pending (.minute 1)
        { Disk.File.fresh "state" "state.json" with node := .regular [0xFF] }).isOk = false ∧
      (get (.minute 1)
        { Disk.File.fresh "state" "state.json" with
          node := .regular (Utf8.encode "\x7b\"branches\": []\x7d") } "main").isOk = false ∧
      (record ⟨.zero, 200⟩ (.minute 1)
        { Disk.File.fresh "state" "state.json" with
          node := .regular (Utf8.encode "\x7b\"processed\": 5\x7d") } "main" .red
        (.minute 0) (some "a")).1.isOk = false := by
  decide +kernel

end Cycle

end RedGreen
