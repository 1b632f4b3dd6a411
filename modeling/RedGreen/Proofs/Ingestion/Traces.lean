import RedGreen.Ingestion.Batch
import RedGreen.Proofs.Json.Members
import RedGreen.Proofs.Number.Rounding
import RedGreen.Proofs.Record.RoundTrip
import RedGreen.Proofs.Time.Iso

/-!
# What a trace tells of its record

Everything in a record but the time at which it was logged is found again in its trace.  Bodies are
compared as documents are: the order of members does not count, and a number equals any number of
the same value, of whatever kind, a boolean included.
-/

namespace RedGreen

namespace Json

/-! ## Equal documents -/

/-- The value of a boolean or a number that is not infinite, counted in least units. -/
def units? : Json → Option Int
  | .bool b => some (b.toNat * Magnitude.unitsPerOne)
  | .int i => some (i * Magnitude.unitsPerOne)
  | .float x => x.units?
  | _ => none

inductive Equals : Json → Json → Prop where
  | null : Equals .null .null
  | number {v w : Json} {n : Int} (left : v.units? = some n) (right : w.units? = some n) :
      Equals v w
  | infinite (negative : Bool) : Equals (.float (.infinite negative)) (.float (.infinite negative))
  | str (t : Text) : Equals (.str t) (.str t)
  | arr {vs ws : List Json} (length : vs.length = ws.length)
      (items : ∀ (i : Nat) (v w : Json), vs[i]? = some v → ws[i]? = some w → Equals v w) :
      Equals (.arr vs) (.arr ws)
  | obj {ms ns : Members} (names : ∀ name, (ms.get? name).isSome = (ns.get? name).isSome)
      (members : ∀ (name : Text) (v w : Json), ms.get? name = some v → ns.get? name = some w →
        Equals v w) :
      Equals (.obj ms) (.obj ns)

theorem units_injective {i j : Int}
    (same : i * (Magnitude.unitsPerOne : Int) = j * Magnitude.unitsPerOne) : i = j := by
  have some : (Magnitude.unitsPerOne : Int) ≠ 0 :=
    Int.natCast_ne_zero.mpr (Nat.pos_iff_ne_zero.mp Magnitude.unitsPerOne_pos)
  exact Int.eq_of_mul_eq_mul_right some same

theorem Equals.str_eq {t u : Text} (equal : Equals (.str t) (.str u)) : t = u := by
  cases equal with
  | str => rfl
  | number left _ => cases left

theorem Equals.int_eq {i j : Int} (equal : Equals (.int i) (.int j)) : i = j := by
  cases equal with
  | number left right => exact units_injective (Option.some.inj (left.trans right.symm))

theorem Equals.bool_eq {a b : Bool} (equal : Equals (.bool a) (.bool b)) : a = b := by
  cases equal with
  | number left right =>
    have same := units_injective (Option.some.inj (left.trans right.symm))
    cases a <;> cases b <;> first | rfl | cases same

/-- Both zeros are one number. -/
theorem Equals.float_equals {x y : Binary64} (equal : Equals (.float x) (.float y)) :
    x.equals y = true := by
  cases equal with
  | infinite negative => cases negative <;> rfl
  | number left right =>
    have same : x.units? = y.units? := left.trans right.symm
    have number : x.units? ≠ none := by
      rw [show x.units? = some _ from left]
      exact nofun
    cases x with
    | notANumber | infinite _ => exact absurd rfl number
    | finite s m =>
      cases y with
      | notANumber | infinite _ => cases s <;> cases same
      | finite t n =>
        cases s <;> cases t <;>
          simp only [Binary64.units?, Option.some.injEq] at same <;>
          simp [Binary64.equals, Binary64.isNaN, Binary64.lt] <;> omega

theorem Equals.member {ms ns : Members} (equal : Equals (.obj ms) (.obj ns)) (name : Text)
    {v w : Json} (found : ms.get? name = some v) (found' : ns.get? name = some w) :
    Equals v w := by
  cases equal with
  | obj _ members => exact members name v w found found'
  | number left _ => cases left

/-- Members that stand for values that may be absent. -/
theorem Equals.optional {ms ns : Members} (equal : Equals (.obj ms) (.obj ns)) {name : Text}
    {f : α → Json} {x y : Option α} (found : ms.get? name = x.map f)
    (found' : ns.get? name = y.map f) :
    x = none ∧ y = none ∨ ∃ a b, x = some a ∧ y = some b ∧ Equals (f a) (f b) := by
  cases equal with
  | number left _ => cases left
  | obj names members =>
    have present := names name
    rw [found, found', Option.isSome_map, Option.isSome_map] at present
    cases x with
    | none =>
      cases y with
      | none => exact .inl ⟨rfl, rfl⟩
      | some b => cases present
    | some a =>
      cases y with
      | none => cases present
      | some b => exact .inr ⟨a, b, rfl, rfl, members name _ _ found found'⟩

theorem equals_int (i : Int) : Equals (.int i) (.int i) := .number rfl rfl

theorem equals_bool (b : Bool) : Equals (.bool b) (.bool b) := .number rfl rfl

theorem equals_float {x : Binary64} (number : x.isNaN = false) : Equals (.float x) (.float x) := by
  cases x with
  | notANumber => cases number
  | infinite negative => exact .infinite negative
  | finite negative m => cases negative <;> exact .number rfl rfl

theorem equals_arr_self {vs : List Json} (each : ∀ v ∈ vs, Equals v v) :
    Equals (.arr vs) (.arr vs) := by
  refine .arr rfl fun i v w found found' => ?_
  obtain rfl : v = w := Option.some.inj (found.symm.trans found')
  exact each v (List.mem_of_getElem? found)

theorem equals_obj_self {ms : Members} (each : ∀ v ∈ ms.map Prod.snd, Equals v v) :
    Equals (.obj ms) (.obj ms) := by
  refine .obj (fun _ => rfl) fun name v w found found' => ?_
  obtain rfl : v = w := Option.some.inj (found.symm.trans found')
  exact each v (List.mem_map_of_mem (Members.mem_of_get? found))

end Json

theorem Phase.name_injective {p q : Phase} (same : p.name = q.name) : p = q := by
  have check := Phase.check_name p
  rw [same, Phase.check_name] at check
  exact (Except.ok.inj check).symm

theorem CycleStatus.name_injective {a b : CycleStatus} (same : a.name = b.name) : a = b := by
  have check := CycleStatus.check_name a
  rw [same, CycleStatus.check_name] at check
  exact (Except.ok.inj check).symm

namespace Ingestion

namespace TraceSource

/-! ## The members of a body -/

section

variable {s : TraceSource} {r r' : Record} {body body' : Json.Members}

theorem bodyOf_eq_ok (made : s.bodyOf r = .ok body) : ∃ id, body = ([
    ("id", .str id),
    ("name", .str s.traceName),
    ("timestamp", .str r.occurredAt.iso),
    ("userId", .str r.author),
    ("sessionId", .str (r.repository ++ (":" : Text) ++ r.branch)),
    ("input", .str r.message),
    ("output", .str r.phase.name),
    ("metadata", .obj (s.metadataOf r)),
    ("tags", .arr ((tagsOf r).map .str))] : Json.Members) := by
  rw [bodyOf] at made
  cases hashed : TraceId.ofHash r.commitHash with
  | error e =>
    rw [hashed] at made
    cases made
  | ok id =>
    rw [hashed] at made
    cases made
    exact ⟨id, rfl⟩

/-- The members of a body from which its record can be told. -/
structure Tells (s : TraceSource) (r : Record) (body : Json.Members) : Prop where
  author : body.get? "userId" = some (.str r.author)
  message : body.get? "input" = some (.str r.message)
  metadata : body.get? "metadata" = some (.obj (s.metadataOf r))
  tags : body.get? "tags" = some (.arr ((tagsOf r).map .str))

theorem tells_of_bodyOf (made : s.bodyOf r = .ok body) : Tells s r body := by
  obtain ⟨id, rfl⟩ := bodyOf_eq_ok made
  exact ⟨rfl, rfl, rfl, rfl⟩

theorem get?_cycleSeconds : (s.metadataOf r).get? "cycle_duration_seconds" =
    r.cycleSeconds.map .float := by
  obtain ⟨_, _, _, _, _, _, _, _, _, _, _, _, seconds, started, _, _, _, _⟩ := r
  cases seconds <;> cases started <;> rfl

theorem get?_cycleStartedAt : (s.metadataOf r).get? "cycle_started_at" =
    r.cycleStartedAt.map fun t => .str t.iso := by
  obtain ⟨_, _, _, _, _, _, _, _, _, _, _, _, seconds, started, _, _, _, _⟩ := r
  cases seconds <;> cases started <;> rfl

theorem closed_mem_tagsOf : ("cycle:closed" : Text) ∈ tagsOf r ↔ r.cycleSeconds.isSome = true := by
  -- The other tags begin with another word.
  have phase : ("cycle:closed" : Text) ≠ ("phase:" : Text) ++ r.phase.name := by
    cases r.phase <;> decide
  have branch : ("cycle:closed" : Text) ≠ ("branch:" : Text) ++ r.branch := by
    intro same
    cases List.head_eq_of_cons_eq same
  rw [tagsOf, List.mem_cons, List.mem_cons, or_iff_right phase, or_iff_right branch]
  cases r.cycleSeconds.isSome <;> simp

/-- Two records that agree in all but the time of logging; durations are compared as numbers. -/
structure AgreeButLogged (r r' : Record) : Prop where
  others : { r' with loggedAt := r.loggedAt, cycleSeconds := r.cycleSeconds } = r
  seconds : r.cycleSeconds = none ∧ r'.cycleSeconds = none ∨
    ∃ x y, r.cycleSeconds = some x ∧ r'.cycleSeconds = some y ∧ x.equals y = true

theorem agree_of_metadata
    (equal : Json.Equals (.obj (s.metadataOf r)) (.obj (s.metadataOf r')))
    (author : r.author = r'.author) (message : r.message = r'.message) :
    AgreeButLogged r r' := by
  have version : r.schemaVersion = r'.schemaVersion :=
    (equal.member "schema_version" rfl rfl).int_eq
  have hash : r.commitHash = r'.commitHash := (equal.member "commit_hash" rfl rfl).str_eq
  have branch : r.branch = r'.branch := (equal.member "branch" rfl rfl).str_eq
  have repository : r.repository = r'.repository := (equal.member "repository" rfl rfl).str_eq
  have phase : r.phase = r'.phase :=
    Phase.name_injective (equal.member "phase" rfl rfl).str_eq
  have files : r.filesChanged = r'.filesChanged :=
    Int.ofNat.inj (equal.member "files_changed" rfl rfl).int_eq
  have added : r.linesAdded = r'.linesAdded :=
    Int.ofNat.inj (equal.member "lines_added" rfl rfl).int_eq
  have removed : r.linesRemoved = r'.linesRemoved :=
    Int.ofNat.inj (equal.member "lines_removed" rfl rfl).int_eq
  have occurred : r.occurredAt = r'.occurredAt :=
    DateTime.iso_inj (equal.member "occurred_at" rfl rfl).str_eq
  have abandoned : r.abandonedCycle = r'.abandonedCycle :=
    (equal.member "abandoned_cycle" rfl rfl).bool_eq
  have orphan : r.orphanGreen = r'.orphanGreen := (equal.member "orphan_green" rfl rfl).bool_eq
  have duplicate : r.duplicate = r'.duplicate := (equal.member "duplicate" rfl rfl).bool_eq
  have status : r.cycleStatus = r'.cycleStatus :=
    CycleStatus.name_injective (equal.member "cycle_state" rfl rfl).str_eq
  have started : r.cycleStartedAt = r'.cycleStartedAt := by
    rcases equal.optional get?_cycleStartedAt get?_cycleStartedAt with
      ⟨absent, absent'⟩ | ⟨t, t', present, present', same⟩
    · rw [absent, absent']
    · rw [present, present', DateTime.iso_inj same.str_eq]
  refine ⟨?_, ?_⟩
  · rw [← version, ← hash, ← branch, ← repository, ← author, ← message, ← phase, ← files, ← added,
      ← removed, ← occurred, ← started, ← abandoned, ← orphan, ← duplicate, ← status]
  · rcases equal.optional get?_cycleSeconds get?_cycleSeconds with
      absent | ⟨x, y, present, present', same⟩
    · exact .inl absent
    · exact .inr ⟨x, y, present, present', same.float_equals⟩

/-- The marks of a closed cycle in a body. -/
structure MarksClosed (r : Record) (body : Json.Members) : Prop where
  tag : ∃ tags, body.get? "tags" = some (.arr tags) ∧
    (.str "cycle:closed" ∈ tags ↔ r.cycleSeconds.isSome = true)
  seconds : ∃ metadata : Json.Members, body.get? "metadata" = some (.obj metadata) ∧
    metadata.get? "cycle_duration_seconds" = r.cycleSeconds.map .float

theorem Tells.marksClosed (tells : Tells s r body) : MarksClosed r body where
  tag := by
    refine ⟨_, tells.tags, ?_⟩
    rw [← closed_mem_tagsOf, List.mem_map]
    constructor
    · rintro ⟨t, mem, ⟨⟩⟩
      exact mem
    · exact fun mem => ⟨_, mem, rfl⟩
  seconds := ⟨_, tells.metadata, get?_cycleSeconds⟩

theorem equals_metadataOf (number : ∀ x ∈ r.cycleSeconds, x.isNaN = false) :
    Json.Equals (.obj (s.metadataOf r)) (.obj (s.metadataOf r)) := by
  have seconds : ∀ v ∈ (Record.optionalMember "cycle_duration_seconds"
      (r.cycleSeconds.map .float)).map Prod.snd, Json.Equals v v := by
    cases present : r.cycleSeconds with
    | none => exact nofun
    | some x => exact List.forall_mem_singleton.mpr (Json.equals_float (number x present))
  have started : ∀ v ∈ (Record.optionalMember "cycle_started_at"
      (r.cycleStartedAt.map fun t => .str t.iso)).map Prod.snd, Json.Equals v v := by
    cases r.cycleStartedAt with
    | none => exact nofun
    | some t => exact List.forall_mem_singleton.mpr (.str t.iso)
  apply Json.equals_obj_self
  rw [metadataOf, List.map_append, List.map_append]
  refine List.forall_mem_append.mpr ⟨List.forall_mem_append.mpr ⟨?_, seconds⟩, started⟩
  simp only [List.map_cons, List.map_nil, List.forall_mem_cons, Json.Equals.str, Json.equals_int,
    Json.equals_bool, true_and]
  exact nofun

/-- A body equals itself when the duration in it is a number. -/
theorem equals_bodyOf (made : s.bodyOf r = .ok body)
    (number : ∀ x ∈ r.cycleSeconds, x.isNaN = false) : Json.Equals (.obj body) (.obj body) := by
  have tags : Json.Equals (.arr ((tagsOf r).map .str)) (.arr ((tagsOf r).map .str)) :=
    Json.equals_arr_self (List.forall_mem_map.mpr fun t _ => .str t)
  obtain ⟨id, rfl⟩ := bodyOf_eq_ok made
  apply Json.equals_obj_self
  simp only [List.map_cons, List.map_nil, List.forall_mem_cons, Json.Equals.str,
    equals_metadataOf number, tags, true_and]
  exact nofun

/-- A body is marked as closing a cycle exactly when its record has the seconds of one, be they
zero, and every record with an equal body agrees in all but the time of logging. -/
theorem bodyOf_tells (made : s.bodyOf r = .ok body) :
    MarksClosed r body ∧ ∀ (r' : Record) (body' : Json.Members), s.bodyOf r' = .ok body' →
      Json.Equals (.obj body) (.obj body') → AgreeButLogged r r' := by
  have tells := tells_of_bodyOf made
  refine ⟨tells.marksClosed, fun r' body' made' equal => ?_⟩
  have tells' := tells_of_bodyOf made'
  refine agree_of_metadata (equal.member "metadata" tells.metadata tells'.metadata) ?_ ?_
  · exact (equal.member "userId" tells.author tells'.author).str_eq
  · exact (equal.member "input" tells.message tells'.message).str_eq

end

/-- The sample, logged a minute later. -/
def loggedLater : Record :=
  { Record.sample with loggedAt := ⟨1704067260000001, none, by decide, by decide⟩ }

/-- The two have one body, with a duration and with the tag. -/
theorem bodyOf_tells_sample : ∃ body, standard.bodyOf .sample = .ok body ∧
    MarksClosed .sample body ∧ standard.bodyOf loggedLater = .ok body ∧
      Json.Equals (.obj body) (.obj body) ∧ AgreeButLogged .sample loggedLater := by
  obtain ⟨body, made⟩ : ∃ body, standard.bodyOf .sample = .ok body := ⟨_, rfl⟩
  have equal := equals_bodyOf made (by decide)
  have law := bodyOf_tells made
  exact ⟨body, made, law.1, made, equal, law.2 loggedLater body made equal⟩

end TraceSource

end Ingestion

end RedGreen
