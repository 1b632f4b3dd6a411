import RedGreen.Delivery.Publish
import RedGreen.Proofs.Json.Numerals
import RedGreen.Proofs.Record.RoundTrip

/-!
# Requests that can be made

A request can carry a value whose texts can be encoded and whose integers have numerals.  The trace
of a record is such a value when the texts and the integers of the record are, so a record becomes
a request wherever the backend has an address.
-/

namespace RedGreen

namespace Json

/-- What a request can carry. -/
structure IsSendable (v : Json) : Prop where
  texts : ∀ t ∈ strings v, t.IsScalar
  integers : ∀ i ∈ integers v, hasNumeral i = true

theorem isSendable_str {t : Text} : (str t).IsSendable ↔ t.IsScalar :=
  ⟨fun sendable => sendable.texts t (List.mem_singleton.mpr rfl),
    fun scalar => ⟨List.forall_mem_singleton.mpr scalar, nofun⟩⟩

theorem isSendable_int {i : Int} : (int i).IsSendable ↔ hasNumeral i = true :=
  ⟨fun sendable => sendable.integers i (List.mem_singleton.mpr rfl),
    fun numeral => ⟨nofun, List.forall_mem_singleton.mpr numeral⟩⟩

theorem isSendable_bool (b : Bool) : (bool b).IsSendable := ⟨nofun, nofun⟩

theorem isSendable_float (x : Binary64) : (float x).IsSendable := ⟨nofun, nofun⟩

theorem isSendable_null : null.IsSendable := ⟨nofun, nofun⟩

theorem isSendable_arr {vs : List Json} : (arr vs).IsSendable ↔ ∀ v ∈ vs, v.IsSendable := by
  constructor
  · rintro ⟨texts, integers⟩ v mem
    exact ⟨forall_itemStrings.mp texts v mem,
      fun i inside => integers i (mem_integersOfItems.mpr ⟨v, mem, inside⟩)⟩
  · intro each
    refine ⟨forall_itemStrings.mpr fun v mem => (each v mem).texts, fun i inside => ?_⟩
    obtain ⟨v, mem, inside⟩ := mem_integersOfItems.mp inside
    exact (each v mem).integers i inside

theorem isSendable_obj {ms : Members} :
    (obj ms).IsSendable ↔ ∀ p ∈ ms, p.1.IsScalar ∧ p.2.IsSendable := by
  constructor
  · rintro ⟨texts, integers⟩ p mem
    obtain ⟨name, inside⟩ := forall_memberStrings.mp texts p mem
    exact ⟨name, inside, fun i among => integers i (mem_integersOfMembers.mpr ⟨p, mem, among⟩)⟩
  · intro each
    refine ⟨forall_memberStrings.mpr fun p mem => ⟨(each p mem).1, (each p mem).2.texts⟩,
      fun i inside => ?_⟩
    obtain ⟨p, mem, inside⟩ := mem_integersOfMembers.mp inside
    exact (each p mem).2.integers i inside

/-- Names and values apart, so that the names can be checked by themselves. -/
theorem isSendable_of_names {ms : Members} (names : ∀ name ∈ ms.map Prod.fst, name.IsScalar)
    (values : ∀ v ∈ ms.map Prod.snd, v.IsSendable) : (obj ms).IsSendable :=
  isSendable_obj.mpr fun _ mem =>
    ⟨names _ (List.mem_map_of_mem mem), values _ (List.mem_map_of_mem mem)⟩

end Json

namespace TraceId

theorem isPlain_hexText (bytes : Bytes) : (hexText bytes).IsPlain := by
  intro c mem
  obtain ⟨b, -, mem⟩ := List.mem_flatMap.mp mem
  exact Text.isPlain_hex 2 b.toNat c mem

theorem isPlain_write (bytes : Bytes) : (write bytes).IsPlain := by
  have hyphen : Text.IsPlain "-" := by decide
  simp only [write, Text.join, Text.isPlain_append, isPlain_hexText, hyphen, and_true]

end TraceId

theorem Text.encode?_of_isScalar {t : Text} (scalar : t.IsScalar) :
    Text.encode? t = .ok (Utf8.encode t) := by
  rw [Text.encode?, Text.surrogateRun?_eq_none_iff.mpr scalar]

namespace Ingestion

/-! ## The payload of a batch -/

mutual

theorem isSendable_finiteOnly : (v : Json) → v.IsSendable → (finiteOnly v).IsSendable
  | .null, sendable | .bool _, sendable | .int _, sendable | .str _, sendable => sendable
  | .float x, sendable => by
    rw [finiteOnly]
    split
    · exact sendable
    · exact Json.isSendable_null
  | .arr items, sendable => by
    rw [finiteOnly]
    exact Json.isSendable_arr.mpr (isSendable_finiteItems items (Json.isSendable_arr.mp sendable))
  | .obj members, sendable => by
    rw [finiteOnly]
    exact Json.isSendable_obj.mpr
      (isSendable_finiteMembers members (Json.isSendable_obj.mp sendable))

theorem isSendable_finiteItems : (vs : List Json) → (∀ v ∈ vs, v.IsSendable) →
    ∀ v ∈ finiteItems vs, v.IsSendable
  | [], _ => nofun
  | v :: vs, each => by
    rw [List.forall_mem_cons] at each
    exact List.forall_mem_cons.mpr
      ⟨isSendable_finiteOnly v each.1, isSendable_finiteItems vs each.2⟩

theorem isSendable_finiteMembers : (ms : List (Text × Json)) →
    (∀ p ∈ ms, p.1.IsScalar ∧ p.2.IsSendable) →
      ∀ p ∈ finiteMembers ms, p.1.IsScalar ∧ p.2.IsSendable
  | [], _ => nofun
  | (k, v) :: ms, each => by
    rw [List.forall_mem_cons] at each
    exact List.forall_mem_cons.mpr
      ⟨⟨each.1.1, isSendable_finiteOnly v each.1.2⟩, isSendable_finiteMembers ms each.2⟩

end

mutual

theorem isScalar_texts : (v : Json) → v.IsSendable → ∀ p ∈ texts v, p.2.IsScalar
  | .null, _ | .bool _, _ | .int _, _ | .float _, _ => nofun
  | .str _, sendable => List.forall_mem_singleton.mpr (Json.isSendable_str.mp sendable)
  | .arr items, sendable => isScalar_textsOfItems items (Json.isSendable_arr.mp sendable)
  | .obj members, sendable => isScalar_textsOfMembers members (Json.isSendable_obj.mp sendable)

theorem isScalar_textsOfItems : (vs : List Json) → (∀ v ∈ vs, v.IsSendable) →
    ∀ p ∈ textsOfItems vs, p.2.IsScalar
  | [], _ => nofun
  | v :: vs, each => by
    rw [List.forall_mem_cons] at each
    rw [textsOfItems]
    exact List.forall_mem_append.mpr ⟨isScalar_texts v each.1, isScalar_textsOfItems vs each.2⟩

theorem isScalar_textsOfMembers : (ms : List (Text × Json)) →
    (∀ p ∈ ms, p.1.IsScalar ∧ p.2.IsSendable) → ∀ p ∈ textsOfMembers ms, p.2.IsScalar
  | [], _ => nofun
  | (k, v) :: ms, each => by
    rw [List.forall_mem_cons] at each
    rw [textsOfMembers]
    exact List.forall_mem_cons.mpr ⟨each.1.1, List.forall_mem_append.mpr
      ⟨isScalar_texts v each.1.2, isScalar_textsOfMembers ms each.2⟩⟩

end

theorem Batch.forall_documents {b : Batch} {P : Json.Members → Prop} :
    (∀ d ∈ b.documents, P d) ↔ (∀ e ∈ b.events, P e.body) ∧ P b.metadata := by
  rw [documents, List.forall_mem_append, List.forall_mem_map, List.forall_mem_singleton]

theorem Batch.payload_eq {b : Batch} (shallow : ∀ d ∈ b.documents, depthOfMembers d ≤ depthLimit)
    (scalar : ∀ p ∈ texts b.toJson, p.2.IsScalar) : b.payload = .ok (finiteOnly b.toJson) := by
  have flat : (b.documents.any fun d => depthLimit < depthOfMembers d) = false := by
    refine List.any_eq_false.mpr fun d mem => ?_
    rw [decide_eq_true_eq]
    exact Nat.not_lt.mpr (shallow d mem)
  have named : ((texts b.toJson).filterMap fun p => if p.1 then some p.2 else none).findSome?
      (Text.surrogateRun? 0) = none := by
    refine List.findSome?_eq_none_iff.mpr fun t mem => Text.surrogateRun?_eq_none_iff.mpr ?_
    obtain ⟨p, among, isName⟩ := List.mem_filterMap.mp mem
    have same : p.2 = t := by
      cases mark : p.1 with
      | false => simp [mark] at isName
      | true => simpa [mark] using isName
    exact same ▸ scalar p among
  rw [payload, flat, if_neg Bool.false_ne_true]
  simp only [named]

/-! ## The trace of a record -/

theorem depthOfItems_le {vs : List Json} {n : Nat} :
    depthOfItems vs ≤ n ↔ ∀ v ∈ vs, depth v ≤ n := by
  induction vs with
  | nil => simp [depthOfItems]
  | cons v vs ih => rw [depthOfItems, Nat.max_le, List.forall_mem_cons, ih]

theorem depthOfMembers_le {ms : Json.Members} {n : Nat} :
    depthOfMembers ms ≤ n ↔ ∀ p ∈ ms, depth p.2 ≤ n := by
  induction ms with
  | nil => simp [depthOfMembers]
  | cons p ms ih =>
    obtain ⟨k, v⟩ := p
    rw [depthOfMembers, Nat.max_le, List.forall_mem_cons, ih]

namespace TraceSource

variable {s : TraceSource} {r : Record}

theorem forall_optionalMember {name : Text} {x : Option α} {f : α → Json} {P : Text × Json → Prop}
    (value : ∀ a ∈ x, P (name, f a)) : ∀ p ∈ Record.optionalMember name (x.map f), P p := by
  cases x with
  | none => exact nofun
  | some a => exact List.forall_mem_singleton.mpr (value a rfl)

theorem isSendable_metadataOf (source : s.source.IsScalar) (unicode : r.IsUnicode)
    (short : r.HasShortIntegers) : (Json.obj (s.metadataOf r)).IsSendable := by
  have names : ∀ name ∈ (["commit_hash", "branch", "repository", "phase", "files_changed",
      "lines_added", "lines_removed", "occurred_at", "abandoned_cycle", "orphan_green",
      "duplicate", "cycle_state", "schema_version", "source"] : List Text), name.IsScalar := by
    decide
  have seconds : Text.IsScalar "cycle_duration_seconds" := by decide
  have started : Text.IsScalar "cycle_started_at" := by decide
  simp only [Record.IsUnicode, Record.texts, List.forall_mem_cons] at unicode
  obtain ⟨hash, branch, repository, -⟩ := unicode
  simp only [Record.HasShortIntegers, Record.integers, List.forall_mem_cons] at short
  obtain ⟨version, files, added, removed, -⟩ := short
  have time (t : DateTime) : (Json.str t.iso).IsSendable :=
    Json.isSendable_str.mpr t.isPlain_iso.isScalar
  have integer {i : Int} (few : Json.digitCount i ≤ Json.digitLimit) : (Json.int i).IsSendable :=
    Json.isSendable_int.mpr (Json.hasNumeral_iff.mpr few)
  refine Json.isSendable_obj.mpr (List.forall_mem_append.mpr ⟨List.forall_mem_append.mpr
    ⟨Json.isSendable_obj.mp (Json.isSendable_of_names names ?_),
      forall_optionalMember fun x _ => ⟨seconds, Json.isSendable_float x⟩⟩,
    forall_optionalMember fun t _ => ⟨started, time t⟩⟩)
  simp only [List.map_cons, List.map_nil, List.forall_mem_cons, Json.isSendable_str]
  exact ⟨hash, branch, repository, r.phase.isPlain_name.isScalar, integer files, integer added,
    integer removed, r.occurredAt.isPlain_iso.isScalar, Json.isSendable_bool _,
    Json.isSendable_bool _, Json.isSendable_bool _, r.cycleStatus.isPlain_name.isScalar,
    integer version, source, List.forall_mem_nil _⟩

theorem depthOfMembers_metadataOf (s : TraceSource) (r : Record) :
    depthOfMembers (s.metadataOf r) ≤ 1 := by
  have leaf : ∀ v : Json, depth v = 1 → depth v ≤ 1 := fun _ => Nat.le_of_eq
  refine depthOfMembers_le.mpr (List.forall_mem_append.mpr ⟨List.forall_mem_append.mpr
    ⟨?_, forall_optionalMember fun _ _ => leaf _ rfl⟩, forall_optionalMember fun _ _ => leaf _ rfl⟩)
  simp [depth]

theorem isSendable_tagsOf (branch : r.branch.IsScalar) :
    (Json.arr ((tagsOf r).map .str)).IsSendable := by
  have phase : Text.IsScalar (("phase:" : Text) ++ r.phase.name) :=
    List.forall_mem_append.mpr ⟨by decide, r.phase.isPlain_name.isScalar⟩
  have onBranch : Text.IsScalar (("branch:" : Text) ++ r.branch) :=
    List.forall_mem_append.mpr ⟨by decide, branch⟩
  have closed : ∀ t ∈ if r.cycleSeconds.isSome then (["cycle:closed"] : List Text) else [],
      t.IsScalar := by
    split
    · decide
    · exact nofun
  refine Json.isSendable_arr.mpr (List.forall_mem_map.mpr fun t mem => Json.isSendable_str.mpr ?_)
  exact List.forall_mem_cons.mpr ⟨phase, List.forall_mem_cons.mpr ⟨onBranch, closed⟩⟩ t mem

/-- A record has a trace, which a request can carry and which is not deep. -/
theorem bodyOf_eq (source : s.source.IsScalar) (name : s.traceName.IsScalar)
    (unicode : r.IsUnicode) (short : r.HasShortIntegers) :
    ∃ body, s.bodyOf r = .ok body ∧ (Json.obj body).IsSendable ∧
      depthOfMembers body ≤ Batch.depthLimit := by
  have metadata := isSendable_metadataOf source unicode short
  simp only [Record.IsUnicode, Record.texts, List.forall_mem_cons] at unicode
  obtain ⟨hash, branch, repository, author, message, -⟩ := unicode
  have session : Text.IsScalar (r.repository ++ (":" : Text) ++ r.branch) :=
    List.forall_mem_append.mpr ⟨List.forall_mem_append.mpr ⟨repository, by decide⟩, branch⟩
  have names : ∀ name ∈ (["id", "name", "timestamp", "userId", "sessionId", "input", "output",
      "metadata", "tags"] : List Text), name.IsScalar := by
    decide
  rw [bodyOf, TraceId.ofHash, Text.encode?_of_isScalar hash]
  refine ⟨_, rfl, Json.isSendable_of_names names ?_, ?_⟩
  · simp only [List.map_cons, List.map_nil, List.forall_mem_cons, Json.isSendable_str]
    exact ⟨(TraceId.isPlain_write _).isScalar, name, r.occurredAt.isPlain_iso.isScalar, author,
      session, message, r.phase.isPlain_name.isScalar, metadata, isSendable_tagsOf branch,
      List.forall_mem_nil _⟩
  · have text (t : Text) : depth (.str t) ≤ Batch.depthLimit :=
      Nat.le_trans (Nat.le_refl 1) (by decide)
    have deepest := depthOfMembers_metadataOf s r
    have tags : depthOfItems ((tagsOf r).map .str) ≤ 1 :=
      depthOfItems_le.mpr (List.forall_mem_map.mpr fun _ _ => Nat.le_refl 1)
    refine depthOfMembers_le.mpr ?_
    simp only [List.forall_mem_cons]
    refine ⟨text _, text _, text _, text _, text _, text _, text _, ?_, ?_, List.forall_mem_nil _⟩
    · rw [depth, Batch.depthLimit]
      omega
    · rw [depth, Batch.depthLimit]
      omega

end TraceSource

/-- An event that a request can carry, in a batch that is not too deep. -/
structure Event.IsSendable (e : Event) : Prop where
  id : e.id.IsScalar
  body : (Json.obj e.body).IsSendable
  shallow : depthOfMembers e.body ≤ Batch.depthLimit

theorem Event.IsSendable.toJson {e : Event} (sendable : e.IsSendable) : e.toJson.IsSendable := by
  have kind : e.kind.name.IsScalar := by
    cases e.kind <;> decide
  refine Json.isSendable_of_names
    (by decide : ∀ name ∈ (["id", "timestamp", "type", "body"] : List Text), name.IsScalar) ?_
  simp only [List.map_cons, List.map_nil, List.forall_mem_cons, Json.isSendable_str]
  exact ⟨sendable.id, e.timestamp.isPlain_stamp.isScalar, kind, sendable.body,
    List.forall_mem_nil _⟩

/-- A batch that a request can carry. -/
structure Batch.IsSendable (b : Batch) : Prop where
  events : ∀ e ∈ b.events, e.IsSendable
  metadata : (Json.obj b.metadata).IsSendable
  shallow : depthOfMembers b.metadata ≤ depthLimit

namespace Batch

variable {b : Batch}

theorem IsSendable.toJson (sendable : b.IsSendable) : b.toJson.IsSendable :=
  Json.isSendable_of_names
    (by decide : ∀ name ∈ (["batch", "metadata"] : List Text), name.IsScalar)
    (List.forall_mem_cons.mpr
      ⟨Json.isSendable_arr.mpr
          (List.forall_mem_map.mpr fun e mem => (sendable.events e mem).toJson),
        List.forall_mem_singleton.mpr sendable.metadata⟩)

theorem IsSendable.documents (sendable : b.IsSendable) :
    ∀ d ∈ b.documents, depthOfMembers d ≤ depthLimit :=
  forall_documents.mpr ⟨fun e mem => (sendable.events e mem).shallow, sendable.shallow⟩

theorem IsSendable.payload (sendable : b.IsSendable) : b.payload = .ok (finiteOnly b.toJson) :=
  payload_eq sendable.documents (isScalar_texts b.toJson sendable.toJson)

end Batch

namespace TraceSource

variable {s : TraceSource}

/-- The event that is made of a record. -/
structure Traces (s : TraceSource) (now : DateTime) (ids : IdSource) (r : Record) (e : Event) :
    Prop where
  id : ∃ n, e.id = ids n
  timestamp : e.timestamp = now
  body : s.bodyOf r = .ok e.body

variable {now : DateTime} {ids : IdSource} {records : List Record}

theorem eventsFrom_eq_ok {used : Nat} {events : List Event}
    (made : s.eventsFrom now ids used records = .ok events) :
    (∀ e ∈ events, ∃ r ∈ records, s.Traces now ids r e) ∧
      ∀ r ∈ records, ∃ e ∈ events, s.Traces now ids r e := by
  -- Each record uses up one id, so the count of those used grows along the list.
  induction records generalizing used events with
  | nil =>
    cases made
    exact ⟨List.forall_mem_nil _, List.forall_mem_nil _⟩
  | cons r records ih =>
    rw [eventsFrom, event] at made
    cases first : s.bodyOf r with
    | error e =>
      rw [first] at made
      cases made
    | ok body =>
      cases others : s.eventsFrom now ids (used + 1) records with
      | error e =>
        rw [first, others] at made
        cases made
      | ok events =>
        rw [first, others] at made
        cases made
        obtain ⟨back, forth⟩ := ih others
        have traced : s.Traces now ids r ⟨ids (used + 1), now, .traceCreate, body⟩ :=
          ⟨⟨_, rfl⟩, rfl, first⟩
        refine ⟨List.forall_mem_cons.mpr ⟨⟨r, List.mem_cons_self, traced⟩, fun e mem => ?_⟩,
          List.forall_mem_cons.mpr ⟨⟨_, List.mem_cons_self, traced⟩, fun r' mem => ?_⟩⟩
        · obtain ⟨r', among, traced⟩ := back e mem
          exact ⟨r', List.mem_cons_of_mem r among, traced⟩
        · obtain ⟨e, among, traced⟩ := forth r' mem
          exact ⟨e, List.mem_cons_of_mem _ among, traced⟩

theorem eventsFrom_exists (now : DateTime) (ids : IdSource)
    (traced : ∀ r ∈ records, ∃ body, s.bodyOf r = .ok body) (used : Nat) :
    ∃ events, s.eventsFrom now ids used records = .ok events := by
  induction records generalizing used with
  | nil => exact ⟨[], rfl⟩
  | cons r records ih =>
    rw [List.forall_mem_cons] at traced
    obtain ⟨body, made⟩ := traced.1
    obtain ⟨events, others⟩ := ih traced.2 (used + 1)
    refine ⟨⟨ids (used + 1), now, .traceCreate, body⟩ :: events, ?_⟩
    rw [eventsFrom, event, made, others]
    rfl

/-- What a batch of records holds: one event for each of them, and the source. -/
structure Gathers (s : TraceSource) (now : DateTime) (ids : IdSource) (records : List Record)
    (b : Batch) : Prop where
  back : ∀ e ∈ b.events, ∃ r ∈ records, s.Traces now ids r e
  forth : ∀ r ∈ records, ∃ e ∈ b.events, s.Traces now ids r e
  metadata : b.metadata = ([("source", .str s.source)] : Json.Members)

theorem batch_eq_ok {b : Batch} (made : s.batch now ids records = .ok b) :
    s.Gathers now ids records b := by
  cases traced : s.eventsFrom now ids 0 records with
  | error e =>
    rw [batch, traced] at made
    cases made
  | ok events =>
    rw [batch, traced] at made
    cases made
    obtain ⟨back, forth⟩ := eventsFrom_eq_ok traced
    exact ⟨back, forth, rfl⟩

theorem batch_exists (now : DateTime) (ids : IdSource)
    (traced : ∀ r ∈ records, ∃ body, s.bodyOf r = .ok body) :
    ∃ b, s.batch now ids records = .ok b := by
  obtain ⟨events, made⟩ := eventsFrom_exists now ids traced 0
  rw [batch, made]
  exact ⟨_, rfl⟩

/-- A request can carry the batch of records whose texts can be encoded and whose integers have
numerals. -/
theorem Gathers.isSendable {b : Batch} (gathers : s.Gathers now ids records b)
    (scalar : ∀ n, (ids n).IsScalar) (source : s.source.IsScalar) (name : s.traceName.IsScalar)
    (encodable : ∀ r ∈ records, r.IsUnicode ∧ r.HasShortIntegers) : b.IsSendable := by
  constructor
  · intro e mem
    obtain ⟨r, among, ⟨n, id⟩, -, traced⟩ := gathers.back e mem
    obtain ⟨unicode, short⟩ := encodable r among
    obtain ⟨body, made, sendable, shallow⟩ := bodyOf_eq source name unicode short
    cases made.symm.trans traced
    exact ⟨id ▸ scalar n, sendable, shallow⟩
  · rw [gathers.metadata]
    exact Json.isSendable_of_names (by decide : ∀ name ∈ (["source"] : List Text), name.IsScalar)
      (List.forall_mem_singleton.mpr (Json.isSendable_str.mpr source))
  · rw [gathers.metadata]
    exact Nat.le_trans (Nat.le_refl 1) (by decide)

/-- Records have a batch, which a request can carry. -/
theorem batch_eq (now : DateTime) (scalar : ∀ n, (ids n).IsScalar)
    (source : s.source.IsScalar) (name : s.traceName.IsScalar)
    (encodable : ∀ r ∈ records, r.IsUnicode ∧ r.HasShortIntegers) :
    ∃ b, s.batch now ids records = .ok b ∧ b.IsSendable := by
  have traced : ∀ r ∈ records, ∃ body, s.bodyOf r = .ok body := fun r mem => by
    obtain ⟨unicode, short⟩ := encodable r mem
    obtain ⟨body, made, -⟩ := bodyOf_eq source name unicode short
    exact ⟨body, made⟩
  obtain ⟨b, made⟩ := batch_exists now ids traced
  exact ⟨b, made, (batch_eq_ok made).isSendable scalar source name encodable⟩

end TraceSource

end Ingestion

namespace Delivery

/-! ## The request for a record -/

theorem bodyOf_of_isSendable {v : Json} (sendable : v.IsSendable) :
    bodyOf v = .ok (Json.compact bodyStyle v) := by
  have numerals : v.hasNumerals = true := List.all_eq_true.mpr sendable.integers
  have plain : bodyStyle.PlainNumbers := Json.plainNumbers (by decide) (by decide) (by decide)
  have scalar := Json.isScalar_compact rfl plain sendable.texts
  rw [bodyOf, if_pos numerals]
  simp only [Text.encode?_of_isScalar scalar]

theorem bodyOf_eq_ok {v : Json} {body : Text} (made : bodyOf v = .ok body) :
    body = Json.compact bodyStyle v := by
  unfold bodyOf at made
  split at made
  next =>
    dsimp only at made
    split at made
    next => exact (Except.ok.inj made).symm
    next => cases made
  next => cases made

end Delivery

/-- A backend that requests can be made for: its host has an address, and its credentials and the
name of its traces can be encoded. -/
structure Settings.Backend.IsUsable (b : Settings.Backend) : Prop where
  address : ∃ base address, Address.ofText (b.host.getD []) = .ok base ∧
    base.below Delivery.Request.ingestionPath = .ok address
  credentials : ∀ t ∈ [b.publicKey.getD [], b.secretKey.getD []], t.IsScalar
  traceName : b.traceName.IsScalar

namespace Delivery

theorem authorization_eq {b : Settings.Backend} (usable : b.IsUsable) :
    ∃ t, authorization b = .ok t := by
  have credentials := usable.credentials
  simp only [List.forall_mem_cons] at credentials
  rw [authorization, Text.encode?_of_isScalar credentials.1,
    Text.encode?_of_isScalar credentials.2.1]
  exact ⟨_, rfl⟩

/-- A record whose texts can be encoded and whose integers have numerals becomes a request. -/
theorem requestFor_eq {s : Settings} (usable : s.backend.IsUsable) (now : DateTime) {id : Text}
    (id' : id.IsScalar) {r : Record} (unicode : r.IsUnicode) (short : r.HasShortIntegers) :
    ∃ request, requestFor s now id r = .ok request := by
  have source : Text.IsScalar Ingestion.TraceSource.standard.source := by decide
  obtain ⟨batch, batched, carried⟩ := Ingestion.TraceSource.batch_eq
    (s := { Ingestion.TraceSource.standard with traceName := s.backend.traceName }) now
    (fun _ => id') source usable.traceName (List.forall_mem_singleton.mpr ⟨unicode, short⟩)
  have sendable := Ingestion.isSendable_finiteOnly _ carried.toJson
  obtain ⟨base, address, hosted, below⟩ := usable.address
  obtain ⟨credentials, authorized⟩ := authorization_eq usable
  rw [requestFor, batched]
  simp only [Except.mapError, bind, Except.bind, carried.payload, request, hosted, below,
    authorized, bodyOf_of_isSendable sendable, pure, Except.pure]
  exact ⟨_, rfl⟩

end Delivery

end RedGreen
