import RedGreen.Proofs.Ingestion.Batches
import RedGreen.Proofs.Ingestion.Traces

/-!
# Batches of records

The text of a batch of records and the body of a request that carries it are two ways of writing
the payload.  Both are read as the payload, unless an integer of a record has more digits than a
reader converts; and the text, when it is read, reproduces itself.
-/

namespace RedGreen

namespace Ingestion

/-! ## Texts -/

theorem forall_textsOfItems {vs : List Json} {P : Bool × Text → Prop} :
    (∀ p ∈ textsOfItems vs, P p) ↔ ∀ v ∈ vs, ∀ p ∈ texts v, P p := by
  induction vs with
  | nil => exact iff_of_true (List.forall_mem_nil _) (List.forall_mem_nil _)
  | cons v vs ih => rw [textsOfItems, List.forall_mem_append, List.forall_mem_cons, ih]

theorem forall_textsOfMembers {ms : Json.Members} {P : Bool × Text → Prop} :
    (∀ p ∈ textsOfMembers ms, P p) ↔ ∀ m ∈ ms, P (true, m.1) ∧ ∀ p ∈ texts m.2, P p := by
  induction ms with
  | nil => exact iff_of_true (List.forall_mem_nil _) (List.forall_mem_nil _)
  | cons m ms ih =>
    rw [textsOfMembers, List.forall_mem_cons, List.forall_mem_append, List.forall_mem_cons, ih,
      and_assoc]

theorem Event.forall_texts {e : Event} :
    (∀ p ∈ texts e.toJson, p.2.IsScalar) ↔
      e.id.IsScalar ∧ ∀ p ∈ textsOfMembers e.body, p.2.IsScalar := by
  have kind : e.kind.name.IsScalar := by
    cases e.kind <;> decide
  have names : ∀ name ∈ (["id", "timestamp", "type", "body"] : List Text), name.IsScalar := by
    decide
  simp only [List.forall_mem_cons] at names
  refine forall_textsOfMembers.trans ?_
  simp only [List.forall_mem_cons, texts, names, kind, e.timestamp.isPlain_stamp.isScalar]
  simp

theorem Batch.forall_texts {b : Batch} :
    (∀ p ∈ texts b.toJson, p.2.IsScalar) ↔ (∀ e ∈ b.events, ∀ p ∈ texts e.toJson, p.2.IsScalar) ∧
      ∀ p ∈ textsOfMembers b.metadata, p.2.IsScalar := by
  have names : ∀ name ∈ (["batch", "metadata"] : List Text), name.IsScalar := by
    decide
  simp only [List.forall_mem_cons] at names
  refine forall_textsOfMembers.trans ?_
  simp only [List.forall_mem_cons, texts, names, forall_textsOfItems, List.forall_mem_map]
  simp

/-! ## Traces -/

namespace TraceSource

variable {s : TraceSource} {r : Record} {body : Json.Members}

theorem unrepeated_metadataOf : Json.Unrepeated (.obj (s.metadataOf r)) := by
  have dropped {name : Text} {x : Option Json} :
      ((Record.optionalMember name x).map Prod.fst).Sublist [name] := by
    cases x with
    | none => exact List.nil_sublist _
    | some v => exact List.Sublist.refl _
  have names : ((s.metadataOf r).map Prod.fst).Sublist ["commit_hash", "branch", "repository",
      "phase", "files_changed", "lines_added", "lines_removed", "occurred_at", "abandoned_cycle",
      "orphan_green", "duplicate", "cycle_state", "schema_version", "source",
      "cycle_duration_seconds", "cycle_started_at"] := by
    rw [metadataOf, List.map_append, List.map_append]
    exact ((List.Sublist.refl _).append dropped).append dropped
  refine ⟨List.Nodup.sublist names (by decide), Json.unrepeatedMembers_iff.mpr ?_⟩
  refine List.forall_mem_append.mpr ⟨List.forall_mem_append.mpr ⟨?_, ?_⟩, ?_⟩
  · simp [Json.Unrepeated]
  · exact forall_optionalMember fun _ _ => trivial
  · exact forall_optionalMember fun _ _ => trivial

theorem unrepeated_of_bodyOf (made : s.bodyOf r = .ok body) :
    Json.Unrepeated (.obj body) := by
  obtain ⟨id, rfl⟩ := bodyOf_eq_ok made
  have tags : Json.UnrepeatedItems ((tagsOf r).map .str) :=
    Json.unrepeatedItems_iff.mpr (List.forall_mem_map.mpr fun _ _ => trivial)
  refine ⟨(by decide : (["id", "name", "timestamp", "userId", "sessionId", "input", "output",
    "metadata", "tags"] : List Text).Nodup), ?_⟩
  exact ⟨trivial, trivial, trivial, trivial, trivial, trivial, trivial, unrepeated_metadataOf, tags,
    trivial⟩

theorem hasShortIntegers_of_bodyOf (made : s.bodyOf r = .ok body)
    (short : Json.longNumeral? (.obj body) = none) : r.HasShortIntegers := by
  have inside : Json.longNumeralMembers? (s.metadataOf r) = none :=
    Json.longNumeralMembers?_eq_none.mp short _
      (Json.Members.mem_of_get? (tells_of_bodyOf made).metadata)
  have integer {k : Text} {i : Int} (found : (s.metadataOf r).get? k = some (.int i)) :
      Json.digitCount i ≤ Json.digitLimit :=
    Json.hasNumeral_iff.mp (Json.longInt?_eq_none_iff.mp
      (Json.longNumeralMembers?_eq_none.mp inside _ (Json.Members.mem_of_get? found)))
  simp only [Record.HasShortIntegers, Record.integers, List.forall_mem_cons]
  exact ⟨integer (k := "schema_version") rfl, integer (k := "files_changed") rfl,
    integer (k := "lines_added") rfl, integer (k := "lines_removed") rfl, List.forall_mem_nil _⟩

/-- A record without its numbers. -/
def uncounted (r : Record) : Record :=
  { r with schemaVersion := 0, filesChanged := 0, linesAdded := 0, linesRemoved := 0 }

/-- The integers of a record count neither for the texts of its trace nor for the depth. -/
theorem bodyOf_uncounted (made : s.bodyOf (uncounted r) = .ok body) :
    ∃ body', s.bodyOf r = .ok body' ∧ textsOfMembers body' = textsOfMembers body ∧
      depthOfMembers body' = depthOfMembers body := by
  unfold bodyOf at made ⊢
  dsimp only [uncounted] at made
  cases hashed : TraceId.ofHash r.commitHash with
  | error e =>
    rw [hashed] at made
    cases made
  | ok id =>
    rw [hashed] at made
    cases made
    exact ⟨_, rfl, rfl, rfl⟩

/-- A record whose texts can be encoded has a trace that can be written. -/
theorem bodyOf_written (source : s.source.IsScalar) (name : s.traceName.IsScalar)
    (unicode : r.IsUnicode) : ∃ body, s.bodyOf r = .ok body ∧
      (∀ p ∈ textsOfMembers body, p.2.IsScalar) ∧ depthOfMembers body ≤ Batch.depthLimit := by
  -- Only integers that are too long keep a request from carrying the trace: they are set aside.
  have short : (uncounted r).HasShortIntegers := by
    simp only [Record.HasShortIntegers, Record.integers, uncounted, List.forall_mem_cons]
    decide +kernel
  obtain ⟨body, made, sendable, shallow⟩ := bodyOf_eq (r := uncounted r) source name unicode short
  obtain ⟨body', made', sameTexts, sameDepth⟩ := bodyOf_uncounted made
  refine ⟨body', made', ?_, ?_⟩
  · rw [sameTexts]
    exact isScalar_texts _ sendable
  · rw [sameDepth]
    exact shallow

section

variable {now : DateTime} {ids : IdSource} {records : List Record} {b : Batch}

theorem batch_of_unicode (now : DateTime) (ids : IdSource) (source : s.source.IsScalar)
    (name : s.traceName.IsScalar) (unicode : ∀ r ∈ records, r.IsUnicode) :
    ∃ b, s.batch now ids records = .ok b := by
  refine batch_exists now ids fun r mem => ?_
  obtain ⟨body, made, -⟩ := bodyOf_written source name (unicode r mem)
  exact ⟨body, made⟩

theorem Gathers.isWritable (gathers : s.Gathers now ids records b)
    (scalar : ∀ n, (ids n).IsScalar) (source : s.source.IsScalar) (name : s.traceName.IsScalar)
    (unicode : ∀ r ∈ records, r.IsUnicode) : b.IsWritable := by
  have each : ∀ e ∈ b.events, (∀ p ∈ texts e.toJson, p.2.IsScalar) ∧
      depthOfMembers e.body ≤ Batch.depthLimit := by
    intro e mem
    obtain ⟨r, among, ⟨n, id⟩, -, traced⟩ := gathers.back e mem
    obtain ⟨body, made, encodable, shallow⟩ := bodyOf_written source name (unicode r among)
    cases made.symm.trans traced
    exact ⟨Event.forall_texts.mpr ⟨id ▸ scalar n, encodable⟩, shallow⟩
  constructor
  · rw [Batch.forall_documents, gathers.metadata]
    exact ⟨fun e mem => (each e mem).2, Nat.le_trans (Nat.le_refl 1) (by decide)⟩
  · rw [Batch.forall_texts, gathers.metadata]
    exact ⟨fun e mem => (each e mem).1, List.forall_mem_cons.mpr
      ⟨(by decide : Text.IsScalar "source"), List.forall_mem_singleton.mpr source⟩⟩

/-- A batch with a text holds no text that cannot be encoded. -/
theorem Gathers.isUnicode (gathers : s.Gathers now ids records b) (writable : b.IsWritable) :
    ∀ r ∈ records, r.IsUnicode := by
  intro r mem
  obtain ⟨e, among, traces⟩ := gathers.forth r mem
  have tells := tells_of_bodyOf traces.body
  have inside := forall_textsOfMembers.mp
    (Event.forall_texts.mp ((Batch.forall_texts.mp writable.scalar).1 e among)).2
  have metadata := forall_textsOfMembers.mp
    (inside _ (Json.Members.mem_of_get? tells.metadata)).2
  have scalar {ms : Json.Members} {k t : Text} (found : ms.get? k = some (.str t))
      (within : ∀ m ∈ ms, m.1.IsScalar ∧ ∀ p ∈ texts m.2, p.2.IsScalar) : t.IsScalar :=
    (within _ (Json.Members.mem_of_get? found)).2 _ (List.mem_singleton.mpr rfl)
  simp only [Record.IsUnicode, Record.texts, List.forall_mem_cons]
  exact ⟨scalar (k := "commit_hash") rfl metadata, scalar (k := "branch") rfl metadata,
    scalar (k := "repository") rfl metadata, scalar tells.author inside,
    scalar tells.message inside, List.forall_mem_nil _⟩

theorem Gathers.isLegible (gathers : s.Gathers now ids records b) (minutes : now.OnMinutes) :
    b.IsLegible := by
  constructor
  · intro e mem
    obtain ⟨r, -, traces⟩ := gathers.back e mem
    exact traces.timestamp ▸ minutes
  · rw [Batch.forall_documents, gathers.metadata]
    refine ⟨fun e mem => ?_, List.nodup_singleton _, trivial, trivial⟩
    obtain ⟨r, -, traces⟩ := gathers.back e mem
    exact unrepeated_of_bodyOf traces.body

/-- Readers are stopped by nothing but the integers of the records. -/
theorem Gathers.longNumeral?_eq_none (gathers : s.Gathers now ids records b)
    (source : s.source.IsScalar) (name : s.traceName.IsScalar)
    (unicode : ∀ r ∈ records, r.IsUnicode) :
    Json.longNumeral? b.toJson = none ↔ ∀ r ∈ records, r.HasShortIntegers := by
  rw [Batch.longNumeral?_toJson, Batch.forall_documents, gathers.metadata]
  constructor
  · rintro ⟨bodies, -⟩ r mem
    obtain ⟨e, among, traces⟩ := gathers.forth r mem
    exact hasShortIntegers_of_bodyOf traces.body (bodies e among)
  · refine fun short => ⟨fun e mem => ?_, rfl⟩
    obtain ⟨r, among, traces⟩ := gathers.back e mem
    obtain ⟨body, made, sendable, -⟩ := bodyOf_eq source name (unicode r among) (short r among)
    cases made.symm.trans traces.body
    exact Json.longNumeral?_of_numerals _ sendable.integers

end

end TraceSource

/-! ## One document -/

/-- What becomes of a batch of records.  It has a text and a payload; the text reproduces itself,
the text is read as the payload, and so is the body of a request, each of them exactly when the
integers of the records are short enough. -/
structure Conveys (records : List Record) (b : Batch) (t : Text) (document : Json) : Prop where
  written : b.write = .ok t
  payload : b.payload = .ok document
  reproduces : Batch.Reproduces t ↔ ∀ r ∈ records, r.HasShortIntegers
  read : Json.read t = .ok document ↔ ∀ r ∈ records, r.HasShortIntegers
  sent : (∃ body, Delivery.bodyOf document = .ok body ∧ Json.read body = .ok document) ↔
    ∀ r ∈ records, r.HasShortIntegers

theorem TraceSource.Gathers.conveys {s : TraceSource} {now : DateTime} {ids : IdSource}
    {records : List Record} {b : Batch} (gathers : s.Gathers now ids records b)
    (minutes : now.OnMinutes) (scalar : ∀ n, (ids n).IsScalar) (source : s.source.IsScalar)
    (name : s.traceName.IsScalar) (unicode : ∀ r ∈ records, r.IsUnicode) :
    Conveys records b (Json.compact .line (finiteOnly b.toJson)) (finiteOnly b.toJson) := by
  have legible := gathers.isLegible minutes
  have writable := gathers.isWritable scalar source name unicode
  have written := Batch.write_eq_ok_iff.mpr ⟨writable, rfl⟩
  have short := gathers.longNumeral?_eq_none source name unicode
  have reads {style : Json.Style} (raw : style.escape = Json.escapeRaw) :
      Json.read (Json.compact style (finiteOnly b.toJson)) = .ok (finiteOnly b.toJson) ↔
        ∀ r ∈ records, r.HasShortIntegers := by
    rw [Batch.read_compact_iff raw writable.shallow legible.unrepeated, short]
    exact and_iff_left rfl
  refine ⟨written, Batch.payload_eq writable.shallow writable.scalar, ?_, reads rfl, ?_, ?_⟩
  · rw [legible.reproduces_iff written, short]
  · rintro ⟨body, made, parsed⟩
    cases Delivery.bodyOf_eq_ok made
    exact (reads rfl).mp parsed
  · intro few
    have sendable := gathers.isSendable scalar source name fun r mem => ⟨unicode r mem, few r mem⟩
    exact ⟨_, Delivery.bodyOf_of_isSendable (isSendable_finiteOnly _ sendable.toJson),
      (reads rfl).mpr few⟩

/-- A text that was read as a batch is written as a text that reproduces itself.  Records have a
batch with a text exactly when their texts can be encoded. -/
theorem batches_reproduce {now : DateTime} (minutes : now.OnMinutes) :
    (∀ (ids : IdSource) (t u : Text) (b : Batch), Batch.read now ids t = .ok b →
      b.write = .ok u → Batch.Reproduces u) ∧
    ∀ (s : TraceSource) (ids : IdSource) (records : List Record), s.source.IsScalar →
      s.traceName.IsScalar → (∀ n, (ids n).IsScalar) →
      ((∃ b t document, s.batch now ids records = .ok b ∧ Conveys records b t document) ↔
        ∀ r ∈ records, r.IsUnicode) := by
  refine ⟨fun ids t u b => Batch.reproduces_of_read minutes,
    fun s ids records source name scalar => ⟨?_, fun unicode => ?_⟩⟩
  · rintro ⟨b, t, document, made, conveys⟩
    exact (TraceSource.batch_eq_ok made).isUnicode (Batch.write_eq_ok_iff.mp conveys.written).1
  · obtain ⟨b, made⟩ := TraceSource.batch_of_unicode now ids source name unicode
    have gathers := TraceSource.batch_eq_ok made
    exact ⟨b, _, _, made, gathers.conveys minutes scalar source name unicode⟩

/-- The same id for every event. -/
def oneId : IdSource := fun _ => "e1"

theorem isScalar_oneId (n : Nat) : (oneId n).IsScalar :=
  (by decide : Text.IsScalar "e1")

/-- An empty object is read as an empty batch, and the sample record has a batch with a text that
reproduces itself. -/
theorem batches_reproduce_sample : Record.sample.occurredAt.OnMinutes ∧
    Batch.Reproduces "\x7b\"batch\":[],\"metadata\":\x7b\x7d\x7d" ∧
    ∃ b t document, TraceSource.standard.batch Record.sample.occurredAt oneId [.sample] = .ok b ∧
      Conveys [.sample] b t document ∧ Batch.Reproduces t := by
  have minutes : Record.sample.occurredAt.OnMinutes := by decide
  obtain ⟨texts, records⟩ := batches_reproduce minutes
  refine ⟨minutes, texts oneId "\x7b\x7d" _ ⟨[], []⟩ rfl rfl, ?_⟩
  obtain ⟨b, t, document, made, conveys⟩ :=
    (records .standard oneId [.sample] (by decide) (by decide) isScalar_oneId).mpr
      (List.forall_mem_singleton.mpr (by decide))
  exact ⟨b, t, document, made, conveys,
    conveys.reproduces.mpr (List.forall_mem_singleton.mpr (by decide +kernel))⟩

/-- The sample with half of a surrogate pair as its message. -/
def halfMessage : Record := { Record.sample with message := [CodePoint.ofNat 0xD800] }

/-- One of these batches has no text, and nobody reads the text of the other. -/
theorem batches_do_not_reproduce :
    (∃ b, TraceSource.standard.batch Record.sample.occurredAt oneId [halfMessage] = .ok b ∧
      ∀ t, b.write ≠ .ok t) ∧
    ∃ b t, TraceSource.standard.batch Record.sample.occurredAt oneId [.manyDigits] = .ok b ∧
      b.write = .ok t ∧ ∀ now ids b', Batch.read now ids t ≠ .ok b' := by
  have source : TraceSource.standard.source.IsScalar := by decide
  have name : TraceSource.standard.traceName.IsScalar := by decide
  constructor
  · obtain ⟨b, made⟩ : ∃ b, TraceSource.standard.batch Record.sample.occurredAt oneId
      [halfMessage] = .ok b := ⟨_, rfl⟩
    refine ⟨b, made, fun t written => ?_⟩
    have writable := (Batch.write_eq_ok_iff.mp written).1
    have unicode := (TraceSource.batch_eq_ok made).isUnicode writable _ List.mem_cons_self
    exact absurd unicode (by decide)
  · have unicode : ∀ r ∈ [Record.manyDigits], r.IsUnicode :=
      List.forall_mem_singleton.mpr (by decide +kernel)
    obtain ⟨b, made⟩ := TraceSource.batch_of_unicode Record.sample.occurredAt oneId source name
      unicode
    have gathers := TraceSource.batch_eq_ok made
    have minutes : Record.sample.occurredAt.OnMinutes := by decide
    have writable := gathers.isWritable isScalar_oneId source name unicode
    have written := Batch.write_eq_ok_iff.mpr ⟨writable, rfl⟩
    refine ⟨b, _, made, written, fun now ids b' accepted => ?_⟩
    have short := (gathers.isLegible minutes).short_of_read written accepted
    rw [gathers.longNumeral?_eq_none source name unicode] at short
    exact Record.manyDigits_not_short (short _ List.mem_cons_self)

end Ingestion

end RedGreen
