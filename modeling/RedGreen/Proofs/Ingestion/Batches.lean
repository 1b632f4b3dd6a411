import RedGreen.Proofs.Delivery.Requests
import RedGreen.Proofs.Ingestion.Finite
import RedGreen.Proofs.Settings.Accepted
import RedGreen.Proofs.Time.Offsets

/-!
# Batches read back

A batch loses something when it is written: numbers that are not finite become `null`.  It is lost
once.  The text is read as a batch that is written as the same text, whatever ids and clock the
reader has, since the text leaves nothing to them.
-/

namespace RedGreen

namespace Ingestion

theorem EventKind.check_name (k : EventKind) : check (.str k.name) = .ok k := by
  cases k <;> rfl

namespace Event

/-- What is left of an event when it was written. -/
def finite (e : Event) : Event := { e with body := finiteMembers e.body }

theorem toJson_finite (e : Event) : e.finite.toJson = finiteOnly e.toJson := rfl

/-- An event whose document gives its id. -/
def draft (e : Event) : Draft := ⟨some e.id, e.timestamp, e.kind, e.body⟩

theorem ofJson_toJson (now : DateTime) {e : Event} (minutes : e.timestamp.OnMinutes) :
    Draft.ofJson now e.toJson = .ok e.draft := by
  let document : Json.Members := [("id", .str e.id), ("timestamp", .str e.timestamp.stamp),
    ("type", .str e.kind.name), ("body", .obj e.body)]
  have id : Field.optional "id" none (fun v => (Field.text v).map some) document =
      .ok (some e.id) := Field.optional_of_get? rfl rfl
  have timestamp : Field.optional "timestamp" now Field.dateTime document = .ok e.timestamp :=
    Field.optional_of_get? rfl (Field.dateTime_stamp minutes)
  have kind : Field.required "type" EventKind.check document = .ok e.kind :=
    Field.required_of_get? rfl (EventKind.check_name _)
  have body : Field.required "body" Field.members document = .ok e.body :=
    Field.required_of_get? rfl rfl
  show Draft.check now document = .ok e.draft
  rw [Draft.check, id, timestamp, kind, body]
  rfl

theorem complete_drafts (ids : IdSource) (used : Nat) (es : List Event) :
    Draft.complete ids used (es.map draft) = es := by
  induction es with
  | nil => rfl
  | cons e es ih => rw [List.map_cons, Draft.complete, ih]; rfl

end Event

namespace Batch

variable {b : Batch}

/-! ## Writing -/

/-- A batch that has a text: it is not too deep, and its texts can be encoded. -/
structure IsWritable (b : Batch) : Prop where
  shallow : ∀ d ∈ b.documents, depthOfMembers d ≤ depthLimit
  scalar : ∀ p ∈ texts b.toJson, p.2.IsScalar

theorem payload_eq_ok {document : Json} (made : b.payload = .ok document) :
    (∀ d ∈ b.documents, depthOfMembers d ≤ depthLimit) ∧ document = finiteOnly b.toJson := by
  unfold payload at made
  split at made
  next => cases made
  next flat =>
    dsimp only at made
    split at made
    next => cases made
    next =>
      cases made
      refine ⟨fun d mem => Nat.not_lt.mp fun deep => flat ?_, rfl⟩
      exact List.any_eq_true.mpr ⟨d, mem, decide_eq_true deep⟩

theorem texts_payload (b : Batch) : texts (finiteOnly b.toJson) = texts b.toJson :=
  (unchanged_finiteOnly b.toJson).texts

theorem write_of_payload {document : Json} (paid : b.payload = .ok document) :
    b.write = match (texts document).findSome? fun p => Text.surrogateRun? 0 p.2 with
      | some e => .error (.text e)
      | none => .ok (Json.compact .line document) := by
  rw [write, paid]
  rfl

theorem write_eq_ok_iff {t : Text} :
    b.write = .ok t ↔ b.IsWritable ∧ t = Json.compact .line (finiteOnly b.toJson) := by
  constructor
  · intro written
    cases paid : b.payload with
    | error e =>
      rw [write, paid] at written
      cases written
    | ok document =>
      obtain ⟨shallow, rfl⟩ := payload_eq_ok paid
      rw [write_of_payload paid, texts_payload] at written
      split at written
      next => cases written
      next found =>
        rw [List.findSome?_eq_none_iff] at found
        exact ⟨⟨shallow, fun p mem => Text.surrogateRun?_eq_none_iff.mp (found p mem)⟩,
          (Except.ok.inj written).symm⟩
  · rintro ⟨⟨shallow, scalar⟩, rfl⟩
    have found : ((texts b.toJson).findSome? fun p => Text.surrogateRun? 0 p.2) = none :=
      List.findSome?_eq_none_iff.mpr fun p mem => Text.surrogateRun?_eq_none_iff.mpr (scalar p mem)
    rw [write_of_payload (payload_eq shallow scalar), texts_payload, found]

/-- What is left of a batch when it was written. -/
def finite (b : Batch) : Batch := ⟨b.events.map Event.finite, finiteMembers b.metadata⟩

theorem toJson_finite (b : Batch) : b.finite.toJson = finiteOnly b.toJson := by
  have events : b.finite.events.map Event.toJson = finiteItems (b.events.map Event.toJson) := by
    rw [finiteItems_eq_map, finite, List.map_map, List.map_map]
    exact List.map_congr_left fun e _ => e.toJson_finite
  rw [toJson, events]
  rfl

theorem documents_finite (b : Batch) : b.finite.documents = b.documents.map finiteMembers := by
  rw [documents, documents, finite, List.map_append, List.map_map, List.map_map]
  rfl

theorem write_finite {t : Text} (written : b.write = .ok t) : b.finite.write = .ok t := by
  obtain ⟨⟨shallow, scalar⟩, rfl⟩ := write_eq_ok_iff.mp written
  refine write_eq_ok_iff.mpr ⟨⟨?_, ?_⟩, ?_⟩
  · rw [documents_finite]
    refine List.forall_mem_map.mpr fun d mem => ?_
    rw [(unchanged_finiteMembers d).depth]
    exact shallow d mem
  · rw [toJson_finite, texts_payload]
    exact scalar
  · rw [toJson_finite, (unchanged_finiteOnly b.toJson).again]

/-! ## Reading -/

/-- A batch that its document shows in full: a stamp shows each timestamp, and no name is lost. -/
structure IsLegible (b : Batch) : Prop where
  minutes : ∀ e ∈ b.events, e.timestamp.OnMinutes
  unrepeated : ∀ d ∈ b.documents, Json.Unrepeated (.obj d)

theorem ofJson_toJson (now : DateTime) (ids : IdSource)
    (minutes : ∀ e ∈ b.events, e.timestamp.OnMinutes) : ofJson now ids b.toJson = .ok b := by
  let document : Json.Members :=
    [("batch", .arr (b.events.map Event.toJson)), ("metadata", .obj b.metadata)]
  have drafts : Field.list (Draft.ofJson now) (.arr (b.events.map Event.toJson)) =
      .ok (b.events.map Event.draft) :=
    Field.itemsFrom_map (fun e mem => Event.ofJson_toJson now (minutes e mem)) 0
  have events : Field.optional "batch" [] (Field.list (Draft.ofJson now)) document =
      .ok (b.events.map Event.draft) := Field.optional_of_get? rfl drafts
  have metadata : Field.optional "metadata" [] Field.members document = .ok b.metadata :=
    Field.optional_of_get? rfl rfl
  show check now ids document = .ok b
  rw [check, events, metadata]
  show Except.ok (⟨Draft.complete ids 0 (b.events.map Event.draft), b.metadata⟩ : Batch) = _
  rw [Event.complete_drafts]

theorem unrepeated_toJson (each : ∀ d ∈ b.documents, Json.Unrepeated (.obj d)) :
    Json.Unrepeated b.toJson := by
  rw [forall_documents] at each
  have events : Json.UnrepeatedItems (b.events.map Event.toJson) :=
    Json.unrepeatedItems_iff.mpr <| List.forall_mem_map.mpr fun e mem =>
      ⟨(by decide : (["id", "timestamp", "type", "body"] : List Text).Nodup),
        trivial, trivial, trivial, each.1 e mem, trivial⟩
  exact ⟨(by decide : (["batch", "metadata"] : List Text).Nodup), events, each.2, trivial⟩

theorem longNumeral?_toJson :
    Json.longNumeral? b.toJson = none ↔ ∀ d ∈ b.documents, Json.longNumeral? (.obj d) = none := by
  have event : ∀ e : Event, Json.longNumeral? e.toJson = Json.longNumeral? (.obj e.body) :=
    fun _ => Option.or_none
  have split : Json.longNumeral? b.toJson = (Json.longNumeralItems? (b.events.map Event.toJson)).or
      ((Json.longNumeral? (.obj b.metadata)).or none) := rfl
  rw [split, Option.or_eq_none_iff, Option.or_none, Json.longNumeralItems?_eq_none,
    forall_documents, List.forall_mem_map]
  simp only [event]

theorem depth_toJson (shallow : ∀ d ∈ b.documents, depthOfMembers d ≤ depthLimit) :
    depth b.toJson ≤ Json.depthLimit := by
  rw [forall_documents] at shallow
  have events : depthOfItems (b.events.map Event.toJson) ≤ depthLimit + 2 :=
    depthOfItems_le.mpr <| List.forall_mem_map.mpr fun e mem => by
      have body := shallow.1 e mem
      simp only [Event.toJson, depth, depthOfMembers]
      omega
  have metadata := shallow.2
  simp only [toJson, depth, depthOfMembers, depthLimit, Json.depthLimit] at events metadata ⊢
  omega

/-- The document of a batch is read as what is left of the batch, unless an integer stops it. -/
theorem read_compact_iff {s : Json.Style} (raw : s.escape = Json.escapeRaw)
    (shallow : ∀ d ∈ b.documents, depthOfMembers d ≤ depthLimit)
    (unrepeated : ∀ d ∈ b.documents, Json.Unrepeated (.obj d)) {document : Json} :
    Json.read (Json.compact s (finiteOnly b.toJson)) = .ok document ↔
      Json.longNumeral? b.toJson = none ∧ document = finiteOnly b.toJson := by
  rw [read_finiteOnly raw (unrepeated_toJson unrepeated) (depth_toJson shallow)]
  cases Json.longNumeral? b.toJson with
  | none => simp [eq_comm]
  | some n => simp

/-- A text that is read as a batch, which is written as the text. -/
def Reproduces (t : Text) : Prop :=
  ∀ (now : DateTime) (ids : IdSource), ∃ b, read now ids t = .ok b ∧ b.write = .ok t

theorem json_of_read {now : DateTime} {ids : IdSource} {t : Text}
    (accepted : read now ids t = .ok b) :
    ∃ v, Json.read t = .ok v ∧ ofJson now ids v = .ok b := by
  unfold read at accepted
  split at accepted
  next => cases accepted
  next v parsed =>
    split at accepted
    next checked =>
      cases accepted
      exact ⟨v, parsed, checked⟩
    next => cases accepted

theorem IsLegible.short_of_read (legible : b.IsLegible) {t : Text} (written : b.write = .ok t)
    {now : DateTime} {ids : IdSource} {b' : Batch} (accepted : read now ids t = .ok b') :
    Json.longNumeral? b.toJson = none := by
  obtain ⟨⟨shallow, -⟩, rfl⟩ := write_eq_ok_iff.mp written
  obtain ⟨v, parsed, -⟩ := json_of_read accepted
  exact ((read_compact_iff rfl shallow legible.unrepeated).mp parsed).1

theorem IsLegible.reproduces_iff (legible : b.IsLegible) {t : Text} (written : b.write = .ok t) :
    Reproduces t ↔ Json.longNumeral? b.toJson = none := by
  constructor
  · intro reproduces
    -- Whatever the clock and the ids, the text is read as a document first.
    obtain ⟨_, accepted, -⟩ := reproduces Record.sample.occurredAt fun _ => []
    exact legible.short_of_read written accepted
  · intro short now ids
    obtain ⟨⟨shallow, -⟩, rfl⟩ := write_eq_ok_iff.mp written
    have parsed := (read_compact_iff (s := .line) rfl shallow legible.unrepeated).mpr ⟨short, rfl⟩
    have whole := ofJson_toJson (b := b.finite) now ids (List.forall_mem_map.mpr legible.minutes)
    rw [toJson_finite] at whole
    refine ⟨b.finite, ?_, write_finite written⟩
    rw [read, parsed]
    simp only [whole]

end Batch

/-! ## What was read -/

theorem Draft.ofJson_eq_ok {now : DateTime} (minutes : now.OnMinutes) {v : Json} {d : Draft}
    (readable : Json.IsReadable v) (accepted : ofJson now v = .ok d) :
    d.timestamp.OnMinutes ∧ Json.IsReadable (.obj d.body) := by
  obtain ⟨document, model, checked⟩ := Checked.andThen_eq_ok accepted
  cases Field.model_eq_ok model
  -- The checks come apart from the last field to the first.
  obtain ⟨_, body, toKind, bodied, rfl⟩ := Checked.seq_eq_ok checked
  obtain ⟨_, kind, toTimestamp, -, rfl⟩ := Checked.seq_eq_ok toKind
  obtain ⟨_, timestamp, toId, stamped, rfl⟩ := Checked.seq_eq_ok toTimestamp
  obtain ⟨id, -, rfl⟩ := Checked.map_eq_ok toId
  refine ⟨?_, ?_⟩
  · show timestamp.OnMinutes
    rcases Field.optional_cases stamped with rfl | ⟨_, _, accepted⟩
    · exact minutes
    · exact Field.onMinutes_of_dateTime accepted
  · show Json.IsReadable (.obj body)
    obtain ⟨_, found, accepted⟩ := Field.required_eq_ok bodied
    cases Field.members_eq_ok accepted
    exact (Json.isReadable_obj.mp readable).2 _ (Json.Members.mem_of_get? found)

theorem Draft.mem_complete {ids : IdSource} {used : Nat} {ds : List Draft} {e : Event}
    (mem : e ∈ complete ids used ds) : ∃ d ∈ ds, e.timestamp = d.timestamp ∧ e.body = d.body := by
  fun_induction complete ids used ds with
  | case1 => cases mem
  | case2 used d ds id _ ih | case3 used d ds _ ih =>
    rcases List.mem_cons.mp mem with rfl | mem
    · exact ⟨d, List.mem_cons_self, rfl, rfl⟩
    · obtain ⟨d', among, same⟩ := ih mem
      exact ⟨d', List.mem_cons_of_mem d among, same⟩

namespace Batch

variable {b : Batch} {now : DateTime} {ids : IdSource}

/-- A document that can be read gives a batch that can be read again. -/
theorem legible_of_ofJson (minutes : now.OnMinutes) {v : Json} (readable : Json.IsReadable v)
    (accepted : ofJson now ids v = .ok b) :
    b.IsLegible ∧ Json.longNumeral? b.toJson = none := by
  obtain ⟨document, model, checked⟩ := Checked.andThen_eq_ok accepted
  cases Field.model_eq_ok model
  obtain ⟨distinct, inside⟩ := Json.isReadable_obj.mp readable
  obtain ⟨_, metadata, toBatch, given, rfl⟩ := Checked.seq_eq_ok checked
  obtain ⟨drafts, listed, rfl⟩ := Checked.map_eq_ok toBatch
  -- The list of events and the metadata may be missing; their defaults hold nothing.
  have drafted : ∀ d ∈ drafts, d.timestamp.OnMinutes ∧ Json.IsReadable (.obj d.body) := by
    rcases Field.optional_cases listed with rfl | ⟨_, found, accepted⟩
    · exact List.forall_mem_nil _
    · intro d mem
      obtain ⟨items, rfl, each⟩ := Field.list_eq_ok accepted
      obtain ⟨w, among, accepted⟩ := each d mem
      have items := Json.isReadable_arr.mp (inside _ (Json.Members.mem_of_get? found))
      exact Draft.ofJson_eq_ok minutes (items w among) accepted
  have completed : ∀ e ∈ Draft.complete ids 0 drafts,
      e.timestamp.OnMinutes ∧ Json.IsReadable (.obj e.body) := by
    intro e mem
    obtain ⟨d, among, sameTime, sameBody⟩ := Draft.mem_complete mem
    rw [sameTime, sameBody]
    exact drafted d among
  have about : Json.IsReadable (.obj metadata) := by
    rcases Field.optional_cases given with rfl | ⟨_, found, accepted⟩
    · exact ⟨⟨List.nodup_nil, trivial⟩, rfl⟩
    · cases Field.members_eq_ok accepted
      exact inside _ (Json.Members.mem_of_get? found)
  have documents : ∀ d ∈ (⟨Draft.complete ids 0 drafts, metadata⟩ : Batch).documents,
      Json.IsReadable (.obj d) :=
    forall_documents.mpr ⟨fun e mem => (completed e mem).2, about⟩
  exact ⟨⟨fun e mem => (completed e mem).1, fun d mem => (documents d mem).unrepeated⟩,
    longNumeral?_toJson.mpr fun d mem => (documents d mem).short⟩

/-- What was read as a batch is written, if at all, as a text that reproduces itself. -/
theorem reproduces_of_read (minutes : now.OnMinutes) {t u : Text}
    (accepted : read now ids t = .ok b) (written : b.write = .ok u) : Reproduces u := by
  obtain ⟨v, parsed, checked⟩ := json_of_read accepted
  obtain ⟨legible, short⟩ := legible_of_ofJson minutes (Json.isReadable_of_read parsed) checked
  exact (legible.reproduces_iff written).mpr short

end Batch

end Ingestion

end RedGreen
