import RedGreen.Proofs.Cycle.Applied

/-!
# What a visit comes to

`plan` is the part of a visit that only reads: it fails, or leaves the file as it is, or says by
which document the file is to be replaced.  A visit carries out its plan, so all that a visit can do
is said by `Planned`, and whatever it writes is read again as a JSON object.
-/

namespace RedGreen

theorem Disk.File.replace_eq_ok {f g : Disk.File} {content : Bytes}
    (replaced : f.replace content = .ok g) : g = { f with node := .regular content } := by
  unfold Disk.File.replace at replaced
  split at replaced
  next => cases replaced
  next =>
    split at replaced
    next => cases replaced
    next =>
      cases replaced
      rfl

theorem Document.write_eq_ok {f g : Disk.File} {v : Json} (written : Document.write f v = .ok g) :
    g = { f with node := .regular (Document.bytesOf v) } := by
  unfold Document.write at written
  split at written
  next replaced =>
    cases written
    exact Disk.File.replace_eq_ok replaced
  next => cases written

namespace Cycle

/-- What a visit comes to before anything is written. -/
inductive Plan where
  /-- The file stays as it is. -/
  | leave (observation : Observation)
  | replace (document : Json.Members) (observation : Observation)

section

variable (c : StoreConfig) (now : DateTime) (f : Disk.File) (branch : Text) (phase : Phase)
  (time : DateTime) (hash : Option Text)

/-- The part of a visit that only reads. -/
def plan : Except StoreError Plan :=
  match isRed? phase with
  | none => .ok (.leave .empty)
  | some isRed =>
    match time.toUtc? with
    | none => .error (.rejected .overflow)
    | some utc =>
      match Document.acquire f c.lockTimeout with
      | .error (.lockBusy ..) => .ok (.leave .passedOver)
      | .error fault => .error (.document fault)
      | .ok () =>
        match Document.read f with
        | .error fault => .error (.document fault)
        | .ok document =>
          match apply now c.remembered document branch isRed utc hash with
          | .error e => .error e
          | .ok (document', observation) =>
            if observation.duplicate then .ok (.leave observation)
            else .ok (.replace document' observation)

/-- A visit carries out its plan. -/
theorem record_eq_plan : record c now f branch phase time hash =
    match plan c now f branch phase time hash with
    | .error e => (.error e, f)
    | .ok (.leave observation) => (.ok observation, f)
    | .ok (.replace document observation) =>
      match Document.write f (.obj document) with
      | .error fault => (.error (.document fault), f)
      | .ok g => (.ok observation, g) := by
  unfold record plan
  cases isRed? phase with
  | none => rfl
  | some isRed =>
  cases time.toUtc? with
  | none => rfl
  | some utc =>
  cases Document.acquire f c.lockTimeout with
  | error fault => cases fault <;> rfl
  | ok =>
  cases Document.read f with
  | error fault => rfl
  | ok document =>
  dsimp only
  cases apply now c.remembered document branch isRed utc hash with
  | error e => rfl
  | ok p =>
    obtain ⟨document', observation⟩ := p
    dsimp only
    cases observation.duplicate <;> rfl

/-- All that a plan can be. -/
inductive Planned : Plan → Prop where
  | idle (other : isRed? phase = none) : Planned (.leave .empty)
  | busy {isRed : Bool} {utc : DateTime} (kind : isRed? phase = some isRed)
      (shown : time.toUtc? = some utc) (reachable : f.blocked = false) (held : f.held = true) :
    Planned (.leave .passedOver)
  | duplicate {isRed : Bool} {utc : DateTime} {document : Json.Members}
      (kind : isRed? phase = some isRed) (shown : time.toUtc? = some utc)
      (reachable : f.blocked = false) (free : f.held = false)
      (read : Document.read f = .ok document) (known : isKnown document hash = .ok true) :
    Planned (.leave { Observation.empty with duplicate := true })
  | taken {isRed : Bool} {utc : DateTime} {document document' : Json.Members} {o : Observation}
      (kind : isRed? phase = some isRed) (shown : time.toUtc? = some utc)
      (reachable : f.blocked = false) (free : f.held = false)
      (read : Document.read f = .ok document)
      (applied : Applied now c.remembered document branch isRed utc hash document' o)
      (fresh : o.duplicate = false) :
    Planned (.replace document' o)

end

section

variable {c : StoreConfig} {now : DateTime} {f : Disk.File} {branch : Text} {phase : Phase}
  {time : DateTime} {hash : Option Text}

theorem planned_of_plan {p : Plan} (planned : plan c now f branch phase time hash = .ok p) :
    Planned c now f branch phase time hash p := by
  unfold plan at planned
  cases kind : isRed? phase with
  | none =>
    rw [kind] at planned
    cases planned
    exact .idle kind
  | some isRed =>
  cases shown : time.toUtc? with
  | none =>
    simp only [kind, shown] at planned
    cases planned
  | some utc =>
  simp only [kind, shown] at planned
  cases reachable : f.blocked with
  | true =>
    simp only [Document.acquire, reachable, if_true] at planned
    cases planned
  | false =>
  simp only [Document.acquire_eq reachable] at planned
  cases held : f.held with
  | true =>
    simp only [held, if_true] at planned
    cases planned
    exact .busy kind shown reachable held
  | false =>
  simp only [held, Bool.false_eq_true, if_false] at planned
  cases read : Document.read f with
  | error fault =>
    rw [read] at planned
    cases planned
  | ok document =>
  simp only [read] at planned
  cases applied : apply now c.remembered document branch isRed utc hash with
  | error e =>
    rw [applied] at planned
    cases planned
  | ok p =>
  simp only [applied] at planned
  have applied := apply_eq_ok_iff.mp applied
  split at planned
  next same =>
    cases planned
    -- Nothing but a known hash makes a duplicate.
    generalize p.1 = document', p.2 = o at applied same
    cases applied with
    | duplicate known => exact .duplicate kind shown reachable held read known
    | counted _ _ _ paired => rw [paired.isTaken.1] at same; cases same
  next fresh =>
    cases planned
    exact .taken kind shown reachable held read applied (Bool.eq_false_iff.mpr fresh)

/-- What is read from a file can be written and read again. -/
theorem obtained_of_read {document : Json.Members} (read : Document.read f = .ok document) :
    Json.Obtained Json.depthLimit (.obj document) := by
  have empty : Json.Obtained Json.depthLimit (.obj []) :=
    Json.obtained_obj.mpr ⟨Json.Members.distinct_nil, List.forall_mem_nil _⟩
  unfold Document.read at read
  split at read
  next => cases read
  next =>
    cases read
    exact empty
  next bytes _ =>
    split at read
    next => cases read
    next t decoded =>
      unfold Document.ofText at read
      split at read
      next members parsed =>
        cases read
        exact Json.obtained_of_read (Utf8.isScalar_of_decode decoded) parsed
      next =>
        cases read
        exact empty
      next =>
        cases read
        exact empty
      next => cases read
      next => cases read

theorem Planned.received {document : Json.Members} {o : Observation}
    (planned : Planned c now f branch phase time hash (.replace document o)) :
    Json.Received Json.depthLimit (.obj document) := by
  cases planned with
  | taken _ _ _ _ read applied _ =>
    have enough : 1 ≤ 983 := by decide
    exact applied.received enough (obtained_of_read read).toReceived

/-- A document that replaces another is read as the same object, its texts joined and its members
in order. -/
theorem Planned.read_document {document : Json.Members} {o : Observation}
    (planned : Planned c now f branch phase time hash (.replace document o)) :
    Utf8.decode (Document.bytesOf (.obj document)) = .ok (Json.document (.obj document)) ∧
      Json.read (Json.document (.obj document)) =
        .ok (.obj (reordered (Json.joinedMembers document))) := by
  have back := planned.received.read_document
  rw [Json.joined, sorted_obj] at back
  exact ⟨Utf8.decode_encode (Json.isScalar_document _), back⟩

/-! ## Answers -/

/-- A red or green commit whose time can be shown finds the lock taken by another. -/
def isBusy (f : Disk.File) (phase : Phase) (time : DateTime) : Bool :=
  (isRed? phase).isSome && time.toUtc?.isSome && !f.blocked && f.held

/-- Only a busy lock passes a commit over. -/
theorem Planned.skipped_iff {p : Plan} (planned : Planned c now f branch phase time hash p)
    {o : Observation} (answer : p = .leave o ∨ ∃ document, p = .replace document o) :
    o.skipped = true ↔ isBusy f phase time = true := by
  cases planned with
  | idle other =>
    obtain ⟨⟨⟩⟩ | ⟨_, ⟨⟩⟩ := answer
    simp [isBusy, other, Observation.empty]
  | busy kind shown reachable held =>
    obtain ⟨⟨⟩⟩ | ⟨_, ⟨⟩⟩ := answer
    simp [isBusy, kind, shown, reachable, held, Observation.passedOver]
  | duplicate _ _ _ free =>
    obtain ⟨⟨⟩⟩ | ⟨_, ⟨⟩⟩ := answer
    simp [isBusy, free, Observation.empty]
  | taken _ _ _ free _ applied =>
    obtain ⟨⟨⟩⟩ | ⟨_, ⟨⟩⟩ := answer
    simp [isBusy, free, applied.skipped]

/-- Only a green commit closes a cycle, and in no less than no time. -/
theorem Planned.closes {p : Plan} (planned : Planned c now f branch phase time hash p)
    {o : Observation} (answer : p = .leave o ∨ ∃ document, p = .replace document o) :
    ∀ d ∈ o.duration, phase = .green ∧ d.Spans 39 := by
  intro d mem
  cases planned with
  | taken kind _ _ _ _ applied =>
    obtain ⟨⟨⟩⟩ | ⟨_, ⟨⟩⟩ := answer
    obtain ⟨green, spans⟩ := applied.closes d mem
    refine ⟨?_, spans⟩
    rw [green] at kind
    cases phase <;> first | rfl | cases kind
  | idle | busy | duplicate =>
    obtain ⟨⟨⟩⟩ | ⟨_, ⟨⟩⟩ := answer
    cases mem

theorem planned_of_record {o : Observation} {g : Disk.File}
    (recorded : record c now f branch phase time hash = (.ok o, g)) :
    ∃ p, Planned c now f branch phase time hash p ∧
      (p = .leave o ∨ ∃ document, p = .replace document o) := by
  rw [record_eq_plan] at recorded
  split at recorded
  next => cases recorded
  next planned =>
    cases recorded
    exact ⟨_, planned_of_plan planned, .inl rfl⟩
  next document _ planned =>
    split at recorded
    next => cases recorded
    next =>
      cases recorded
      exact ⟨_, planned_of_plan planned, .inr ⟨document, rfl⟩⟩

end

end Cycle

end RedGreen
