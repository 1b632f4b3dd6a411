import RedGreen.Proofs.Record.Fields

/-!
# Records read back from their lines

A record is written as one line of JSON, and the line is read back as the record.  Two things do
not survive: the seconds of an offset that is no whole number of minutes, which a stamp leaves
out, and integers of more digits than the reader converts.
-/

namespace RedGreen

namespace Record

/-! ## What a record may hold -/

/-- What the checks ask of a record beyond the types of its values. -/
def IsValid (r : Record) : Prop := ∀ x ∈ r.cycleSeconds, Binary64.le .zero x = true

/-- The duration, when there is one, is finite. -/
def IsFinite (r : Record) : Prop := ∀ x ∈ r.cycleSeconds, x.isFinite = true

/-- The texts can be encoded. -/
def IsUnicode (r : Record) : Prop := ∀ t ∈ r.texts, t.IsScalar

def times (r : Record) : List DateTime := r.loggedAt :: r.occurredAt :: r.cycleStartedAt.toList

/-- The offsets of all times are whole minutes. -/
def OnMinutes (r : Record) : Prop := ∀ t ∈ r.times, t.OnMinutes

def integers (r : Record) : List Int :=
  [r.schemaVersion, r.filesChanged, r.linesAdded, r.linesRemoved]

/-- No integer has more digits than the reader converts. -/
def HasShortIntegers (r : Record) : Prop :=
  ∀ i ∈ r.integers, Json.digitCount i ≤ Json.digitLimit

instance (t : DateTime) : Decidable t.OnMinutes := inferInstanceAs (Decidable (∀ o ∈ t.offset, _))

section

variable (r : Record)

instance : Decidable r.IsValid := inferInstanceAs (Decidable (∀ x ∈ r.cycleSeconds, _))

instance : Decidable r.IsFinite := inferInstanceAs (Decidable (∀ x ∈ r.cycleSeconds, _))

instance : Decidable r.IsUnicode := inferInstanceAs (Decidable (∀ t ∈ r.texts, _))

instance : Decidable r.OnMinutes := inferInstanceAs (Decidable (∀ t ∈ r.times, _))

instance : Decidable r.HasShortIntegers := inferInstanceAs (Decidable (∀ i ∈ r.integers, _))

end

/-! ## Members -/

/-- The names of all members, the optional ones included. -/
def memberNames : List Text :=
  ["schema_version", "logged_at", "commit_hash", "branch", "repository", "author", "message",
   "phase", "files_changed", "lines_added", "lines_removed", "occurred_at",
   "cycle_duration_seconds", "cycle_started_at", "abandoned_cycle", "orphan_green", "duplicate",
   "cycle_state"]

theorem names_sublist (r : Record) : (r.toMembers.map Prod.fst).Sublist memberNames := by
  have dropped : ∀ {name : Text} {x : Option Json},
      ((optionalMember name x).map Prod.fst).Sublist [name] := by
    intro name x
    cases x with
    | none => exact List.nil_sublist _
    | some v => exact List.Sublist.refl _
  have split : memberNames = r.leadingMembers.map Prod.fst ++
      [Text.ofString "cycle_duration_seconds"] ++ [Text.ofString "cycle_started_at"] ++
        r.trailingMembers.map Prod.fst := rfl
  rw [split, toMembers, List.map_append, List.map_append, List.map_append]
  exact (((List.Sublist.refl _).append dropped).append dropped).append (List.Sublist.refl _)

theorem toMembers_distinct (r : Record) : Json.Members.Distinct r.toMembers :=
  List.Nodup.sublist r.names_sublist (by decide)

/-- What the members of a record hold: no lists and no objects. -/
inductive Leaf (r : Record) : Json → Prop where
  | int {i : Int} (mem : i ∈ r.integers) : Leaf r (.int i)
  | text {t : Text} (mem : t ∈ r.texts) : Leaf r (.str t)
  | plain {t : Text} (plain : t.IsPlain) : Leaf r (.str t)
  | bool (b : Bool) : Leaf r (.bool b)
  | float {x : Binary64} (mem : x ∈ r.cycleSeconds) : Leaf r (.float x)

theorem leaf_leading (r : Record) : ∀ p ∈ r.leadingMembers, Leaf r p.2 := by
  simp only [leadingMembers, List.forall_mem_cons]
  refine ⟨.int ?_, .plain (DateTime.isPlain_stamp _), .text ?_, .text ?_, .text ?_, .text ?_,
    .text ?_, .plain r.phase.isPlain_name, .int ?_, .int ?_, .int ?_,
    .plain (DateTime.isPlain_stamp _), nofun⟩ <;>
    simp [integers, texts]

theorem leaf_trailing (r : Record) : ∀ p ∈ r.trailingMembers, Leaf r p.2 := by
  simp only [trailingMembers, List.forall_mem_cons]
  exact ⟨.bool _, .bool _, .bool _, .plain r.cycleStatus.isPlain_name, nofun⟩

theorem leaf_optional {r : Record} {name : Text} {x : Option α} {f : α → Json}
    (leaf : ∀ a ∈ x, Leaf r (f a)) : ∀ p ∈ optionalMember name (x.map f), Leaf r p.2 := by
  cases x with
  | none => exact nofun
  | some a => exact List.forall_mem_singleton.mpr (leaf a rfl)

theorem leaf_toMembers (r : Record) : ∀ p ∈ r.toMembers, Leaf r p.2 := by
  rw [toMembers]
  simp only [List.forall_mem_append]
  exact ⟨⟨⟨r.leaf_leading, leaf_optional fun x mem => .float mem⟩,
    leaf_optional fun t _ => .plain t.isPlain_stamp⟩, r.leaf_trailing⟩

/-! ## The value -/

theorem kept_toJson {r : Record} (finite : r.IsFinite) : Json.Kept .line r.toJson := by
  refine ⟨r.toMembers_distinct, Json.keptMembers_iff.mpr fun (k, v) mem =>
    ⟨Json.keepsText_line _, ?_⟩⟩
  have leaf : Leaf r v := r.leaf_toMembers (k, v) mem
  cases leaf with
  | int _ | bool _ => trivial
  | text _ | plain _ => exact Json.keepsText_line _
  | float seconds => exact Json.keepsFloat .line (finite _ seconds)

theorem nesting_toJson (r : Record) : Json.nesting r.toJson ≤ Json.depthLimit := by
  -- A record is flat: no member is a container.
  have flat : Json.nestingMembers r.toMembers ≤ 0 := Json.nestingMembers_le.mpr fun (k, v) mem => by
    have leaf : Leaf r v := r.leaf_toMembers (k, v) mem
    cases leaf <;> exact Nat.le_refl 0
  rw [toJson, Json.nesting, Json.depthLimit]
  omega

theorem int_mem_toMembers {r : Record} {i : Int} (mem : i ∈ r.integers) :
    ∃ name, (name, Json.int i) ∈ r.toMembers := by
  have leading : ∀ p ∈ r.leadingMembers, p ∈ r.toMembers := fun p mem => by
    rw [toMembers]
    exact List.mem_append_left _ (List.mem_append_left _ (List.mem_append_left _ mem))
  simp only [integers, List.mem_cons, List.not_mem_nil, or_false] at mem
  rcases mem with rfl | rfl | rfl | rfl
  · exact ⟨"schema_version", leading _ (by simp [leadingMembers])⟩
  · exact ⟨"files_changed", leading _ (by simp [leadingMembers])⟩
  · exact ⟨"lines_added", leading _ (by simp [leadingMembers])⟩
  · exact ⟨"lines_removed", leading _ (by simp [leadingMembers])⟩

theorem longNumeral?_toJson {r : Record} :
    Json.longNumeral? r.toJson = none ↔ r.HasShortIntegers := by
  refine Json.longNumeralMembers?_eq_none.trans ⟨fun absent i mem => ?_, fun short entry mem => ?_⟩
  · obtain ⟨name, mem⟩ := int_mem_toMembers mem
    have absent : Json.longInt? i = none := absent _ mem
    rw [Json.longInt?, ite_eq_right_iff] at absent
    refine Nat.not_lt.mp fun long => ?_
    cases absent long
  · obtain ⟨k, v⟩ := entry
    have leaf : Leaf r v := r.leaf_toMembers (k, v) mem
    cases leaf with
    | int integer =>
      rw [Json.longNumeral?, Json.longInt?, if_neg (Nat.not_lt.mpr (short _ integer))]
    | text _ | plain _ | bool _ | float _ => rfl

theorem isScalar_strings {r : Record} (unicode : r.IsUnicode) :
    ∀ t ∈ Json.strings r.toJson, t.IsScalar := by
  have names : ∀ name ∈ memberNames, Text.IsScalar name := by decide
  refine Json.forall_memberStrings.mpr fun (k, v) mem => ⟨?_, ?_⟩
  · exact names _ (r.names_sublist.subset (List.mem_map_of_mem mem))
  · have leaf : Leaf r v := r.leaf_toMembers (k, v) mem
    cases leaf with
    | int _ | bool _ | float _ => nofun
    | text text => exact List.forall_mem_singleton.mpr (unicode _ text)
    | plain plain => exact List.forall_mem_singleton.mpr plain.isScalar

/-! ## Checking -/

theorem get?_cycleSeconds (r : Record) :
    Json.Members.get? "cycle_duration_seconds" r.toMembers = r.cycleSeconds.map .float := by
  obtain ⟨_, _, _, _, _, _, _, _, _, _, _, _, seconds, started, _, _, _, _⟩ := r
  cases seconds <;> cases started <;> rfl

theorem get?_cycleStartedAt (r : Record) :
    Json.Members.get? "cycle_started_at" r.toMembers =
      r.cycleStartedAt.map fun t => .str t.stamp := by
  obtain ⟨_, _, _, _, _, _, _, _, _, _, _, _, seconds, started, _, _, _, _⟩ := r
  cases seconds <;> cases started <;> rfl

theorem get?_trailing (r : Record) :
    Json.Members.get? "abandoned_cycle" r.toMembers = some (.bool r.abandonedCycle) ∧
    Json.Members.get? "orphan_green" r.toMembers = some (.bool r.orphanGreen) ∧
    Json.Members.get? "duplicate" r.toMembers = some (.bool r.duplicate) ∧
    Json.Members.get? "cycle_state" r.toMembers = some (.str r.cycleStatus.name) := by
  obtain ⟨_, _, _, _, _, _, _, _, _, _, _, _, seconds, started, _, _, _, _⟩ := r
  cases seconds <;> cases started <;> exact ⟨rfl, rfl, rfl, rfl⟩

/-- The members of a record are accepted as the record, whatever the clock shows. -/
theorem check_toMembers (now : DateTime) {r : Record} (valid : r.IsValid) (minutes : r.OnMinutes) :
    check now r.toMembers = .ok r := by
  obtain ⟨abandoned, orphan, duplicate, status⟩ := r.get?_trailing
  have onMinutes : r.loggedAt.OnMinutes ∧ r.occurredAt.OnMinutes ∧
      ∀ t ∈ r.cycleStartedAt, t.OnMinutes :=
    ⟨minutes _ (by simp [times]), minutes _ (by simp [times]),
      fun t mem => minutes t (by simp [times, Option.mem_def.mp mem])⟩
  -- The clock is the default of a member that is always there.
  have loggedAt : Field.optional "logged_at" now Field.dateTime r.toMembers = .ok r.loggedAt :=
    Field.optional_of_get? rfl (Field.dateTime_stamp onMinutes.1)
  have occurredAt : Field.required "occurred_at" Field.dateTime r.toMembers = .ok r.occurredAt :=
    Field.required_of_get? rfl (Field.dateTime_stamp onMinutes.2.1)
  have phase : Field.required "phase" Phase.check r.toMembers = .ok r.phase :=
    Field.required_of_get? rfl (Phase.check_name _)
  have cycleSeconds : Field.optional "cycle_duration_seconds" none
      (Field.orNull Field.numberFromZero) r.toMembers = .ok r.cycleSeconds := by
    -- These two members are left out when there is no value, and then their default is none.
    refine Field.optional_of_map r.get?_cycleSeconds fun x mem => ?_
    show Checked.map some (if Binary64.le .zero x then .accept x else .reject (.belowLeast 0)) = _
    rw [if_pos (valid x mem)]
    rfl
  have cycleStartedAt : Field.optional "cycle_started_at" none (Field.orNull Field.dateTime)
      r.toMembers = .ok r.cycleStartedAt := by
    refine Field.optional_of_map r.get?_cycleStartedAt fun t mem => ?_
    show Checked.map some (Field.dateTime (.str t.stamp)) = _
    rw [Field.dateTime_stamp (onMinutes.2.2 t mem)]
    rfl
  have abandonedCycle : Field.optional "abandoned_cycle" false Field.bool r.toMembers =
      .ok r.abandonedCycle := Field.optional_of_get? abandoned rfl
  have orphanGreen : Field.optional "orphan_green" false Field.bool r.toMembers =
      .ok r.orphanGreen := Field.optional_of_get? orphan rfl
  have duplicated : Field.optional "duplicate" false Field.bool r.toMembers =
      .ok r.duplicate := Field.optional_of_get? duplicate rfl
  have cycleStatus : Field.optional "cycle_state" .ok CycleStatus.check r.toMembers =
      .ok r.cycleStatus := Field.optional_of_get? status (CycleStatus.check_name _)
  rw [check, loggedAt, occurredAt, phase, cycleSeconds, cycleStartedAt, abandonedCycle,
    orphanGreen, duplicated, cycleStatus]
  rfl

theorem ofJson_toJson (now : DateTime) {r : Record} (valid : r.IsValid) (minutes : r.OnMinutes) :
    ofJson now r.toJson = .ok r :=
  check_toMembers now valid minutes

/-! ## Lines -/

theorem toLine_of_isUnicode {r : Record} (unicode : r.IsUnicode) :
    r.toLine = .ok (Json.compact .line r.toJson) := by
  have none : r.texts.findSome? (Text.surrogateRun? 0) = none :=
    List.findSome?_eq_none_iff.mpr fun t mem => Text.surrogateRun?_eq_none_iff.mpr (unicode t mem)
  rw [toLine, none]

theorem toLine_eq_ok {r : Record} {line : Text} (written : r.toLine = .ok line) :
    r.IsUnicode ∧ line = Json.compact .line r.toJson := by
  unfold toLine at written
  split at written
  next => cases written
  next none =>
    refine ⟨fun t mem => ?_, (Except.ok.inj written).symm⟩
    exact Text.surrogateRun?_eq_none_iff.mp (List.findSome?_eq_none_iff.mp none t mem)

/-- The line of a record is read as its value, or stopped at an integer of too many digits. -/
theorem read_line {r : Record} (finite : r.IsFinite) :
    Json.read (Json.compact .line r.toJson) = match Json.longNumeral? r.toJson with
      | some n => .error (.tooManyDigits n)
      | none => .ok r.toJson :=
  Json.read_compact (kept_toJson finite) r.nesting_toJson

theorem ofLine_line (now : DateTime) {r : Record} (valid : r.IsValid) (finite : r.IsFinite)
    (minutes : r.OnMinutes) (short : r.HasShortIntegers) :
    ofLine now (Json.compact .line r.toJson) = .ok r := by
  have reads : Json.read (Json.compact .line r.toJson) = .ok r.toJson := by
    rw [read_line finite, longNumeral?_toJson.mpr short]
  rw [ofLine, reads]
  simp only [ofJson_toJson now valid minutes]

/-- The line of a record is read as its value exactly when no integer is too long. -/
theorem read_line_iff {r : Record} (finite : r.IsFinite) :
    Json.read (Json.compact .line r.toJson) = .ok r.toJson ↔ r.HasShortIntegers := by
  rw [read_line finite, ← longNumeral?_toJson]
  cases Json.longNumeral? r.toJson <;> simp

/-! ## Samples -/

/-- A naive time, an offset, texts beyond ASCII, and a duration of ninety seconds. -/
def sample : Record where
  schemaVersion := 1
  loggedAt := ⟨1704067200000001, none, by decide, by decide⟩
  commitHash := "a1"
  branch := "main"
  repository := "shop"
  author := "Zoë"
  message := "say \"red\"\nthen green"
  phase := .green
  filesChanged := 2
  linesAdded := 10
  linesRemoved := 0
  occurredAt := ⟨1704067200000000, some (-12600), by decide, by decide⟩
  cycleSeconds := some (.finite false ⟨90 * twoTo 46, 1028, by decide, by decide, .inl (by decide)⟩)
  cycleStartedAt := some ⟨1704067110000000, some 0, by decide, by decide⟩
  abandonedCycle := false
  orphanGreen := false
  duplicate := false
  cycleStatus := .ok

/-- Logged by a clock half a minute east of UTC. -/
def offMinute : Record :=
  { sample with loggedAt := ⟨1704067200000000, some 30, by decide, by decide⟩ }

/-- A version of more digits than are converted. -/
def manyDigits : Record := { sample with schemaVersion := tenTo 4300 }

theorem digitCount_tenTo (k : Nat) : Json.digitCount ((tenTo k : Nat) : Int) = k + 1 := by
  have more : tenTo k < tenTo (k + 1) := Nat.pow_lt_pow_right (by decide) (Nat.lt_succ_self k)
  rw [Json.digitCount, Int.natAbs_natCast, Numeral.length_decimalDigits (Nat.le_refl _) more]

theorem manyDigits_not_short : ¬manyDigits.HasShortIntegers := by
  intro short
  have least : Json.digitCount ((tenTo 4300 : Nat) : Int) ≤ Json.digitLimit :=
    short _ List.mem_cons_self
  rw [digitCount_tenTo] at least
  exact absurd least (by decide)

end Record

end RedGreen
