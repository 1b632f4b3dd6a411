import RedGreen.Proofs.Journal.Reading

/-!
# How a journal grows

A journal grows by records that are appended and by bytes that others add to its end.  What was
there stays in front, and each appended record is read back at its place, once, whatever stands
around it.
-/

namespace RedGreen

/-- A record that its line keeps: accepted by the checks, of a finite duration, with times on whole
minutes from UTC and integers that the reader converts. -/
structure Record.Lasts (r : Record) : Prop where
  valid : r.IsValid
  finite : r.IsFinite
  minutes : r.OnMinutes
  short : r.HasShortIntegers

/-! ## One step -/

namespace Disk.File

/-- Bytes can be added to the file. -/
def IsWritable (f : File) : Prop :=
  f.blocked = false ∧ (f.node = .missing ∨ ∃ content, f.node = .regular content)

/-- The file with bytes added to its end. -/
def extendedBy (f : File) (more : Bytes) : File := { f with node := .regular (f.bytes ++ more) }

theorem visibleNode_extendedBy {f : File} (writable : f.IsWritable) (more : Bytes) :
    (f.extendedBy more).visibleNode = .regular (f.bytes ++ more) := by
  rw [visibleNode, extendedBy, writable.1]
  rfl

theorem bytes_extendedBy {f : File} (writable : f.IsWritable) (more : Bytes) :
    (f.extendedBy more).bytes = f.bytes ++ more := by
  rw [bytes, visibleNode_extendedBy writable]

theorem extend_eq_ok {f g : File} {more : Bytes} (extended : f.extend more = .ok g) :
    f.IsWritable ∧ g = f.extendedBy more := by
  obtain ⟨directory, name, node, blocked, held⟩ := f
  cases blocked with
  | true => cases node <;> cases extended
  | false =>
    cases node with
    | missing =>
      cases extended
      exact ⟨⟨rfl, .inl rfl⟩, rfl⟩
    | regular content =>
      cases extended
      exact ⟨⟨rfl, .inr ⟨content, rfl⟩⟩, rfl⟩
    | directory | fullDevice => cases extended

end Disk.File

namespace Journal

/-- A record is appended exactly when it can be encoded and the file can be written, and then one
entry is added to the end of the file. -/
theorem append_eq_ok_iff {f g : Disk.File} {r : Record} :
    append f r = .ok g ↔ r.IsUnicode ∧ f.IsWritable ∧
      g = f.extendedBy (entry f.bytes (Json.compact .line r.toJson)) := by
  constructor
  · intro appended
    unfold append at appended
    cases written : r.toLine with
    | error e =>
      rw [written] at appended
      cases appended
    | ok line =>
      obtain ⟨unicode, rfl⟩ := Record.toLine_eq_ok written
      rw [written] at appended
      refine ⟨unicode, ?_⟩
      obtain ⟨directory, name, node, blocked, held⟩ := f
      cases blocked with
      | true => cases appended
      | false =>
        cases node with
        | missing =>
          cases appended
          exact ⟨⟨rfl, .inl rfl⟩, rfl⟩
        | regular content =>
          cases appended
          exact ⟨⟨rfl, .inr ⟨content, rfl⟩⟩, rfl⟩
        | directory | fullDevice => cases appended
  · rintro ⟨unicode, writable, rfl⟩
    rw [append, Record.toLine_of_isUnicode unicode]
    obtain ⟨directory, name, node, blocked, held⟩ := f
    obtain ⟨rfl, rfl | ⟨content, rfl⟩⟩ := writable
    · rfl
    · rfl

theorem append_entry_ne (content : Bytes) (line : Text) :
    content ++ entry content line ≠ content := by
  intro same
  have empty := List.self_eq_append_right.mp same.symm
  rw [entry, List.append_eq_nil_iff] at empty
  cases empty.2

/-! ## Runs -/

/-- What makes a journal grow. -/
inductive Growth where
  | record (r : Record)
  /-- Bytes that someone else adds to the end. -/
  | foreign (bytes : Bytes)

namespace Growth

def perform (f : Disk.File) : Growth → Option Disk.File
  | .record r => (append f r).toOption
  | .foreign bytes => (f.extend bytes).toOption

def record? : Growth → Option Record
  | .record r => some r
  | .foreign _ => none

end Growth

/-- The journal after a run, when every step of it succeeds. -/
def grow (f : Disk.File) (steps : List Growth) : Option Disk.File := steps.foldlM Growth.perform f

/-- What a run is read back as, when `tail` stands behind the last record: the records in the
foreign bytes between two appended records, and each appended record at its place. -/
def readBack (now : DateTime) (tail : Bytes) : List Growth → Except LineError (List Record)
  | [] => recordsIn now tail
  | .foreign bytes :: steps => readBack now (tail ++ bytes) steps
  | .record r :: steps => do
    let before ← recordsIn now tail
    let after ← readBack now [] steps
    pure (before ++ r :: after)

theorem isClosed_entry {r : Record} (unicode : r.IsUnicode) (content : Bytes) :
    IsClosed (content ++ entry content (Json.compact .line r.toJson)) := by
  intro more
  have alone := lines_entry unicode content []
  rw [List.append_nil, lines_nil] at alone
  rw [lines_entry unicode, alone, List.append_assoc]
  rfl

theorem recordsIn_append {front : Bytes} (closed : IsClosed front) (now : DateTime) (back : Bytes) :
    recordsIn now (front ++ back) = (do
      let old ← recordsIn now front
      let new ← recordsIn now back
      pure (old ++ new)) := by
  -- A closed content is cut from what follows before its lines are read.
  rw [recordsIn, closed, recordsOfLines_append]
  rfl

/-- A line is read as its record, or passed over when an integer in it is too long. -/
theorem recordOfLine_line {r : Record} (valid : r.IsValid) (finite : r.IsFinite)
    (minutes : r.OnMinutes) (now : DateTime) :
    recordOfLine now (Json.compact .line r.toJson) =
      .ok (if r.HasShortIntegers then some r else none) := by
  by_cases short : r.HasShortIntegers
  · rw [recordOfLine, Record.ofLine_line now valid finite minutes short, if_pos short]
  -- The line is well-formed JSON, and still the reader gives up at the integer.
  · have long : Json.longNumeral? r.toJson ≠ none := fun none =>
      short (Record.longNumeral?_toJson.mp none)
    obtain ⟨n, long⟩ := Option.ne_none_iff_exists'.mp long
    have failed : Record.ofLine now (Json.compact .line r.toJson) =
        .error (.json (.tooManyDigits n)) := by
      rw [Record.ofLine, Record.read_line finite, long]
    rw [recordOfLine, failed, if_neg short]

/-- An entry adds its record, unless an integer in it is too long to be read. -/
theorem recordsIn_entry {r : Record} (valid : r.IsValid) (finite : r.IsFinite)
    (minutes : r.OnMinutes) (unicode : r.IsUnicode) (now : DateTime) (content : Bytes) :
    recordsIn now (content ++ entry content (Json.compact .line r.toJson)) =
      (· ++ [r].filter fun r => decide r.HasShortIntegers) <$> recordsIn now content := by
  have alone := lines_entry unicode content []
  rw [List.append_nil, lines_nil] at alone
  rw [recordsIn, alone, recordsOfLines_append, recordsOfLines,
    recordOfLine_line valid finite minutes, recordsIn]
  cases recordsOfLines now (lines content) with
  | error e => rfl
  | ok rs =>
    by_cases short : r.HasShortIntegers <;> simp [short, recordsOfLines] <;> rfl

theorem recordsIn_entry_of_lasts {r : Record} (lasts : r.Lasts) (unicode : r.IsUnicode)
    (now : DateTime) (content : Bytes) :
    recordsIn now (content ++ entry content (Json.compact .line r.toJson)) =
      (· ++ [r]) <$> recordsIn now content := by
  have kept : ([r].filter fun r => decide r.HasShortIntegers) = [r] := by
    simp [lasts.short]
  rw [recordsIn_entry lasts.valid lasts.finite lasts.minutes unicode, kept]

theorem perform_record {f g : Disk.File} {r : Record}
    (performed : Growth.perform f (.record r) = some g) : append f r = .ok g := by
  rw [Growth.perform] at performed
  cases appended : append f r with
  | error e =>
    rw [appended] at performed
    cases performed
  | ok h =>
    rw [appended] at performed
    cases performed
    rfl

theorem perform_foreign {f g : Disk.File} {bytes : Bytes}
    (performed : Growth.perform f (.foreign bytes) = some g) : f.extend bytes = .ok g := by
  rw [Growth.perform] at performed
  cases extended : f.extend bytes with
  | error e =>
    rw [extended] at performed
    cases performed
  | ok h =>
    rw [extended] at performed
    cases performed
    rfl

/-- Every step adds bytes to the end and leaves a file that can be read. -/
theorem perform_extends {f g : Disk.File} {step : Growth}
    (performed : Growth.perform f step = some g) :
    f.IsWritable ∧ ∃ more, g = f.extendedBy more := by
  cases step with
  | record r =>
    obtain ⟨_, writable, rfl⟩ := append_eq_ok_iff.mp (perform_record performed)
    exact ⟨writable, _, rfl⟩
  | foreign bytes =>
    obtain ⟨writable, rfl⟩ := Disk.File.extend_eq_ok (perform_foreign performed)
    exact ⟨writable, _, rfl⟩

theorem grow_cons {f g : Disk.File} {step : Growth} {steps : List Growth}
    (grown : grow f (step :: steps) = some g) :
    ∃ h, Growth.perform f step = some h ∧ grow h steps = some g := by
  rw [grow, List.foldlM_cons] at grown
  exact Option.bind_eq_some_iff.mp grown

theorem bytes_prefix_grow {f g : Disk.File} {steps : List Growth} (grown : grow f steps = some g) :
    f.bytes <+: g.bytes := by
  induction steps generalizing f with
  | nil =>
    cases grown
    exact List.prefix_rfl
  | cons step steps ih =>
    obtain ⟨h, performed, rest⟩ := grow_cons grown
    obtain ⟨writable, more, rfl⟩ := perform_extends performed
    have first : f.bytes <+: (f.extendedBy more).bytes := by
      rw [Disk.File.bytes_extendedBy writable]
      exact List.prefix_append _ _
    exact first.trans (ih rest)

theorem readable_grow {f g : Disk.File} {steps : List Growth} (grown : grow f steps = some g)
    (readable : f.visibleNode ≠ .directory) : g.visibleNode ≠ .directory := by
  induction steps generalizing f with
  | nil =>
    cases grown
    exact readable
  | cons step steps ih =>
    obtain ⟨h, performed, rest⟩ := grow_cons grown
    obtain ⟨writable, more, rfl⟩ := perform_extends performed
    refine ih rest ?_
    rw [Disk.File.visibleNode_extendedBy writable]
    exact nofun

/-- The invariant of a run: what stands up to the last appended record is a closed content, whose
records no later step changes. -/
theorem recordsIn_grow {f g : Disk.File} {steps : List Growth} (grown : grow f steps = some g)
    (lasts : ∀ r, .record r ∈ steps → r.Lasts) (now : DateTime) {front tail : Bytes}
    (closed : IsClosed front) (here : f.bytes = front ++ tail) :
    recordsIn now g.bytes = (do
      let old ← recordsIn now front
      let new ← readBack now tail steps
      pure (old ++ new)) := by
  -- Foreign bytes lengthen the tail; an append closes it and makes it part of the front.
  induction steps generalizing f front tail with
  | nil =>
    cases grown
    rw [here, recordsIn_append closed]
    rfl
  | cons step steps ih =>
    obtain ⟨h, performed, rest⟩ := grow_cons grown
    have later : ∀ r, .record r ∈ steps → r.Lasts := fun r mem =>
      lasts r (List.mem_cons_of_mem step mem)
    cases step with
    | foreign bytes =>
      obtain ⟨writable, rfl⟩ := Disk.File.extend_eq_ok (perform_foreign performed)
      refine ih rest later closed ?_
      rw [Disk.File.bytes_extendedBy writable, here, List.append_assoc]
    | record r =>
      obtain ⟨unicode, writable, rfl⟩ := append_eq_ok_iff.mp (perform_record performed)
      have lasting : r.Lasts := lasts r List.mem_cons_self
      -- The front is now the whole content, and the next tail is empty.
      have bytes := Disk.File.bytes_extendedBy writable
        (entry f.bytes (Json.compact .line r.toJson))
      rw [ih rest later (isClosed_entry unicode f.bytes) (by rw [bytes, List.append_nil]),
        recordsIn_entry_of_lasts lasting unicode, here, recordsIn_append closed, readBack]
      cases recordsIn now front with
      | error e => rfl
      | ok old =>
        cases recordsIn now tail with
        | error e => rfl
        | ok before =>
          cases readBack now [] steps with
          | error e => rfl
          | ok after =>
            show Except.ok (old ++ before ++ [r] ++ after) =
              Except.ok (old ++ (before ++ r :: after))
            simp

theorem records_grow {f g : Disk.File} {steps : List Growth} (grown : grow f steps = some g)
    (readable : f.visibleNode ≠ .directory) (lasts : ∀ r, .record r ∈ steps → r.Lasts)
    (now : DateTime) :
    records now g = (readBack now f.bytes steps).mapError .line := by
  rw [records_eq now (readable_grow grown readable),
    recordsIn_grow grown lasts now isClosed_nil (List.nil_append _).symm, recordsIn_nil]
  cases readBack now f.bytes steps <;> rfl

/-- Every appended record is read back, in the order in which they were appended. -/
theorem appended_sublist {now : DateTime} {tail : Bytes} {steps : List Growth} {rs : List Record}
    (read : readBack now tail steps = .ok rs) : (steps.filterMap Growth.record?).Sublist rs := by
  induction steps generalizing tail rs with
  | nil => exact List.nil_sublist rs
  | cons step steps ih =>
    cases step with
    | foreign bytes => exact ih read
    | record r =>
      rw [readBack] at read
      cases front : recordsIn now tail with
      | error e =>
        rw [front] at read
        cases read
      | ok before =>
        cases back : readBack now [] steps with
        | error e =>
          rw [front, back] at read
          cases read
        | ok after =>
          rw [front, back] at read
          cases read
          exact ((ih back).cons_cons r).trans (List.sublist_append_right before (r :: after))

/-! ## The law of appending and reading -/

theorem records_append {f g : Disk.File} {r : Record} (appended : append f r = .ok g)
    (lasts : r.Lasts) {now : DateTime} {rs : List Record} (before : records now f = .ok rs) :
    records now g = .ok (rs ++ [r]) := by
  obtain ⟨unicode, writable, rfl⟩ := append_eq_ok_iff.mp appended
  have old : recordsIn now f.bytes = .ok rs := records_eq_ok before
  have readable : (f.extendedBy (entry f.bytes (Json.compact .line r.toJson))).visibleNode ≠
      .directory := by
    rw [Disk.File.visibleNode_extendedBy writable]
    exact nofun
  rw [records_eq now readable, Disk.File.bytes_extendedBy writable,
    recordsIn_entry_of_lasts lasts unicode, old]
  rfl

theorem records_later {f : Disk.File} {now : DateTime} {rs : List Record} (later : DateTime)
    (read : records now f = .ok rs) :
    ∃ ss, records later f = .ok ss ∧ List.Forall₂ (Record.SameButClock now later) rs ss := by
  obtain ⟨ss, again, same⟩ := recordsOfLines_later later (records_eq_ok read)
  refine ⟨ss, ?_, same⟩
  rw [records_eq later (readable_of_records read), recordsIn, again]
  rfl

theorem content?_append {f g : Disk.File} {r : Record} (appended : append f r = .ok g) :
    ∃ line, r.toLine = .ok line ∧ g.content? = .ok (some (f.bytes ++
      (if f.bytes = [] ∨ f.bytes.getLast? = some lineFeed then [] else [lineFeed]) ++
      Utf8.encode line ++ [lineFeed])) := by
  obtain ⟨unicode, writable, rfl⟩ := append_eq_ok_iff.mp appended
  refine ⟨_, Record.toLine_of_isUnicode unicode, ?_⟩
  rw [Disk.File.content?, Disk.File.visibleNode_extendedBy writable, entry, ← closing_eq]
  simp only [List.append_assoc]

/-- An append adds one line behind the old content, closing it first when it is torn, and the record
is read behind the old ones; along a run the old content stays in front, and the journal is read as
the foreign bytes between the appended records and each of these at its place. -/
theorem append_then_read :
    (∀ f g r, append f r = .ok g →
      (∃ line, r.toLine = .ok line ∧ g.content? = .ok (some (f.bytes ++
        (if f.bytes = [] ∨ f.bytes.getLast? = some lineFeed then [] else [lineFeed]) ++
        Utf8.encode line ++ [lineFeed]))) ∧
      (r.Lasts → ∀ now rs, records now f = .ok rs →
        records now g = .ok (rs ++ [r]) ∧
        ∀ later, ∃ ss, records later g = .ok (ss ++ [r]) ∧
          List.Forall₂ (Record.SameButClock now later) rs ss)) ∧
    (∀ f g steps, grow f steps = some g →
      f.bytes <+: g.bytes ∧
      (f.visibleNode ≠ .directory → (∀ r, .record r ∈ steps → r.Lasts) → ∀ now,
        records now g = (readBack now f.bytes steps).mapError .line ∧
        ∀ rs, records now g = .ok rs → (steps.filterMap Growth.record?).Sublist rs)) := by
  refine ⟨fun f g r appended => ⟨content?_append appended, fun lasts now rs before =>
    ⟨records_append appended lasts before, fun later => ?_⟩⟩,
    fun f g steps grown => ⟨bytes_prefix_grow grown, fun readable lasts now => ?_⟩⟩
  · obtain ⟨ss, again, same⟩ := records_later later before
    exact ⟨ss, records_append appended lasts again, same⟩
  · have returned := records_grow grown readable lasts now
    refine ⟨returned, fun rs read => ?_⟩
    -- A journal that could be read was read as the run tells.
    have back : readBack now f.bytes steps = .ok rs := ok_of_mapError (returned ▸ read)
    exact appended_sublist back

/-- A journal that ends in the middle of a character. -/
def torn : Disk.File := { Disk.File.fresh "logs" "cycles.jsonl" with node := .regular [0x7b, 0xe2] }

theorem append_then_read_torn : ∃ g h,
    (append torn Record.sample = .ok g ∧ Record.sample.Lasts ∧
      records Record.sample.loggedAt torn = .ok [] ∧
      records Record.sample.loggedAt g = .ok [Record.sample]) ∧
    (grow torn [.record Record.sample, .foreign [0x7b]] = some h ∧ torn.bytes <+: h.bytes ∧
      records Record.sample.loggedAt h = (readBack Record.sample.loggedAt torn.bytes
        [.record Record.sample, .foreign [0x7b]]).mapError .line) := by
  have unicode : Record.sample.IsUnicode := by decide +kernel
  have lasts : Record.sample.Lasts :=
    ⟨by decide +kernel, by decide +kernel, by decide +kernel, by decide +kernel⟩
  have empty : records Record.sample.loggedAt torn = .ok [] := by decide +kernel
  have appended := append_eq_ok_iff.mpr
    ⟨unicode, ⟨rfl, .inr ⟨_, rfl⟩⟩, Eq.refl (torn.extendedBy _)⟩
  have grown : grow torn [.record Record.sample, .foreign [0x7b]] =
      some ((torn.extendedBy (entry torn.bytes
        (Json.compact .line Record.sample.toJson))).extendedBy [0x7b]) := by
    rw [grow, List.foldlM_cons, Growth.perform, appended]
    rfl
  have read := (append_then_read.1 _ _ _ appended).2 lasts _ _ empty
  have law := append_then_read.2 _ _ _ grown
  have all : ∀ r, Growth.record r ∈ [Growth.record Record.sample, .foreign [0x7b]] → r.Lasts := by
    intro r mem
    rcases List.mem_pair.mp mem with same | other
    · cases same
      exact lasts
    · cases other
  have readable : torn.visibleNode ≠ .directory := nofun
  exact ⟨_, _, ⟨appended, lasts, empty, read.1⟩, grown, law.1, (law.2 readable all _).1⟩

/-- The seconds of an offset are not read back. -/
theorem append_then_read_fails : ∃ f g, Record.offMinute.IsValid ∧ Record.offMinute.IsFinite ∧
    append f Record.offMinute = .ok g ∧ records Record.offMinute.loggedAt f = .ok [] ∧
    records Record.offMinute.loggedAt g ≠ .ok ([] ++ [Record.offMinute]) := by
  have unicode : Record.offMinute.IsUnicode := by decide +kernel
  have writable : (Disk.File.fresh "logs" "cycles.jsonl").IsWritable := ⟨rfl, .inl rfl⟩
  refine ⟨_, _, by decide +kernel, by decide +kernel,
    append_eq_ok_iff.mpr ⟨unicode, writable, rfl⟩, rfl, fun read => ?_⟩
  have found := records_eq_ok read
  have alone := lines_entry unicode [] []
  rw [List.append_nil, lines_nil] at alone
  rw [Disk.File.bytes_extendedBy writable] at found
  change recordsOfLines _ (lines ([] ++ entry [] _)) = _ at found
  rw [alone, List.nil_append, recordsOfLines_cons_of_ok Record.ofLine_offMinute] at found
  exact Record.offMinute_lost (List.cons.inj (Except.ok.inj found)).1.symm

end Journal

end RedGreen
