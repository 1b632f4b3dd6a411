import RedGreen.Proofs.Cycle.Entries
import RedGreen.Proofs.Journal.Reading
import RedGreen.Proofs.Json.Depth
import RedGreen.Proofs.Validation.Reports

/-!
# Lines that are passed over

A reader of a journal gets past every line that is no record, whether it is no JSON or does not fit
the fields of a record, and gives the records of all other lines.  Only a line that is nested too
deeply for the JSON reader is not passed over: it hides all records, in front of it and behind it.
-/

namespace RedGreen

/-- A line is passed over for whatever is wrong with it but its depth. -/
theorem Record.ofLine_ne_overflow (now : DateTime) (line : Text) :
    ofLine now line ≠ .error (.rejected .overflow) := by
  intro overflow
  rw [ofLine] at overflow
  split at overflow
  next => cases overflow
  next v _ =>
    split at overflow
    next => cases overflow
    next rejection rejected =>
      cases overflow
      exact reports_ofJson now v rejected

theorem Record.ofLine_tooDeep_iff {now : DateTime} {line : Text} :
    ofLine now line = .error (.json .tooDeep) ↔ Json.read line = .error .tooDeep := by
  constructor
  · intro deep
    rw [ofLine] at deep
    split at deep
    next read =>
      cases deep
      exact read
    next => split at deep <;> cases deep
  · intro deep
    rw [ofLine, deep]

namespace Journal

variable {now : DateTime} {line : Text} {ls : List Text}

theorem recordOfLine_of_tooDeep (deep : Json.read line = .error .tooDeep) :
    recordOfLine now line = .error (.json .tooDeep) := by
  rw [recordOfLine, Record.ofLine_tooDeep_iff.mpr deep]

theorem recordOfLine_of_readable (readable : Json.read line ≠ .error .tooDeep) :
    recordOfLine now line = .ok (Record.ofLine now line).toOption := by
  unfold recordOfLine
  split
  next read =>
    rw [read]
    rfl
  next deep => exact absurd (Record.ofLine_tooDeep_iff.mp deep) readable
  next overflow => exact absurd overflow (Record.ofLine_ne_overflow now line)
  next _ _ failed =>
    rw [failed]
    rfl

/-- The records of the lines that are records. -/
def parsed (now : DateTime) (ls : List Text) : List Record :=
  ls.filterMap fun line => (Record.ofLine now line).toOption

theorem recordsOfLines_of_readable (readable : ∀ line ∈ ls, Json.read line ≠ .error .tooDeep) :
    recordsOfLines now ls = .ok (parsed now ls) := by
  induction ls with
  | nil => rfl
  | cons line ls ih =>
    obtain ⟨here, later⟩ := List.forall_mem_cons.mp readable
    rw [recordsOfLines, recordOfLine_of_readable here, ih later, parsed, parsed,
      List.filterMap_cons]
    cases Record.ofLine now line <;> rfl

/-- One line that is too deep hides the records of all lines. -/
theorem recordsOfLines_of_tooDeep (deep : ∃ line ∈ ls, Json.read line = .error .tooDeep) :
    recordsOfLines now ls = .error (.json .tooDeep) := by
  induction ls with
  | nil =>
    obtain ⟨line, mem, _⟩ := deep
    cases mem
  | cons line ls ih =>
    rw [recordsOfLines]
    by_cases here : Json.read line = .error .tooDeep
    · rw [recordOfLine_of_tooDeep here]
    · rw [recordOfLine_of_readable here, ih]
      obtain ⟨other, mem, otherDeep⟩ := deep
      cases List.mem_cons.mp mem with
      | inl same => exact absurd (same ▸ otherDeep) here
      | inr later => exact ⟨other, later, otherDeep⟩

/-- Counting passes over the same lines as reading, and fails where reading does. -/
theorem countOfLines_eq (now : DateTime) (ls : List Text) :
    countOfLines now ls = (recordsOfLines now ls).map List.length := by
  induction ls with
  | nil => rfl
  | cons line ls ih =>
    rw [countOfLines, recordsOfLines, ih]
    cases recordOfLine now line with
    | error e => rfl
    | ok r =>
      cases recordsOfLines now ls with
      | error e => rfl
      | ok rs => simp [Except.map]

theorem count_eq (now : DateTime) (f : Disk.File) :
    count now f = (records now f).map List.length := by
  unfold count records
  cases f.content? with
  | error fault => rfl
  | ok content =>
    cases content with
    | none => rfl
    | some content =>
      dsimp only
      rw [countOfLines_eq]
      cases recordsOfLines now (lines content) <;> rfl

/-- The lines of a content are made of characters that can be encoded. -/
theorem isScalar_lines {content : Bytes} (mem : line ∈ lines content) : line.IsScalar := by
  have listed := (List.mem_filter.mp mem).1
  obtain ⟨piece, cut, rfl⟩ := List.mem_map.mp listed
  have within := (Text.madeOf_splitLines _).subset cut
  intro c at_c
  exact Utf8.isScalar_decodeLossy content c (within ((Text.trimBy_sublist _ piece).subset at_c))

/-! ## Files -/

/-- What a reader gives who finds these records: all of them, their number, or the last of them. -/
structure Gives (now : DateTime) (f : Disk.File) (rs : List Record) : Prop where
  all : read now f none = .ok rs
  number : count now f = .ok rs.length
  nothing : ∀ n ≤ 0, read now f (some n) = .ok []
  last : ∀ n > 0, ∃ front back, rs = front ++ back ∧ back.length = min n.toNat rs.length ∧
    read now f (some n) = .ok back

/-- A reader who fails in the same way whatever is asked. -/
structure Fails (now : DateTime) (f : Disk.File) (e : ReadError) : Prop where
  read : ∀ limit, read now f limit = .error e
  count : count now f = .error e

theorem gives_of_records {f : Disk.File} {rs : List Record} (found : records now f = .ok rs) :
    Gives now f rs where
  all := found
  number := by
    rw [count_eq, found]
    rfl
  nothing n least := by
    show (records now f).map (lastOf n) = .ok []
    rw [found]
    show Except.ok (lastOf n rs) = .ok []
    rw [lastOf, Int.toNat_of_nonpos least, Nat.sub_zero, List.drop_length]
  last n _ := by
    refine ⟨rs.take (rs.length - n.toNat), lastOf n rs, (List.take_append_drop _ _).symm, ?_, ?_⟩
    · rw [lastOf, List.length_drop]
      omega
    · show (records now f).map (lastOf n) = .ok (lastOf n rs)
      rw [found]
      rfl

theorem fails_of_records {f : Disk.File} {e : ReadError} (failed : records now f = .error e) :
    Fails now f e where
  read limit := by
    cases limit with
    | none => exact failed
    | some n =>
      show (records now f).map (lastOf n) = .error e
      rw [failed]
      rfl
  count := by
    rw [count_eq, failed]
    rfl

/-- Of a regular file, a reader gives the records of the lines that are records and passes over
all other lines, unless the JSON reader gives up on one of them, which opens too many containers. -/
theorem reading_passes_over (now : DateTime) {f : Disk.File} {content : Bytes}
    (regular : f.visibleNode = .regular content) :
    ∃ pieces ls, Text.MadeOf (Utf8.decodeLossy content) pieces ∧
      ls = (pieces.map Text.trim).filter (fun t => !t.isEmpty) ∧
      ((∀ line ∈ ls, Json.read line ≠ .error .tooDeep) → Gives now f (parsed now ls)) ∧
      ((∃ line ∈ ls, Json.read line = .error .tooDeep) →
        Fails now f (.line (.json .tooDeep))) ∧
      ∀ line ∈ ls, Json.read line = .error .tooDeep → Json.depthLimit < Json.openers line := by
  have found : records now f = (recordsOfLines now (lines content)).mapError .line := by
    rw [records_eq now (by rw [regular]; nofun), Disk.File.bytes, regular]
    rfl
  refine ⟨Text.splitLines (Utf8.decodeLossy content), lines content, Text.madeOf_splitLines _, rfl,
    ?_, ?_, ?_⟩
  · intro readable
    apply gives_of_records
    rw [found, recordsOfLines_of_readable readable]
    rfl
  · intro deep
    apply fails_of_records
    rw [found, recordsOfLines_of_tooDeep deep]
    rfl
  · intro line mem deep
    exact Json.openers_of_tooDeep (isScalar_lines mem) deep

/-! ## Two contents -/

/-- The line of a record with nothing but what has to be there. -/
def shortLine : Text :=
  "\x7b\"commit_hash\":\"a\",\"branch\":\"b\",\"phase\":\"RED\",\"occurred_at\":\"2024-01-01T00:00:00Z\"\x7d"

def shortRecord : Record where
  schemaVersion := 1
  loggedAt := .minute 0
  commitHash := "a"
  branch := "b"
  repository := "unknown"
  author := "unknown"
  message := []
  phase := .red
  filesChanged := 0
  linesAdded := 0
  linesRemoved := 0
  occurredAt := .minute 0
  cycleSeconds := none
  cycleStartedAt := none
  abandonedCycle := false
  orphanGreen := false
  duplicate := false
  cycleStatus := .ok

def fileWith (content : Bytes) : Disk.File :=
  { Disk.File.fresh "logs" "cycles.jsonl" with node := .regular content }

/-- A torn line in front of the line of a record. -/
def tornContent : Bytes := Utf8.encode "\x7b\"commit" ++ 13 :: 10 :: Utf8.encode shortLine

theorem reading_passes_over_torn :
    (fileWith tornContent).visibleNode = .regular tornContent ∧
      Gives (.minute 0) (fileWith tornContent) [shortRecord] := by
  have regular : (fileWith tornContent).visibleNode = .regular tornContent := rfl
  refine ⟨regular, ?_⟩
  obtain ⟨pieces, ls, made, listed, gives, _⟩ := reading_passes_over (.minute 0) regular
  rw [Text.madeOf_iff.mp made] at listed
  have two : ls = lines tornContent := listed
  have short : parsed (.minute 0) (lines tornContent) = [shortRecord] := by decide +kernel
  have shallow : ∀ line ∈ lines tornContent,
      Record.ofLine (.minute 0) line ≠ .error (.json .tooDeep) := by decide +kernel
  rw [← short, ← two]
  apply gives
  intro line mem deep
  exact shallow line (two ▸ mem) (Record.ofLine_tooDeep_iff.mpr deep)

/-- A line that opens one list more than can be nested, in front of the line of a record. -/
def deepContent : Bytes := List.replicate 986 0x5B ++ lineFeed :: Utf8.encode shortLine

/-- The record behind a line that is too deep is not found. -/
theorem deep_line_hides :
    (fileWith deepContent).visibleNode = .regular deepContent ∧
      parsed (.minute 0) (lines deepContent) = [shortRecord] ∧
      Fails (.minute 0) (fileWith deepContent) (.line (.json .tooDeep)) := by
  have failed : records (.minute 0) (fileWith deepContent) = .error (.line (.json .tooDeep)) := by
    decide +kernel
  exact ⟨rfl, by decide +kernel, fails_of_records failed⟩

end Journal

end RedGreen
