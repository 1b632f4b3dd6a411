import RedGreen.Proofs.Run.Extraction

/-!
# Sentinels of what cannot be read

A commit is put together from values that are read one by one.  A value that cannot be read, or is
not there, leaves a sentinel in its own field and nothing anywhere else: `Readings.commit` makes
each field from its own reading.

Two fields are an exception.  The names of the branch and of the author are checked when they have
been read, and a name that was read as nothing is no text, so that the whole commit is refused.
-/

namespace RedGreen

namespace Checked

/-- A value that is accepted when there are no issues. -/
def acceptUnless (issues : List Issue) (a : α) : Checked α :=
  match issues with
  | [] => .ok a
  | issue :: more => .error (.issues (issue :: more))

theorem accept_eq (a : α) : accept a = acceptUnless [] a := rfl

theorem map_acceptUnless (f : α → β) (issues : List Issue) (a : α) :
    f <$> acceptUnless issues a = acceptUnless issues (f a) := by
  cases issues <;> rfl

/-- Two checks one after the other have the issues of both. -/
theorem seq_acceptUnless (first second : List Issue) (f : α → β) (a : α) :
    acceptUnless first f <*> acceptUnless second a = acceptUnless (first ++ second) (f a) := by
  cases first with
  | nil => cases second <;> rfl
  | cons issue first =>
    cases second with
    | nil =>
      rw [List.append_nil]
      rfl
    | cons other second => rfl

end Checked

/-- What reading a value comes to. -/
inductive Reading (α : Type) where
  | failed
  | nothing
  | found (a : α)

namespace Reading

def getD (sentinel : α) : Reading α → α
  | .found a => a
  | .failed | .nothing => sentinel

/-- The name in a field: without blanks around it, and `unknown` for a blank one or none. -/
def name : Reading Text → Text
  | .found t => nameOrUnknown t
  | .failed | .nothing => unknownName

/-- A working tree is named after its directory. -/
def directoryName : Reading Text → Text
  | .found path => nameOrUnknown (PathName.ofText path).name
  | .failed | .nothing => unknownName

/-- What the check of a name has to say. -/
def refusals (field : Text) : Reading Text → List Issue
  | .nothing => [⟨.stringType, [.name field]⟩]
  | .failed | .found _ => []

theorem refusals_eq_nil_iff {field : Text} {x : Reading Text} :
    x.refusals field = [] ↔ x ≠ .nothing := by
  cases x <;> simp [refusals]

end Reading

/-! ## Readings of a commit -/

/-- What a commit changed; a count may be left out. -/
structure Changes where
  files : Option Nat
  added : Option Nat
  removed : Option Nat
  paths : List Text

def Changes.none : Changes := ⟨.none, .none, .none, []⟩

/-- What the values of a repository and of one of its commits are read as. -/
structure Readings where
  hash : Text
  detached : Bool
  branch : Reading Text
  author : Reading Text
  workingTree : Reading Text
  message : Option Text
  authored : Reading DateTime
  statistics : Reading Changes

namespace Readings

/-- The commit in which each field is what its own reading came to, or a sentinel. -/
def commit (now : DateTime) (x : Readings) : Commit :=
  let changes := x.statistics.getD .none
  { hash := x.hash
    branch := if x.detached then unknownName else x.branch.name
    message := x.message.getD []
    phase := none
    filesChanged := changes.files.getD changes.paths.length
    linesAdded := changes.added.getD 0
    linesRemoved := changes.removed.getD 0
    changedPaths := changes.paths
    author := x.author.name
    repository := x.workingTree.directoryName
    occurredAt := x.authored.getD now
    cycleDuration := none }

/-- The issues that the readings of names give rise to. -/
def refusals (x : Readings) : List Issue :=
  (if x.detached then [] else x.branch.refusals "branch") ++ x.author.refusals "author"

theorem refusals_eq_nil_iff {x : Readings} :
    x.refusals = [] ↔ (x.detached = false → x.branch ≠ .nothing) ∧ x.author ≠ .nothing := by
  rw [refusals, List.append_eq_nil_iff, Reading.refusals_eq_nil_iff]
  cases x.detached <;> simp [Reading.refusals_eq_nil_iff]

end Readings

/-! ## What values are read as -/

namespace Raw

inductive ReadsAs : Option Raw → Reading Text → Prop
  | failed : ReadsAs none .failed
  | nothing : ReadsAs (some (.value .null)) .nothing
  | text (t : Text) : ReadsAs (some (.value (.str t))) (.found t)

/-- A message may also be kept as bytes, in which U+FFFD stands for what is no UTF-8. -/
inductive SaysAs : Option Raw → Option Text → Prop
  | failed : SaysAs none none
  | text (t : Text) : SaysAs (some (.value (.str t))) (some t)
  | bytes (b : Bytes) : SaysAs (some (.bytes b)) (some (Utf8.decodeLossy b))

end Raw

/-- A time is read as its point in time in UTC; one that UTC cannot show is not read. -/
inductive DateTime.ReadsAs : Option DateTime → Reading DateTime → Prop
  | failed : ReadsAs none .failed
  | nothing : ReadsAs none .nothing
  | beyond {t : DateTime} (hidden : t.toUtc? = none) : ReadsAs (some t) .failed
  | found {t u : DateTime} (shown : t.toUtc? = some u) : ReadsAs (some t) (.found u)

namespace Changes

/-- The totals hold each count under its name. -/
structure InTotals (x : Changes) (totals : Json.Members) : Prop where
  files : totals.get? "files" = x.files.map fun n => .int n
  added : totals.get? "insertions" = x.added.map fun n => .int n
  removed : totals.get? "deletions" = x.removed.map fun n => .int n

/-- The counts of some totals, or no counts when these cannot be read. -/
inductive Counted (x : Changes) : Option Raw → Prop
  | failed (uncounted : x.InTotals []) : Counted x .none
  | found {totals : Json.Members} (counted : x.InTotals totals) :
    Counted x (some (.value (.obj totals)))

/-- The paths one by one, or as the names of an object, or no paths when they cannot be read. -/
inductive Listed (x : Changes) : Option Raw → Prop
  | failed (paths : x.paths = []) : Listed x .none
  | items : Listed x (some (.value (.arr (x.paths.map .str))))
  | names {files : Json.Members} (paths : x.paths = files.map Prod.fst) :
    Listed x (some (.value (.obj files)))

end Changes

inductive RawStatistics.ReadsAs : Option RawStatistics → Reading Changes → Prop
  | failed : ReadsAs none .failed
  | nothing : ReadsAs none .nothing
  | found {s : RawStatistics} {x : Changes} (counted : x.Counted s.total)
      (listed : x.Listed s.files) : ReadsAs (some s) (.found x)

structure RawCommit.ReadsAs (c : RawCommit) (x : Readings) : Prop where
  hash : c.hash = .ok (.value (.str x.hash))
  message : Raw.SaysAs c.message x.message
  author : Raw.ReadsAs c.author x.author
  authored : DateTime.ReadsAs c.authored x.authored
  statistics : RawStatistics.ReadsAs c.statistics x.statistics

/-- The commit of a repository is found, and its values are read independently of each other. -/
structure Repository.ReadsAs (r : Repository) (x : Readings) : Prop where
  detached : r.detached = x.detached
  branch : Raw.ReadsAs r.branch x.branch
  workingTree : Raw.ReadsAs r.workingTree x.workingTree
  commit : ∃ c, r.commit = .ok c ∧ c.ReadsAs x

namespace Extraction

/-! ## Field by field -/

/-- A name is checked on its own: it is in its field, or there is an issue with it. -/
theorem nameField_eq {raw : Option Raw} {x : Reading Text} (reads : Raw.ReadsAs raw x)
    (field : Text) : nameField field raw = Checked.acceptUnless (x.refusals field) x.name := by
  cases reads with
  | failed => rfl
  | nothing => rfl
  | text t => rfl

theorem repositoryName_eq {raw : Option Raw} {x : Reading Text} (reads : Raw.ReadsAs raw x) :
    nameOrUnknown (repositoryName raw) = x.directoryName := by
  cases reads with
  | failed => decide
  | nothing => decide
  | text t =>
    cases t with
    | nil => decide
    | cons c t => rfl

theorem message_eq {raw : Option Raw} {message : Option Text} (reads : Raw.SaysAs raw message) :
    (raw.map messageText).getD [] = message.getD [] := by
  cases reads with
  | failed => rfl
  | text t => rfl
  | bytes b => rfl

/-- The time of a commit, or the clock, stands in UTC. -/
theorem authored_eq {authored : Option DateTime} {x : Reading DateTime} {now : DateTime}
    (reads : DateTime.ReadsAs authored x) (clock : now.IsUtc) :
    ((authored.bind DateTime.toUtc?).getD now).toUtc? = some (x.getD now) := by
  cases reads with
  | failed => exact clock.toUtc?
  | nothing => exact clock.toUtc?
  | beyond hidden =>
    rw [Option.bind_some, hidden]
    exact clock.toUtc?
  | found shown =>
    rw [Option.bind_some, shown]
    exact (DateTime.isUtc_of_toUtc? shown).toUtc?

theorem total_eq {totals : Json.Members} {name : Text} {count : Option Nat}
    (found : totals.get? name = count.map fun n => .int n) (default : Nat) :
    total totals name default = .ok (.int (count.getD default)) := by
  rw [total, found]
  cases count <;> rfl

theorem pathsOf_eq {x : Changes} {files : Option Raw} (listed : x.Listed files) :
    pathsOf files = x.paths := by
  cases listed with
  | failed paths =>
    rw [paths]
    rfl
  | items =>
    show (x.paths.map .str).map textOfValue = x.paths
    simp [Function.comp_def, textOfValue]
  | @names members paths =>
    show (members.map fun m => Json.str m.1).map textOfValue = x.paths
    simp [paths, Function.comp_def, textOfValue]

theorem totalsOf_eq {x : Changes} {raw : Option Raw} (counted : x.Counted raw) :
    x.InTotals (totalsOf raw) := by
  cases counted with
  | failed uncounted => exact uncounted
  | found counted => exact counted

theorem statistics_eq {s : Option RawStatistics} {x : Reading Changes}
    (reads : RawStatistics.ReadsAs s x) :
    (x.getD .none).InTotals (totalsOf (s.bind RawStatistics.total)) ∧
      pathsOf (s.bind RawStatistics.files) = (x.getD .none).paths := by
  cases reads with
  | failed => exact ⟨⟨rfl, rfl, rfl⟩, rfl⟩
  | nothing => exact ⟨⟨rfl, rfl, rfl⟩, rfl⟩
  | found counted listed => exact ⟨totalsOf_eq counted, pathsOf_eq listed⟩

theorem count_under (n : Nat) (field : Text) :
    (Field.count (.int n)).under (.name field) = Checked.acceptUnless [] n := by
  have least : ((0 : Nat) : Int) ≤ n := Int.natCast_nonneg n
  rw [Field.count, Field.intFrom]
  show ((if ((0 : Nat) : Int) ≤ n then Checked.accept (n : Int)
    else .reject (.belowLeast 0)).map Int.toNat).under (.name field) = _
  rw [if_pos least]
  rfl

theorem nonEmptyText_under {t : Text} (named : t ≠ []) (encodable : t.IsScalar) (field : Text) :
    ((Raw.value (.str t)).text Field.nonEmptyText).under (.name field) =
      Checked.acceptUnless [] t := by
  rw [Raw.text, Field.nonEmptyText_eq_ok_iff.mpr ⟨rfl, encodable, named⟩]
  rfl

/-- A commit is what its readings say, field by field, unless the branch that is checked out or the
author is read as nothing; then it is refused, with one issue for each of the two. -/
theorem extract_eq_readings {now : DateTime} {r : Repository} {x : Readings} (reference : Text)
    (reads : r.ReadsAs x) (named : x.hash ≠ []) (encodable : x.hash.IsScalar)
    (clock : now.IsUtc) :
    (x.refusals = [] ↔ (x.detached = false → x.branch ≠ .nothing) ∧ x.author ≠ .nothing) ∧
    extract now r reference =
      if x.refusals = [] then .ok (x.commit now) else .error (.rejected (.issues x.refusals)) := by
  refine ⟨x.refusals_eq_nil_iff, ?_⟩
  obtain ⟨c, found, hash, message, author, authored, statistics⟩ := reads.commit
  have resolved : resolve r reference = .ok (c, .value (.str x.hash)) := by
    rw [resolve, found]
    dsimp only
    rw [hash]
  obtain ⟨counted, listed⟩ := statistics_eq statistics
  have branch : nameField "branch" (if r.detached then none else r.branch) =
      Checked.acceptUnless (if x.detached then [] else x.branch.refusals "branch")
        (if x.detached then unknownName else x.branch.name) := by
    rw [reads.detached]
    cases x.detached with
    | false => exact nameField_eq reads.branch "branch"
    | true => rfl
  simp only [extract, bind, Except.bind, resolved, listed, total_eq counted.files,
    total_eq counted.added, total_eq counted.removed, branch, count_under, nameField_eq author,
    nonEmptyText_under named encodable, authored_eq authored clock, message_eq message,
    repositoryName_eq reads.workingTree, Checked.accept_eq, Checked.map_acceptUnless,
    Checked.seq_acceptUnless, List.nil_append, List.append_nil]
  -- The issues of the branch come first, then those of the author; without any, all fields are set.
  rw [← Readings.refusals]
  cases x.refusals <;> rfl

/-- A commit of which the branch and the time cannot be read, the working tree is not there, and the
counts are given in part. -/
def patchyReadings (author : Reading Text) : Readings :=
  { hash := "abc"
    detached := false
    branch := .failed
    author := author
    workingTree := .nothing
    message := some "feat: x"
    authored := .failed
    statistics := .found ⟨none, some 3, none, ["src/a.py", "b.py"]⟩ }

def patchyRepository (author : Option Raw) : Repository :=
  { detached := false
    branch := none
    workingTree := some (.value .null)
    commit := .ok
      { hash := .ok (.value (.str "abc"))
        message := some (.value (.str "feat: x"))
        author := author
        authored := none
        statistics := some
          { total := some (.value (.obj [("insertions", .int 3)]))
            files := some (.value (.arr [.str "src/a.py", .str "b.py"])) } } }

theorem patchyRepository_reads {raw : Option Raw} {author : Reading Text}
    (reads : Raw.ReadsAs raw author) : (patchyRepository raw).ReadsAs (patchyReadings author) where
  detached := rfl
  branch := .failed
  workingTree := .nothing
  commit := ⟨_, rfl, rfl, .text _, reads, .failed, .found (.found ⟨rfl, rfl, rfl⟩) .items⟩

theorem extract_eq_readings_patchy :
    extract (.minute 0) (patchyRepository (some (.value (.str " Ann ")))) "HEAD" =
      .ok ⟨"abc", "unknown", "feat: x", none, 2, 3, 0, ["src/a.py", "b.py"], "Ann", "unknown",
        .minute 0, none⟩ := by
  have reads := patchyRepository_reads (.text " Ann ")
  have clock : (DateTime.minute 0).IsUtc := rfl
  rw [(extract_eq_readings "HEAD" reads (by decide) (by decide) clock).2]
  rfl

/-- An author that is read as nothing costs the whole commit, though all else has its sentinel. -/
theorem nothing_is_refused :
    (patchyRepository (some (.value .null))).ReadsAs (patchyReadings .nothing) ∧
    extract (.minute 0) (patchyRepository (some (.value .null))) "HEAD" =
      .error (.rejected (.issues [⟨.stringType, [.name "author"]⟩])) :=
  ⟨patchyRepository_reads .nothing, rfl⟩

end Extraction

end RedGreen
