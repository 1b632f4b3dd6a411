import RedGreen.ChangedPath

/-!
# The grammar of paths

A path is read as its components, and it leads to production code unless a directory among them
holds tests or the last of them names a test file.  Both are described here without a matcher: how a
path falls into components, what its names are in small letters, and which are those of test files.
-/

namespace RedGreen

namespace Text

/-! ## Cutting -/

theorem splitOn_cons_self (sep : CodePoint) (t : Text) :
    splitOn sep (sep :: t) = [] :: splitOn sep t := by
  rw [splitOn, if_pos rfl]

/-- What stands in front of the first separator is the first piece. -/
theorem splitOn_cons_of_ne {sep c : CodePoint} (other : c ≠ sep) (t : Text) :
    ∃ piece pieces, splitOn sep t = piece :: pieces ∧
      splitOn sep (c :: t) = (c :: piece) :: pieces := by
  have first : ∃ piece pieces, splitOn sep t = piece :: pieces := by
    cases t with
    | nil => exact ⟨[], [], rfl⟩
    | cons d t =>
      rw [splitOn]
      split
      next => exact ⟨_, _, rfl⟩
      next => split <;> exact ⟨_, _, rfl⟩
  obtain ⟨piece, pieces, split⟩ := first
  refine ⟨piece, pieces, split, ?_⟩
  rw [splitOn, if_neg other, split]

theorem splitOn_of_absent {sep : CodePoint} {t : Text} (absent : sep ∉ t) :
    splitOn sep t = [t] := by
  induction t with
  | nil => rfl
  | cons c t ih =>
    rw [List.mem_cons, not_or] at absent
    rw [splitOn, if_neg (Ne.symm absent.1), ih absent.2]

theorem splitOn_append (sep : CodePoint) (s t : Text) :
    splitOn sep (s ++ sep :: t) = splitOn sep s ++ splitOn sep t := by
  induction s with
  | nil => exact splitOn_cons_self sep t
  | cons c s ih =>
    by_cases same : c = sep
    · subst same
      rw [List.cons_append, splitOn_cons_self, ih, splitOn_cons_self, List.cons_append]
    · obtain ⟨piece, pieces, split, grown⟩ := splitOn_cons_of_ne same s
      rw [split] at ih
      rw [List.cons_append, splitOn, if_neg same, ih, grown]
      rfl

theorem cut?_eq_some_iff {sep : CodePoint} {t front rest : Text} :
    cut? sep t = some (front, rest) ↔ t = front ++ sep :: rest ∧ sep ∉ front := by
  induction t generalizing front with
  | nil => simp [cut?]
  | cons c t ih =>
    rw [cut?]
    by_cases same : c = sep
    · subst same
      rw [if_pos rfl]
      cases front with
      | nil => simp [eq_comm]
      | cons d front =>
        constructor
        · rintro ⟨⟩
        · rintro ⟨⟨⟩, absent⟩
          exact absurd List.mem_cons_self absent
    · rw [if_neg same, Option.map_eq_some_iff]
      cases front with
      | nil =>
        constructor
        · rintro ⟨p, _, ⟨⟩⟩
        · rintro ⟨⟨⟩, _⟩
          exact absurd rfl same
      | cons d front =>
        rw [List.mem_cons, not_or, List.cons_append, List.cons.injEq]
        constructor
        · rintro ⟨⟨front', rest'⟩, found, ⟨⟩⟩
          obtain ⟨split, absent⟩ := ih.mp found
          exact ⟨⟨rfl, split⟩, Ne.symm same, absent⟩
        · rintro ⟨⟨rfl, split⟩, _, absent⟩
          exact ⟨(front, rest), ih.mpr ⟨split, absent⟩, rfl⟩

/-- The cut is at the last separator when there is none behind it. -/
theorem cutLast?_eq_some_iff {sep : CodePoint} {t front rest : Text} :
    cutLast? sep t = some (front, rest) ↔ t = front ++ sep :: rest ∧ sep ∉ rest := by
  rw [cutLast?, Option.map_eq_some_iff]
  constructor
  · rintro ⟨⟨a, b⟩, found, ⟨⟩⟩
    obtain ⟨split, absent⟩ := cut?_eq_some_iff.mp found
    refine ⟨?_, by rwa [List.mem_reverse]⟩
    rw [← List.reverse_reverse t, split]
    simp
  · rintro ⟨rfl, absent⟩
    refine ⟨(rest.reverse, front.reverse), cut?_eq_some_iff.mpr ⟨?_, ?_⟩, ?_⟩
    · simp
    · rwa [List.mem_reverse]
    · simp

end Text

namespace ChangedPath

/-! ## Components -/

/-- Both slashes separate. -/
def IsSeparator (c : CodePoint) : Prop := c = CodePoint.ofChar '/' ∨ c = CodePoint.ofChar '\\'

/-- A component has a character, and no separator. -/
def IsComponent (part : Text) : Prop := part ≠ [] ∧ ∀ c ∈ part, ¬IsSeparator c

/-- How a path is read as its components; what is empty between separators is none. -/
inductive Reads : Text → List Text → Prop where
  | nothing : Reads [] []
  | separator {c : CodePoint} {path : Text} {parts : List Text} (separates : IsSeparator c)
      (rest : Reads path parts) : Reads (c :: path) parts
  | last {part : Text} (component : IsComponent part) : Reads part [part]
  | component {part : Text} {c : CodePoint} {path : Text} {parts : List Text}
      (component : IsComponent part) (separates : IsSeparator c) (rest : Reads path parts) :
      Reads (part ++ c :: path) (part :: parts)

theorem components_append {c : CodePoint} (separates : IsSeparator c) (d p : Text) :
    components (d ++ c :: p) = components d ++ components p := by
  have slash : (if c = CodePoint.ofChar '\\' then CodePoint.ofChar '/' else c) =
      CodePoint.ofChar '/' := by
    rcases separates with rfl | rfl <;> rfl
  have replaced : Text.replaceEach '\\' '/' (d ++ c :: p) =
      Text.replaceEach '\\' '/' d ++ CodePoint.ofChar '/' :: Text.replaceEach '\\' '/' p := by
    rw [Text.replaceEach, List.map_append, List.map_cons, slash]
    rfl
  rw [components, replaced, Text.splitOn_append, List.filter_append]
  rfl

theorem components_of_isComponent {part : Text} (component : IsComponent part) :
    components part = [part] := by
  obtain ⟨nonempty, whole⟩ := component
  have kept : Text.replaceEach '\\' '/' part = part := by
    refine (List.map_congr_left fun c mem => if_neg ?_).trans (List.map_id' part)
    exact fun backslash => whole c mem (.inr backslash)
  have absent : CodePoint.ofChar '/' ∉ part := fun mem => whole _ mem (.inl rfl)
  rw [components, kept, Text.splitOn_of_absent absent]
  simpa using nonempty

theorem Reads.components_eq {path : Text} {parts : List Text} (reads : Reads path parts) :
    components path = parts := by
  induction reads with
  | nothing => rfl
  | @separator c path parts separates _ ih =>
    exact (components_append separates [] path).trans ih
  | last component => exact components_of_isComponent component
  | component component separates _ ih =>
    rw [components_append separates, components_of_isComponent component, ih]
    rfl

theorem IsComponent.cons {c : CodePoint} {part : Text} (other : ¬IsSeparator c)
    (whole : ∀ d ∈ part, ¬IsSeparator d) : IsComponent (c :: part) :=
  ⟨List.cons_ne_nil c part, List.forall_mem_cons.mpr ⟨other, whole⟩⟩

/-- Every path can be read. -/
theorem exists_reads (path : Text) : ∃ parts, Reads path parts := by
  induction path with
  | nil => exact ⟨[], .nothing⟩
  | cons c path ih =>
    obtain ⟨parts, reads⟩ := ih
    by_cases separates : IsSeparator c
    · exact ⟨parts, .separator separates reads⟩
    · -- The character begins a component, or is put in front of the first one.
      have alone : IsComponent [c] := .cons separates (List.forall_mem_nil _)
      cases reads with
      | nothing => exact ⟨[[c]], .last alone⟩
      | separator next rest => exact ⟨_, Reads.component alone next rest⟩
      | last component => exact ⟨_, .last (.cons separates component.2)⟩
      | component component next rest =>
        exact ⟨_, .component (.cons separates component.2) next rest⟩

theorem reads_iff {path : Text} {parts : List Text} :
    Reads path parts ↔ components path = parts := by
  refine ⟨Reads.components_eq, ?_⟩
  rintro rfl
  obtain ⟨parts, reads⟩ := exists_reads path
  rwa [reads.components_eq]

/-! ## Names of test files -/

/-- What is named like a test file: the configuration of tests, anything behind a leading mark, and
a stem with a mark at its end, a point and an extension without points. -/
inductive NamesTests : Text → Prop where
  | config : NamesTests "conftest.py"
  | leading {rest : Text} (nonempty : rest ≠ []) : NamesTests (("test_" : Text) ++ rest)
  | ending {stem mark extension : Text} (nonempty : stem ≠ [])
      (known : mark ∈ (["_test", "Test", "Tests", ".test", ".spec"] : List Text))
      (extended : extension ≠ []) (pointless : CodePoint.ofChar '.' ∉ extension) :
      NamesTests (stem ++ mark ++ CodePoint.ofChar '.' :: extension)

theorem hasLineFeed_append_eq_false {s t : Text} :
    hasLineFeed (s ++ t) = false ↔ hasLineFeed s = false ∧ hasLineFeed t = false := by
  rw [hasLineFeed, List.any_append, Bool.or_eq_false_iff]
  rfl

theorem dropFinalLineFeed_eq {t : Text} (oneLine : hasLineFeed t = false) :
    dropFinalLineFeed t = t := by
  rw [dropFinalLineFeed]
  cases dropped : Text.dropTail? [CodePoint.ofNat 0x0A] t with
  | none => rfl
  | some front =>
    rw [Text.dropTail?_eq_some_iff.mp dropped, hasLineFeed_append_eq_false] at oneLine
    cases oneLine.2

theorem isOneLine_iff {t : Text} (oneLine : hasLineFeed t = false) :
    isOneLine t = true ↔ t ≠ [] := by
  rw [isOneLine, oneLine, Bool.not_false, Bool.and_true, Bool.not_eq_true',
    List.isEmpty_eq_false_iff]

theorem hasTestEnding_iff {name : Text} (oneLine : hasLineFeed name = false) :
    hasTestEnding name = true ↔ ∃ stem mark extension : Text, stem ≠ [] ∧ mark ∈ stemEndings ∧
      extension ≠ [] ∧ CodePoint.ofChar '.' ∉ extension ∧
      name = stem ++ mark ++ CodePoint.ofChar '.' :: extension := by
  rw [hasTestEnding]
  constructor
  · intro marked
    cases cut : Text.cutLast? '.' name with
    | none =>
      rw [cut] at marked
      cases marked
    | some parts =>
      obtain ⟨front, extension⟩ := parts
      rw [cut] at marked
      dsimp only at marked
      obtain ⟨split, pointless⟩ := Text.cutLast?_eq_some_iff.mp cut
      rw [Bool.and_eq_true, List.any_eq_true] at marked
      obtain ⟨extended, mark, known, ended⟩ := marked
      split at ended
      next stem dropped =>
        rw [Text.dropTail?_eq_some_iff.mp dropped] at split
        have stemOneLine : hasLineFeed stem = false := by
          rw [split, hasLineFeed_append_eq_false, hasLineFeed_append_eq_false] at oneLine
          exact oneLine.1.1
        exact ⟨stem, mark, extension, (isOneLine_iff stemOneLine).mp ended, known,
          by simpa using extended, pointless, split⟩
      next => cases ended
  · rintro ⟨stem, mark, extension, nonempty, known, extended, pointless, split⟩
    rw [Text.cutLast?_eq_some_iff.mpr ⟨split, pointless⟩]
    dsimp only
    rw [split, hasLineFeed_append_eq_false, hasLineFeed_append_eq_false] at oneLine
    rw [Bool.and_eq_true, List.any_eq_true]
    refine ⟨by simpa using extended, mark, known, ?_⟩
    rw [Text.dropTail?_eq_some_iff.mpr rfl]
    exact (isOneLine_iff oneLine.1.1).mpr nonempty

theorem isTestFile_iff {name : Text} (oneLine : hasLineFeed name = false) :
    isTestFile name = true ↔ NamesTests name := by
  rw [isTestFile, Bool.or_eq_true, Bool.or_eq_true, hasTestEnding_iff oneLine,
    dropFinalLineFeed_eq oneLine, decide_eq_true_eq]
  constructor
  · rintro ((leads | ⟨stem, mark, extension, nonempty, known, extended, pointless, rfl⟩) | rfl)
    · split at leads
      next rest dropped =>
        have split := Text.dropLead?_eq_some_iff.mp dropped
        rw [split, hasLineFeed_append_eq_false] at oneLine
        rw [dropFinalLineFeed_eq oneLine.2] at leads
        rw [split]
        exact .leading ((isOneLine_iff oneLine.2).mp leads)
      next => cases leads
    · exact .ending nonempty known extended pointless
    · exact .config
  · intro named
    cases named with
    | config => exact .inr rfl
    | leading nonempty =>
      rw [hasLineFeed_append_eq_false] at oneLine
      refine .inl (.inl ?_)
      rw [Text.dropLead?_eq_some_iff.mpr rfl]
      dsimp only
      rw [dropFinalLineFeed_eq oneLine.2]
      exact (isOneLine_iff oneLine.2).mpr nonempty
    | ending nonempty known extended pointless =>
      exact .inl (.inr ⟨_, _, _, nonempty, known, extended, pointless, rfl⟩)

/-! ## Small letters -/

/-- What may stand for a character in small letters: ASCII is lowered as such, and what any other
character becomes is not all ASCII, except that the sign of Kelvin becomes a `k`. -/
def LowersTo (c : CodePoint) (piece : Text) : Prop :=
  if c.val < 0x80 then piece = [c.toLowerAscii]
  else piece = ("k" : Text) ∨ ∃ d ∈ piece, 0x80 ≤ d.val

/-- A text in small letters, one character after the other. -/
inductive Lowers : Text → Text → Prop where
  | nil : Lowers [] []
  | cons {c : CodePoint} {piece t lowered : Text} (first : LowersTo c piece)
      (rest : Lowers t lowered) : Lowers (c :: t) (piece ++ lowered)

theorem lowers_toLowerAscii (t : Text) : Lowers t t.toLowerAscii := by
  induction t with
  | nil => exact .nil
  | cons c t ih =>
    refine @Lowers.cons c [c.toLowerAscii] t _ ?_ ih
    rw [LowersTo]
    split
    next => rfl
    next large =>
      have same : c.toLowerAscii = c := if_neg (by omega)
      exact .inr ⟨c, by rw [same]; exact List.mem_cons_self, by omega⟩

theorem Lowers.eq_of_ascii {t lowered : Text} (lowers : Lowers t lowered)
    (ascii : ∀ c ∈ t, c.val < 0x80) : lowered = t.toLowerAscii := by
  induction lowers with
  | nil => rfl
  | cons first _ ih =>
    obtain ⟨small, ascii⟩ := List.forall_mem_cons.mp ascii
    rw [LowersTo, if_pos small] at first
    rw [first, ih ascii]
    rfl

theorem Lowers.ascii {t lowered : Text} (lowers : Lowers t lowered)
    (plain : ∀ d ∈ lowered, d.val < 0x80 ∧ d ≠ CodePoint.ofChar 'k') : ∀ c ∈ t, c.val < 0x80 := by
  induction lowers with
  | nil => exact List.forall_mem_nil _
  | cons first _ ih =>
    rw [List.forall_mem_append] at plain
    refine List.forall_mem_cons.mpr ⟨Nat.not_le.mp fun large => ?_, ih plain.2⟩
    rw [LowersTo, if_neg (Nat.not_lt.mpr large)] at first
    rcases first with rfl | ⟨d, mem, outside⟩
    · exact (plain.1 _ List.mem_cons_self).2 rfl
    · exact absurd (plain.1 d mem).1 (Nat.not_lt.mpr outside)

/-- What directories that hold tests are named in small letters. -/
def testNames : List Text := ["test", "tests", "testfixtures", "__tests__", "spec", "specs"]

/-- The names hold no `k` and nothing beyond ASCII, so it does not matter how that is lowered. -/
theorem isTestDirectory_iff {part lowered : Text} (lowers : Lowers part lowered) :
    isTestDirectory part = true ↔ lowered ∈ testNames := by
  have letters : ∀ name ∈ testNames, ∀ d ∈ name, d.val < 0x80 ∧ d ≠ CodePoint.ofChar 'k' := by
    decide
  have known : isTestDirectory part = true ↔ part.toLowerAscii ∈ testNames := by
    rw [isTestDirectory, Text.isOneOf, List.any_eq_true]
    simp only [decide_eq_true_eq, exists_eq_right]
    rfl
  rw [known]
  constructor
  · intro mem
    rwa [lowers.eq_of_ascii ((lowers_toLowerAscii part).ascii (letters _ mem))]
  · intro mem
    rwa [← lowers.eq_of_ascii (lowers.ascii (letters _ mem))]

/-! ## Production -/

/-- What keeps the components of a path from leading to production code. -/
def LeadToTests (lower : Text → Text) (parts : List Text) : Prop :=
  parts = [] ∨ (∃ directory ∈ parts.dropLast, lower directory ∈ testNames) ∨
    ∃ file ∈ parts.getLast?, NamesTests file

theorem Reads.subset {path : Text} {parts : List Text} (reads : Reads path parts) :
    ∀ part ∈ parts, part ⊆ path := by
  induction reads with
  | nothing => exact List.forall_mem_nil _
  | separator _ _ ih => exact fun part mem => List.subset_cons_of_subset _ (ih part mem)
  | last => exact List.forall_mem_singleton.mpr (List.Subset.refl _)
  | component _ _ _ ih =>
    refine List.forall_mem_cons.mpr ⟨List.subset_append_left _ _, fun part mem => ?_⟩
    exact List.subset_append_of_subset_right _ (List.subset_cons_of_subset _ (ih part mem))

theorem isProduction_of_reads {path file : Text} {directories : List Text}
    (reads : Reads path (directories ++ [file])) :
    isProduction path = (!directories.any isTestDirectory && !isTestFile file) := by
  rw [isProduction, reads.components_eq, List.reverse_append]
  simp

section

variable {lower : Text → Text} (lowers : ∀ t, Lowers t (lower t))

include lowers

theorem isProduction_eq_false_iff {path : Text} {parts : List Text} (reads : Reads path parts)
    (oneLine : hasLineFeed path = false) :
    isProduction path = false ↔ LeadToTests lower parts := by
  rcases List.eq_nil_or_concat parts with rfl | ⟨directories, file, rfl⟩
  · rw [isProduction, reads.components_eq]
    exact ⟨fun _ => .inl rfl, fun _ => rfl⟩
  · rw [List.concat_eq_append] at reads ⊢
    -- The name of the file is a part of the path, so it is on one line, too.
    have among := reads.subset file (List.mem_append_right _ (List.mem_singleton.mpr rfl))
    have named : hasLineFeed file = false :=
      List.any_eq_false.mpr fun c mem => List.any_eq_false.mp oneLine c (among mem)
    rw [isProduction_of_reads reads, LeadToTests, List.dropLast_concat, List.getLast?_concat,
      Bool.and_eq_false_iff, Bool.not_eq_false', Bool.not_eq_false', List.any_eq_true,
      isTestFile_iff named]
    simp [isTestDirectory_iff (lowers _)]

/-- Below a directory, a path leads to production code when it does so by itself and no component of
the directory holds tests. -/
theorem isProduction_below {c : CodePoint} (separates : IsSeparator c) (d : Text) {p : Text}
    (named : components p ≠ []) : isProduction (d ++ c :: p) = true ↔
      (∀ directory ∈ components d, lower directory ∉ testNames) ∧ isProduction p = true := by
  have both := components_append separates d p
  rcases List.eq_nil_or_concat (components p) with none | ⟨directories, file, split⟩
  · exact absurd none named
  · rw [List.concat_eq_append] at split
    rw [split, ← List.append_assoc] at both
    rw [isProduction_of_reads (reads_iff.mpr both), isProduction_of_reads (reads_iff.mpr split),
      List.any_append, Bool.not_or, Bool.and_assoc, Bool.and_eq_true, Bool.not_eq_true',
      List.any_eq_false]
    simp only [isTestDirectory_iff (lowers _)]

end

/-- The grammar decides: a path on one line is read in one way, and it leads to no production code
exactly when its components lead to tests; and below a directory it leads to production code exactly
when it does so by itself and no component of the directory holds tests. -/
theorem production_follows_grammar {lower : Text → Text} (lowers : ∀ t, Lowers t (lower t)) :
    (∀ path, hasLineFeed path = false → ∃ parts, (∀ other, Reads path other ↔ other = parts) ∧
      (isProduction path = false ↔ LeadToTests lower parts)) ∧
    ∀ d p directories parts, Reads d directories → Reads p parts → parts ≠ [] →
      (isProduction (d ++ CodePoint.ofChar '/' :: p) = true ↔
        (∀ directory ∈ directories, lower directory ∉ testNames) ∧ isProduction p = true) := by
  refine ⟨fun path oneLine => ?_, fun d p directories parts above below named => ?_⟩
  · obtain ⟨parts, reads⟩ := exists_reads path
    refine ⟨parts, fun other => ?_, isProduction_eq_false_iff lowers reads oneLine⟩
    rw [reads_iff, reads.components_eq, eq_comm]
  · rw [← below.components_eq] at named
    rw [← above.components_eq]
    exact isProduction_below lowers (.inl rfl) d named

/-- Slashes of both kinds, one of them twice, and a directory in capitals. -/
theorem production_follows_grammar_mixed :
    (∀ t, Lowers t t.toLowerAscii) ∧ hasLineFeed "app\\Specs//x.py" = false ∧
      isProduction "app\\Specs//x.py" = false ∧ Reads "app\\core" ["app", "core"] ∧
      Reads "/x.py" ["x.py"] ∧
      isProduction (("app\\core" : Text) ++ CodePoint.ofChar '/' :: ("/x.py" : Text)) = true := by
  obtain ⟨decides, below⟩ := production_follows_grammar lowers_toLowerAscii
  have oneLine : hasLineFeed "app\\Specs//x.py" = false := by decide
  have read : Reads "app\\Specs//x.py" ["app", "Specs", "x.py"] := reads_iff.mpr (by decide)
  have above : Reads "app\\core" ["app", "core"] := reads_iff.mpr (by decide)
  have file : Reads "/x.py" ["x.py"] := reads_iff.mpr (by decide)
  refine ⟨lowers_toLowerAscii, oneLine, ?_, above, file,
    (below _ _ _ _ above file (List.cons_ne_nil _ _)).mpr (by decide)⟩
  obtain ⟨parts, unique, leads⟩ := decides _ oneLine
  obtain rfl := (unique _).mp read
  exact leads.mpr (.inr (.inl ⟨"Specs", by decide, by decide⟩))

end ChangedPath

end RedGreen
