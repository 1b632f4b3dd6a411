import RedGreen.Classification
import RedGreen.Proofs.Run.Conservation
import RedGreen.Proofs.Text.Trimming

/-!
# Laws of classification

No label of one rule leads a label of another, so a message falls under one rule at most, and the
rules may be tried in any order.  A label has neither blanks nor line ends in it: it stands in the
first line of a message when it stands at the start of the message.
-/

namespace RedGreen

namespace Classification

/-- The rules in the order in which they are tried. -/
def rules : List (Phase × List Text) := (.tidy, tidyLabels) :: labels

variable {message other : Text} {rule : Phase × List Text} {order : List (Phase × List Text)}
  {paths wider : Option (List Text)}

/-- A message begins with a label of a rule. -/
def Bears (message : Text) (rule : Phase × List Text) : Prop := ∃ label ∈ rule.2, label <+: message

def IsTidy (message : Text) : Prop := Bears message (.tidy, tidyLabels)

/-- No path that is known leads to production code. -/
def StaysOut (paths : Option (List Text)) : Prop :=
  ∀ given ∈ paths, ∀ path ∈ given, ChangedPath.isProduction path = false

/-- The phase that a rule gives a commit with these paths. -/
def phaseUnder (paths : Option (List Text)) : Phase → Phase
  | .tidy =>
    match paths with
    | none => .tidy
    | some paths => if ChangedPath.noneIsProduction paths then .tidy else .other
  | phase => phase

/-- The first rule that a message falls under. -/
def ruleOf (order : List (Phase × List Text)) (message : Text) : Option (Phase × List Text) :=
  order.find? fun rule => startsWithAny message rule.2

/-- Classification with the rules in some order. -/
def classifyBy (order : List (Phase × List Text)) (message : Text) (paths : Option (List Text)) :
    Phase :=
  match ruleOf order message with
  | some rule => phaseUnder paths rule.1
  | none => .other

/-! ## Rules -/

theorem startsWithAny_iff : startsWithAny message rule.2 = true ↔ Bears message rule := by
  rw [startsWithAny, List.any_eq_true]
  refine exists_congr fun label => and_congr_right fun _ => ?_
  exact Text.startsWith_iff.trans (exists_congr fun rest => eq_comm)

/-- A label that leads a label belongs to the same rule. -/
theorem rules_apart : ∀ rule ∈ rules, ∀ other ∈ rules, ∀ label ∈ rule.2, ∀ longer ∈ other.2,
    label <+: longer → rule = other := by
  decide

theorem bears_unique {other : Phase × List Text} (mem : rule ∈ rules) (mem' : other ∈ rules)
    (bears : Bears message rule) (bears' : Bears message other) : rule = other := by
  obtain ⟨label, among, leads⟩ := bears
  obtain ⟨label', among', leads'⟩ := bears'
  obtain shorter | longer := List.prefix_or_prefix_of_prefix leads leads'
  · exact rules_apart rule mem other mem' label among label' among' shorter
  · exact (rules_apart other mem' rule mem label' among' label among longer).symm

theorem ruleOf_eq_some_iff (perm : order.Perm rules) :
    ruleOf order message = some rule ↔ rule ∈ rules ∧ Bears message rule := by
  have sound {r} (found : ruleOf order message = some r) : r ∈ rules ∧ Bears message r :=
    ⟨perm.mem_iff.mp (List.mem_of_find?_eq_some found),
      startsWithAny_iff.mp (List.find?_some
        (p := fun r : Phase × List Text => startsWithAny message r.2) found)⟩
  refine ⟨sound, fun ⟨mem, bears⟩ => ?_⟩
  cases found : ruleOf order message with
  | none =>
    have missed := List.find?_eq_none.mp found rule (perm.mem_iff.mpr mem)
    exact absurd (startsWithAny_iff.mpr bears) missed
  | some first =>
    obtain ⟨mem', bears'⟩ := sound found
    rw [bears_unique mem' mem bears' bears]

/-- The rules of the other phases do not look at paths. -/
theorem phaseUnder_of_mem (mem : rule ∈ labels) : phaseUnder paths rule.1 = rule.1 := by
  have untidy : ∀ rule ∈ labels, rule.1 ≠ .tidy := by decide
  cases phase : rule.1 with
  | tidy => exact absurd phase (untidy rule mem)
  | red | green | refactor | other => rfl

theorem classify_eq : classify message paths = classifyBy rules message paths := by
  rw [classify.eq_def, classifyBy, ruleOf, rules, List.find?_cons]
  cases startsWithAny message tidyLabels with
  | true => rfl
  | false =>
    cases found : labels.find? fun entry => startsWithAny message entry.2 with
    | none => rfl
    | some entry => exact (phaseUnder_of_mem (List.mem_of_find?_eq_some found)).symm

/-- What a message comes to is decided by the rule that it falls under. -/
theorem classify_of_bears (mem : rule ∈ rules) (bears : Bears message rule) :
    classify message paths = phaseUnder paths rule.1 := by
  rw [classify_eq, classifyBy, (ruleOf_eq_some_iff (.refl rules)).mpr ⟨mem, bears⟩]

theorem classify_of_bare (bare : ∀ rule ∈ rules, ¬Bears message rule) :
    classify message paths = .other := by
  cases found : ruleOf rules message with
  | none => rw [classify_eq, classifyBy, found]
  | some rule =>
    obtain ⟨mem, bears⟩ := (ruleOf_eq_some_iff (.refl rules)).mp found
    exact absurd bears (bare rule mem)

theorem classifyBy_eq (perm : order.Perm rules) :
    classifyBy order message paths = classify message paths := by
  have same : ruleOf order message = ruleOf rules message := Option.ext fun rule =>
    (ruleOf_eq_some_iff perm).trans (ruleOf_eq_some_iff (.refl rules)).symm
  rw [classify_eq, classifyBy, classifyBy, same]

theorem bears_or_bare (message : Text) :
    (∃ rule ∈ rules, Bears message rule) ∨ ∀ rule ∈ rules, ¬Bears message rule := by
  rw [or_iff_not_imp_left]
  exact fun unlabelled rule mem bears => unlabelled ⟨rule, mem, bears⟩

/-- Two messages that bear the same labels are classified alike. -/
theorem classify_congr (same : ∀ rule ∈ rules, Bears message rule ↔ Bears other rule) :
    classify message paths = classify other paths := by
  obtain ⟨rule, mem, bears⟩ | bare := bears_or_bare message
  · rw [classify_of_bears mem bears, classify_of_bears mem ((same rule mem).mp bears)]
  · have bare' : ∀ rule ∈ rules, ¬Bears other rule := fun rule mem =>
      mt (same rule mem).mpr (bare rule mem)
    rw [classify_of_bare bare, classify_of_bare bare']

/-! ## Paths -/

theorem staysOut_none : StaysOut none := nofun

theorem staysOut_some_iff {given : List Text} :
    StaysOut (some given) ↔ ChangedPath.noneIsProduction given = true := by
  simp [StaysOut, ChangedPath.noneIsProduction]

instance : Decidable (StaysOut paths) :=
  match paths with
  | none => isTrue staysOut_none
  | some _ => decidable_of_iff' _ staysOut_some_iff

/-- A tidy label stands as long as the commit stays out of production code. -/
theorem classify_of_isTidy (tidy : IsTidy message) :
    classify message paths = if StaysOut paths then .tidy else .other := by
  rw [classify_of_bears List.mem_cons_self tidy]
  cases paths with
  | none => exact (if_pos staysOut_none).symm
  | some given =>
    rw [if_congr staysOut_some_iff rfl rfl]
    rfl

/-- Without a tidy label nobody looks at the paths. -/
theorem classify_of_not_isTidy (untidy : ¬IsTidy message) :
    classify message paths = classify message wider := by
  obtain ⟨rule, mem, bears⟩ | bare := bears_or_bare message
  · rw [classify_of_bears mem bears, classify_of_bears mem bears]
    obtain rfl | among := List.mem_cons.mp mem
    · exact absurd bears untidy
    · rw [phaseUnder_of_mem among, phaseUnder_of_mem among]
  · rw [classify_of_bare bare, classify_of_bare bare]

theorem StaysOut.of_subset {given more : List Text} (subset : given ⊆ more)
    (out : StaysOut (some more)) : StaysOut (some given) := by
  rintro _ ⟨⟩ path mem
  exact out more rfl path (subset mem)

/-- Paths that come to be known can only cost a tidy commit its phase. -/
theorem classify_of_wider (narrows : StaysOut wider → StaysOut paths) :
    classify message wider = classify message paths ∨
      classify message paths = .tidy ∧ classify message wider = .other := by
  by_cases tidy : IsTidy message
  · rw [classify_of_isTidy tidy, classify_of_isTidy tidy]
    by_cases out : StaysOut paths
    · by_cases beyond : StaysOut wider
      · exact .inl (by rw [if_pos out, if_pos beyond])
      · exact .inr ⟨if_pos out, if_neg beyond⟩
    · exact .inl (by rw [if_neg out, if_neg (mt narrows out)])
  · exact .inl (classify_of_not_isTidy tidy)

theorem classify_of_same_paths (same : StaysOut paths ↔ StaysOut wider) :
    classify message paths = classify message wider := by
  by_cases tidy : IsTidy message
  · rw [classify_of_isTidy tidy, classify_of_isTidy tidy, if_congr same rfl rfl]
  · exact classify_of_not_isTidy tidy

/-! ## Subjects -/

theorem not_endsProseLine {c : CodePoint} (visible : c.isBlank = false) :
    c.endsProseLine = false := by
  rw [← Bool.not_eq_true] at visible ⊢
  refine mt (fun ends => ?_) visible
  simp only [CodePoint.endsProseLine, CodePoint.isBlank, CodePoint.isSpace, CodePoint.between,
    Bool.or_eq_true, Bool.and_eq_true, decide_eq_true_eq, beq_iff_eq] at ends ⊢
  omega

theorem labels_visible : ∀ rule ∈ rules, ∀ label ∈ rule.2, ∀ c ∈ label, c.isBlank = false := by
  decide

/-- The subject of a message that does not begin with a blank is the start of that message. -/
theorem subject_leads {t : Text} (front : ∀ c ∈ t.head?, c.isBlank = false) :
    t.trim.firstProseLine <+: t := by
  rw [Text.trim_eq_rdropWhile front]
  exact (List.takeWhile_prefix _).trans (List.rdropWhile_prefix _ t)

/-- A visible text at the start of a message stands in its subject. -/
theorem leads_subject {label t : Text} (visible : ∀ c ∈ label, c.isBlank = false)
    (leads : label <+: t) : label <+: t.trim.firstProseLine := by
  obtain ⟨rest, rfl⟩ := leads
  cases label with
  | nil => exact List.nil_prefix
  | cons c label =>
    have front : ∀ d ∈ (c :: label ++ rest).head?, d.isBlank = false := by
      rintro d ⟨⟩
      exact visible c List.mem_cons_self
    have back : ∀ d ∈ (c :: label).getLast?, d.isBlank = false := fun d last =>
      visible d (List.mem_of_mem_getLast? last)
    -- No end of a line is visible, so neither trimming nor cutting touches the text.
    have oneLine : ∀ d ∈ c :: label, (!d.endsProseLine) = true := by
      intro d mem
      rw [not_endsProseLine (visible d mem)]
      rfl
    rw [Text.trim_eq_rdropWhile front, Text.rdropWhile_append back, Text.firstProseLine,
      List.takeWhile_append_of_pos oneLine]
    exact List.prefix_append _ _

theorem bears_subject_iff (front : ∀ c ∈ message.head?, c.isBlank = false) (mem : rule ∈ rules) :
    Bears message.trim.firstProseLine rule ↔ Bears message rule := by
  refine exists_congr fun label => and_congr_right fun among => ?_
  exact ⟨fun leads => leads.trans (subject_leads front),
    leads_subject (labels_visible rule mem label among)⟩

theorem classify_subject {c : Commit} (front : ∀ x ∈ c.message.head?, x.isBlank = false) :
    classify c.subject paths = classify c.message paths :=
  classify_congr fun _ mem => bears_subject_iff front mem

/-- The phase of a record is that of the whole message. -/
theorem phase_of_ofCommit {x : Surroundings} {files : Files} {c : Commit} {r : Record}
    (working : x.classifierFault = none) (recorded : (Run.ofCommit x files c).record = some r) :
    r.message = c.subject ∧ r.phase = classify c.message (some c.changedPaths) := by
  obtain ⟨phase, warnings, classified⟩ : ∃ phase warnings,
    Run.classify x.classifierFault c = (phase, warnings) := ⟨_, _, rfl⟩
  obtain ⟨o, more, state, updated⟩ : ∃ o more state,
    Run.updateCycle x files.state c phase = (o, more, state) := ⟨_, _, _, rfl⟩
  rw [Run.ofCommit_eq classified updated rfl] at recorded
  obtain ⟨_, message, phased⟩ := Run.fields_of_ofCommit (Run.ofCommit_of_log recorded)
  rw [Run.withDuration_eq] at message phased
  rw [working] at classified
  refine ⟨message, ?_⟩
  rw [← Option.some.inj phased]
  exact (congrArg Prod.fst classified).symm

/-! ## Laws -/

/-- The laws of classification for a message. -/
structure Laws (message : Text) : Prop where
  /-- The message falls under one rule at most. -/
  exclusive : ∀ rule ∈ rules, ∀ other ∈ rules, Bears message rule → Bears message other →
    rule = other
  anyOrder : ∀ order paths, order.Perm rules →
    classifyBy order message paths = classify message paths
  untidy : ¬IsTidy message → ∀ paths other, classify message paths = classify message other
  tidy : IsTidy message → ∀ paths, (classify message paths = .tidy ↔ StaysOut paths) ∧
    (classify message paths = .other ↔ ¬StaysOut paths)
  /-- Neither the order of paths nor their number counts. -/
  samePaths : ∀ given again : List Text, (∀ path, path ∈ given ↔ path ∈ again) →
    classify message (some given) = classify message (some again)
  morePaths : ∀ given more : List Text, given ⊆ more →
    classify message (some more) = classify message (some given) ∨
      classify message (some given) = .tidy ∧ classify message (some more) = .other

/-- Classification keeps its laws for every message; and a commit whose message does not begin with
a blank is classified by its subject alone, so that the message of its record still belongs to the
phase of its record. -/
theorem classify_lawful :
    (∀ message, Laws message) ∧
    ∀ c : Commit, (∀ x ∈ c.message.head?, x.isBlank = false) →
      (∀ paths, classify c.subject paths = classify c.message paths) ∧
      ∀ x files r, x.classifierFault = none → (Run.ofCommit x files c).record = some r →
        classify r.message (some c.changedPaths) = r.phase := by
  refine ⟨fun message => ?laws, fun c front => ⟨fun paths => classify_subject front, ?logged⟩⟩
  case laws =>
    constructor
    case exclusive => exact fun _ mem _ mem' => bears_unique mem mem'
    case anyOrder => exact fun _ _ perm => classifyBy_eq perm
    case untidy => exact fun untidy _ _ => classify_of_not_isTidy untidy
    case tidy =>
      intro tidy paths
      rw [classify_of_isTidy tidy]
      by_cases out : StaysOut paths <;> simp [out]
    case samePaths =>
      intro given again same
      exact classify_of_same_paths
        ⟨.of_subset fun path => (same path).mpr, .of_subset fun path => (same path).mp⟩
    case morePaths => exact fun _ _ subset => classify_of_wider (.of_subset subset)
  case logged =>
    intro x files r working recorded
    obtain ⟨message, phase⟩ := phase_of_ofCommit working recorded
    rw [message, phase, classify_subject front]

-- A blank in front of the label hides it from the classifier, but not from the subject.
example : classify "\ntest: sorts" none = .other ∧
    classify (Text.trim "\ntest: sorts").firstProseLine none = .red := by
  decide

def tidyCommit : Commit where
  hash := "abc"
  branch := "main"
  message := "test(tidy): names\r\n\nfeat: none\n"
  phase := none
  filesChanged := 1
  linesAdded := 2
  linesRemoved := 2
  changedPaths := ["tests/names.py"]
  author := unknownName
  repository := unknownName
  occurredAt := .minute 0
  cycleDuration := none

/-- The paths decide about a tidy message, and about a message of another group they do not. -/
theorem classify_lawful_tidy : (∃ r,
    (Run.ofCommit Run.sampleSurroundings Run.sampleFiles tidyCommit).record = some r ∧
      r.message = "test(tidy): names" ∧
      classify r.message (some tidyCommit.changedPaths) = r.phase ∧
      classify tidyCommit.subject (some ["src/names.py"]) =
        classify tidyCommit.message (some ["src/names.py"]) ∧
      (classify tidyCommit.message none = .tidy ↔ StaysOut none)) ∧
    ¬IsTidy "feat: names" ∧ classify "feat: names" none = .green ∧
      classify "feat: names" (some ["src/names.py"]) = classify "feat: names" none ∧
      classifyBy rules.reverse "feat: names" none = classify "feat: names" none := by
  have front : ∀ x ∈ tidyCommit.message.head?, x.isBlank = false := by decide
  have tidy : IsTidy tidyCommit.message := startsWithAny_iff.mp (by decide)
  obtain ⟨lawful, subject⟩ := classify_lawful
  obtain ⟨alike, logged⟩ := subject tidyCommit front
  have seen : (Run.ofCommit Run.sampleSurroundings Run.sampleFiles tidyCommit).record.map
      Record.message = some (Text.ofString "test(tidy): names") := by
    decide +kernel
  obtain ⟨r, recorded, message⟩ := Option.map_eq_some_iff.mp seen
  have untidy : ¬IsTidy "feat: names" := mt startsWithAny_iff.mpr (by decide)
  exact ⟨⟨r, recorded, message, logged _ _ r rfl recorded, alike _,
      ((lawful _).tidy tidy none).1⟩,
    untidy, by decide, (lawful _).untidy untidy _ _,
    (lawful _).anyOrder _ _ (List.reverse_perm rules)⟩

end Classification

end RedGreen
