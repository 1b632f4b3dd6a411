import RedGreen.Proofs.Settings.Accepted
import RedGreen.Proofs.Text.Trimming

/-!
# Credentials of the backend

The backend counts as known from three texts, each of which is given, or told by a variable, or
missing.  They are checked in three ways.  The host has to begin with a scheme and is stored
without slashes at its end, so that of a scheme alone not even the scheme is left; blanks that stood
in front of these slashes are left at its end.  A public key is there when it is not blank, but for
the secret key it is enough not to be empty.
-/

namespace RedGreen

namespace Settings

/-! ## What a group is told -/

/-- What is said about a field of a group: it is given, or else a variable of the environment or of
a file holds it. -/
def Sources.said (s : Sources) (lead : Text) (given : Json.Members) (field : Text) : Option Json :=
  (given.get? field).orElse fun _ =>
    ((s.environment.get? (lead ++ field)).map .str).orElse fun _ =>
      (s.file.get? (lead ++ field)).map .str

theorem get?_filterMap (value : Text → Option Json) {name : Text} {names : List Text}
    (mem : name ∈ names) :
    Json.Members.get? name (names.filterMap fun n => (value n).map fun v => (n, v)) =
      value name := by
  have all : ∀ names : List Text,
      Json.Members.get? name (names.filterMap fun n => (value n).map fun v => (n, v)) =
        if name ∈ names then value name else none := by
    intro names
    induction names with
    | nil => rfl
    | cons n names ih =>
      rw [List.filterMap_cons]
      by_cases same : n = name
      · subst same
        rw [if_pos List.mem_cons_self]
        cases found : value n with
        | none =>
          rw [Option.map_none, ih, found]
          exact ite_self none
        | some v => exact if_pos rfl
      · have other : name ∈ n :: names ↔ name ∈ names := by simp [Ne.symm same]
        simp only [other]
        cases value n with
        | none => exact ih
        | some v => exact (if_neg same).trans ih
  rw [all names, if_pos mem]

theorem Sources.get?_complete (s : Sources) (lead : Text) {fields : List Text}
    (given : Json.Members) {field : Text} (mem : field ∈ fields) :
    (s.complete lead fields given).get? field = s.said lead given field :=
  get?_filterMap (s.said lead given) mem

/-- What is said about a field is a text, or nothing. -/
inductive Tells : Option Json → Option Text → Prop where
  | nothing : Tells none none
  | null : Tells (some .null) none
  | text (t : Text) : Tells (some (.str t)) (some t)

section

variable {document : Json.Members} {name : Text}

theorem orNull_eq_ok_iff {t : Option Text} :
    Field.optional name none (Field.orNull Field.text) document = .ok t ↔
      Tells (document.get? name) t := by
  rw [Field.optional]
  generalize document.get? name = said
  constructor
  · intro accepted
    cases said with
    | none =>
      cases accepted
      exact .nothing
    | some v =>
      have checked := Checked.under_eq_ok accepted
      cases v with
      | null =>
        cases checked
        exact .null
      | str u =>
        cases checked
        exact .text u
      | bool _ | int _ | float _ | arr _ | obj _ => cases checked
  · intro tells
    cases tells <;> rfl

theorem optional_map (f : Option Text → Option Text) (check : Json → Checked (Option Text))
    (missing : f none = none) :
    Field.optional name none (fun v => (check v).map f) document =
      (Field.optional name none check document).map f := by
  rw [Field.optional, Field.optional]
  cases document.get? name with
  | none => exact congrArg Except.ok missing.symm
  | some v =>
    show ((check v).map f).under (.name name) = ((check v).under (.name name)).map f
    rcases check v with (issues | _) | t <;> rfl

theorem optionalText_eq_ok_iff {f : Text → Option Text} {u : Option Text} :
    Field.optional name none (optionalText f) document = .ok u ↔
      ∃ t, Tells (document.get? name) t ∧ t.bind f = u := by
  have split := @optional_map document name (fun t => t.bind f) (Field.orNull Field.text) rfl
  rw [show optionalText f = fun v => (Field.orNull Field.text v).map fun t => t.bind f from rfl,
    split]
  constructor
  · intro accepted
    obtain ⟨t, told, same⟩ := Checked.map_eq_ok accepted
    exact ⟨t, orNull_eq_ok_iff.mp told, same⟩
  · rintro ⟨t, told, rfl⟩
    rw [orNull_eq_ok_iff.mpr told]
    rfl

end

/-- What the backend is told. -/
structure Credentials where
  host : Option Text
  publicKey : Option Text
  secretKey : Option Text

namespace Credentials

/-- The settings of the backend are told the credentials, and if they are told a name for traces,
that is a text as well. -/
structure AreTold (c : Credentials) (said : Text → Option Json) : Prop where
  host : Tells (said "host") c.host
  publicKey : Tells (said "public_key") c.publicKey
  secretKey : Tells (said "secret_key") c.secretKey
  traceName : said "trace_name" = none ∨ ∃ t, said "trace_name" = some (.str t)

/-- Only what is said about the fields of the backend matters. -/
theorem AreTold.congr {c : Credentials} {said said' : Text → Option Json} (told : c.AreTold said)
    (same : ∀ name ∈ Backend.fields, said' name = said name) : c.AreTold said' where
  host := by
    rw [same _ (by decide)]
    exact told.host
  publicKey := by
    rw [same _ (by decide)]
    exact told.publicKey
  secretKey := by
    rw [same _ (by decide)]
    exact told.secretKey
  traceName := by
    rw [same _ (by decide)]
    exact told.traceName

/-- The backend that is made of credentials. -/
def backend (c : Credentials) (traceName : Text) : Backend where
  host := c.host.bind hostOf
  publicKey := c.publicKey.bind keyOf
  secretKey := c.secretKey
  traceName := traceName

theorem check_eq {c : Credentials} {document : Json.Members}
    (told : c.AreTold fun name => document.get? name) :
    ∃ traceName, Backend.check document = .ok (c.backend traceName) := by
  have named : ∃ t, Field.optional "trace_name" ("tdd-cycle" : Text) Field.text document =
      .ok t := by
    rw [Field.optional]
    rcases told.traceName with absent | ⟨t, found⟩
    · rw [absent]
      exact ⟨_, rfl⟩
    · rw [found]
      exact ⟨t, rfl⟩
  obtain ⟨t, named⟩ := named
  refine ⟨t, ?_⟩
  rw [Backend.check, optionalText_eq_ok_iff.mpr ⟨_, told.host, rfl⟩,
    optionalText_eq_ok_iff.mpr ⟨_, told.publicKey, rfl⟩, orNull_eq_ok_iff.mpr told.secretKey, named]
  rfl

theorem exists_areTold {document : Json.Members} {b : Backend}
    (accepted : Backend.check document = .ok b) :
    ∃ c : Credentials, c.AreTold (fun name => document.get? name) ∧ c.backend b.traceName = b := by
  obtain ⟨_, traceName, upToSecret, traced, rfl⟩ := Checked.seq_eq_ok accepted
  obtain ⟨_, secretKey, upToPublic, secret, rfl⟩ := Checked.seq_eq_ok upToSecret
  obtain ⟨_, publicKey, upToHost, opened, rfl⟩ := Checked.seq_eq_ok upToPublic
  obtain ⟨host, hosted, rfl⟩ := Checked.map_eq_ok upToHost
  obtain ⟨h, hostTold, rfl⟩ := optionalText_eq_ok_iff.mp hosted
  obtain ⟨k, publicTold, rfl⟩ := optionalText_eq_ok_iff.mp opened
  refine ⟨⟨h, k, secretKey⟩, ⟨hostTold, publicTold, orNull_eq_ok_iff.mp secret, ?_⟩, rfl⟩
  rw [Field.optional] at traced
  cases found : document.get? "trace_name" with
  | none => exact .inl rfl
  | some v =>
    rw [found] at traced
    have checked := Checked.under_eq_ok traced
    cases v with
    | str t => exact .inr ⟨t, rfl⟩
    | null | bool _ | int _ | float _ | arr _ | obj _ => cases checked

theorem load_eq {c : Credentials} {s : Sources} {given : Json.Members}
    (told : c.AreTold (s.said "langfuse_" given)) :
    ∃ traceName, GroupKind.backend.load s given = .ok (c.backend traceName) := by
  have completed := told.congr fun _ mem => s.get?_complete "langfuse_" given mem
  obtain ⟨traceName, checked⟩ := check_eq completed
  refine ⟨traceName, ?_⟩
  have accepted : GroupKind.backend.checkGiven s given = .ok (.ok (c.backend traceName)) :=
    congrArg Except.ok checked
  rw [GroupKind.load, accepted]
  rfl

end Credentials

/-! ## Hosts -/

/-- What stands in front of the two slashes of an address. -/
def schemes : List Text := ["http:", "https:"]

/-- An address begins with a scheme. -/
def HasScheme (t : Text) : Prop := ∃ scheme ∈ schemes, ∃ rest, t = scheme ++ (("//" : Text) ++ rest)

/-- Behind its scheme an address has something besides slashes. -/
def IsAddress (t : Text) : Prop :=
  ∃ scheme ∈ schemes, ∃ rest, t = scheme ++ (("//" : Text) ++ rest) ∧
    ∃ c ∈ rest, c ≠ CodePoint.ofChar '/'

def isSlash (c : CodePoint) : Bool := decide (c = CodePoint.ofChar '/')

theorem dropTrailing_eq (t : Text) :
    Text.dropTrailing (CodePoint.ofChar '/') t = t.rdropWhile isSlash := rfl

theorem hasScheme_iff {t : Text} :
    t.startsWith "http://" = true ∨ t.startsWith "https://" = true ↔ HasScheme t := by
  rw [Text.startsWith_iff, Text.startsWith_iff]
  constructor
  · rintro (⟨rest, rfl⟩ | ⟨rest, rfl⟩)
    · exact ⟨"http:", by decide, rest, rfl⟩
    · exact ⟨"https:", by decide, rest, rfl⟩
  · rintro ⟨scheme, known, rest, rfl⟩
    rcases List.mem_pair.mp known with rfl | rfl
    · exact .inl ⟨rest, rfl⟩
    · exact .inr ⟨rest, rfl⟩

theorem hostOf_eq_some_iff {t h : Text} :
    hostOf t = some h ↔ HasScheme t.trim ∧ h = t.trim.rdropWhile isSlash := by
  rw [hostOf, ← hasScheme_iff, ← dropTrailing_eq]
  split
  next starts =>
    rw [Option.some.injEq]
    exact ⟨fun same => ⟨starts, same.symm⟩, fun found => found.2.symm⟩
  next other => exact ⟨nofun, fun found => absurd found.1 other⟩

theorem IsAddress.hasScheme {t : Text} (address : IsAddress t) : HasScheme t := by
  obtain ⟨scheme, known, rest, split, _⟩ := address
  exact ⟨scheme, known, rest, split⟩

/-- A scheme ends with a colon, so no slash is dropped from it. -/
theorem rdropWhile_scheme {scheme : Text} (known : scheme ∈ schemes) (rest : Text) :
    (scheme ++ rest).rdropWhile isSlash = scheme ++ rest.rdropWhile isSlash := by
  have colon : ∀ scheme ∈ schemes, ∀ c ∈ scheme.getLast?, isSlash c = false := by decide
  exact Text.rdropWhile_append (colon scheme known)

/-- With nothing behind its scheme, a host loses even the slashes of the scheme. -/
theorem mem_schemes_of_not_isAddress {t : Text} (starts : HasScheme t) (bare : ¬IsAddress t) :
    t.rdropWhile isSlash ∈ schemes := by
  obtain ⟨scheme, known, rest, rfl⟩ := starts
  have slashes : ∀ c ∈ ("//" : Text) ++ rest, isSlash c = true := by
    intro c mem
    rcases List.mem_append.mp mem with two | behind
    · have all : ∀ c ∈ ("//" : Text), isSlash c = true := by decide
      exact all c two
    · refine decide_eq_true (by_contra fun other => ?_)
      exact bare ⟨scheme, known, rest, rfl, c, behind, other⟩
  rwa [rdropWhile_scheme known, List.rdropWhile_eq_nil_iff.mpr slashes, List.append_nil]

theorem IsAddress.rdropWhile {t : Text} (address : IsAddress t) :
    IsAddress (t.rdropWhile isSlash) := by
  obtain ⟨scheme, known, rest, rfl, c, mem, other⟩ := address
  have kept : isSlash c = false := decide_eq_false other
  have longer : rest.rdropWhile isSlash ≠ [] := by
    rw [ne_eq, List.rdropWhile_eq_nil_iff]
    exact fun all => Bool.eq_false_iff.mp kept (all c mem)
  have last := List.rdropWhile_last_not isSlash rest longer
  refine ⟨scheme, known, rest.rdropWhile isSlash, ?_, _, List.getLast_mem longer, ?_⟩
  · rw [rdropWhile_scheme known, Text.rdropWhile_append_of_exists ⟨c, mem, kept⟩]
  · exact of_decide_eq_false (Bool.eq_false_iff.mpr last)

theorem not_hasScheme_of_mem {t : Text} (known : t ∈ schemes) : ¬HasScheme t := by
  have short : ∀ t ∈ schemes,
      ¬(t.startsWith "http://" = true ∨ t.startsWith "https://" = true) := by
    decide
  rw [← hasScheme_iff]
  exact short t known

/-- A letter stands at the start of an address. -/
theorem HasScheme.head? {t : Text} (starts : HasScheme t) :
    ∀ c ∈ t.head?, c.isBlank = false := by
  obtain ⟨scheme, known, rest, rfl⟩ := starts
  rcases List.mem_pair.mp known with rfl | rfl
  · rintro c ⟨⟩
    decide
  · rintro c ⟨⟩
    decide

section

variable {t h : Text} (stored : hostOf t = some h)

include stored

theorem hostOf_ne_nil : h ≠ [] := by
  obtain ⟨⟨scheme, known, rest, split⟩, rfl⟩ := hostOf_eq_some_iff.mp stored
  have named : ∀ scheme ∈ schemes, scheme ≠ [] := by decide
  rw [split, rdropWhile_scheme known]
  exact List.append_ne_nil_of_left_ne_nil (named scheme known) _

theorem hostOf_getLast? : ∀ c ∈ h.getLast?, c ≠ CodePoint.ofChar '/' := by
  obtain ⟨_, rfl⟩ := hostOf_eq_some_iff.mp stored
  intro c mem
  exact of_decide_eq_false (Text.not_of_mem_getLast?_rdropWhile t.trim c mem)

/-- A host keeps its scheme when there is something behind it. -/
theorem hasScheme_iff_of_hostOf : HasScheme h ↔ IsAddress t.trim := by
  obtain ⟨starts, rfl⟩ := hostOf_eq_some_iff.mp stored
  constructor
  · intro kept
    by_contra bare
    exact not_hasScheme_of_mem (mem_schemes_of_not_isAddress starts bare) kept
  · exact fun address => address.rdropWhile.hasScheme

/-- A host is left as it is by a second check, unless its scheme is gone or blanks stand at its
end. -/
theorem hostOf_eq_self_iff :
    hostOf h = some h ↔ IsAddress t.trim ∧ ∀ c ∈ h.getLast?, c.isBlank = false := by
  rw [← hasScheme_iff_of_hostOf stored]
  constructor
  · intro again
    obtain ⟨starts, same⟩ := hostOf_eq_some_iff.mp again
    -- Nothing was lost by dropping slashes, so nothing was lost by trimming.
    have long : h.length ≤ h.trim.length := by
      conv_lhs => rw [same]
      exact (List.rdropWhile_prefix isSlash h.trim).length_le
    have trimmed : h.trim = h := (Text.trimBy_sublist _ h).eq_of_length_le long
    rw [trimmed] at starts
    exact ⟨starts, (Text.trimBy_eq_self_iff.mp trimmed).back⟩
  · rintro ⟨starts, back⟩
    have trimmed : h.trim = h := Text.trimBy_eq_self ⟨starts.head?, back⟩
    have whole : h.rdropWhile isSlash = h :=
      Text.rdropWhile_eq_self fun c mem => decide_eq_false (hostOf_getLast? stored c mem)
    rw [hostOf_eq_some_iff, trimmed, whole]
    exact ⟨starts, rfl⟩

end

theorem keyOf_eq_some_iff {t k : Text} : keyOf t = some k ↔ t.isBlank = false ∧ k = t.trim := by
  rw [keyOf]
  cases t.isBlank with
  | true => simp
  | false => simp [eq_comm]

/-! ## The backend -/

/-- Each of three texts is there and not empty. -/
theorem isConfigured_iff {b : Backend} : b.isConfigured = true ↔
    (∃ h ∈ b.host, h ≠ []) ∧ (∃ k ∈ b.publicKey, k ≠ []) ∧ ∃ k ∈ b.secretKey, k ≠ [] := by
  have present (t : Option Text) : (!(t.getD []).isEmpty) = true ↔ ∃ u ∈ t, u ≠ [] := by
    cases t <;> simp
  rw [Backend.isConfigured, List.all_eq_true]
  simp [present]

/-- What a backend makes of its credentials. -/
structure Backend.Reflects (b : Backend) (c : Credentials) : Prop where
  /-- It counts as known when the host has a scheme, the public key is not blank and the secret key
  is not empty. -/
  configured : b.isConfigured = true ↔ (∃ t ∈ c.host, HasScheme t.trim) ∧
    (∃ t ∈ c.publicKey, t.isBlank = false) ∧ ∃ t ∈ c.secretKey, t ≠ []
  slashless : ∀ h ∈ b.host, ∀ x ∈ h.getLast?, x ≠ CodePoint.ofChar '/'
  /-- The stored host begins with a scheme when something stood behind the scheme. -/
  scheme : ∀ t ∈ c.host, ∀ h ∈ b.host, (HasScheme h ↔ IsAddress t.trim)
  /-- The stored host passes a second check unchanged when, besides, no blank stands at its end. -/
  stable : ∀ t ∈ c.host, ∀ h ∈ b.host,
    (hostOf h = some h ↔ IsAddress t.trim ∧ ∀ x ∈ h.getLast?, x.isBlank = false)

theorem Credentials.reflects (c : Credentials) (traceName : Text) :
    (c.backend traceName).Reflects c := by
  have stored : ∀ t ∈ c.host, ∀ h ∈ c.host.bind hostOf, hostOf t = some h := by
    intro t told h kept
    rwa [Option.mem_def.mp told] at kept
  have hosts : (∃ h ∈ c.host.bind hostOf, h ≠ []) ↔ ∃ t ∈ c.host, HasScheme t.trim := by
    constructor
    · rintro ⟨h, kept, _⟩
      obtain ⟨t, told, stored⟩ := Option.bind_eq_some_iff.mp kept
      exact ⟨t, told, (hostOf_eq_some_iff.mp stored).1⟩
    · rintro ⟨t, told, starts⟩
      have stored := hostOf_eq_some_iff.mpr ⟨starts, rfl⟩
      exact ⟨_, Option.bind_eq_some_iff.mpr ⟨t, told, stored⟩, hostOf_ne_nil stored⟩
  have keys : (∃ k ∈ c.publicKey.bind keyOf, k ≠ []) ↔ ∃ t ∈ c.publicKey, t.isBlank = false := by
    constructor
    · rintro ⟨k, kept, _⟩
      obtain ⟨t, told, stored⟩ := Option.bind_eq_some_iff.mp kept
      exact ⟨t, told, (keyOf_eq_some_iff.mp stored).1⟩
    · rintro ⟨t, told, visible⟩
      have stored := keyOf_eq_some_iff.mpr ⟨visible, rfl⟩
      exact ⟨_, Option.bind_eq_some_iff.mpr ⟨t, told, stored⟩, Text.trim_ne_nil_iff.mpr visible⟩
  constructor
  · exact isConfigured_iff.trans (and_congr hosts (and_congr keys Iff.rfl))
  · intro h kept
    obtain ⟨t, _, stored⟩ := Option.bind_eq_some_iff.mp kept
    exact hostOf_getLast? stored
  · exact fun t told h kept => hasScheme_iff_of_hostOf (stored t told h kept)
  · exact fun t told h kept => hostOf_eq_self_iff (stored t told h kept)

/-- A backend reflects what is said about it, read on its own or as a part of the settings; and
records are delivered when that is not switched off and the backend counts as known. -/
theorem backend_reflects_credentials (s : Sources) :
    (∀ given (c : Credentials), c.AreTold (s.said "langfuse_" given) →
      ∃ b, GroupKind.backend.load s given = .ok b ∧ b.Reflects c) ∧
    ∀ given settings, Settings.load s given = .ok settings →
      ∃ document, s.Says given document ∧ ∃ c : Credentials,
        c.AreTold (s.said "langfuse_" (membersAt "langfuse" document)) ∧
        settings.backend.Reflects c ∧
        (settings.delivers = true ↔ settings.delivery.enabled = true ∧
          (∃ t ∈ c.host, HasScheme t.trim) ∧ (∃ t ∈ c.publicKey, t.isBlank = false) ∧
          ∃ t ∈ c.secretKey, t ≠ []) := by
  refine ⟨fun given c told => ?_, fun given settings loaded => ?_⟩
  · obtain ⟨traceName, read⟩ := Credentials.load_eq told
    exact ⟨_, read, c.reflects traceName⟩
  · obtain ⟨document, told, _, _, known, _⟩ := parts_of_load loaded
    obtain ⟨c, areTold, same⟩ := Credentials.exists_areTold (GroupKind.part_eq_ok known)
    have reflects := c.reflects settings.backend.traceName
    rw [same] at reflects
    refine ⟨document, told, c, ?_, reflects, ?_⟩
    · exact areTold.congr fun _ mem => (s.get?_complete _ _ mem).symm
    · rw [delivers, Bool.and_eq_true, reflects.configured]

/-- The host is given, the public key is in the environment and the secret key in a file. -/
def mixedSources : Sources where
  homes := ⟨[], []⟩
  environment := [("langfuse_public_key", some " pk ")]
  file := [("langfuse_public_key", some "other"), ("langfuse_secret_key", some "sk")]

theorem backend_reflects_credentials_mixed :
    Credentials.AreTold ⟨some " https://h.example//\n", some " pk ", some "sk"⟩
        (mixedSources.said "langfuse_" [("host", .str " https://h.example//\n")]) ∧
      ∃ b, GroupKind.backend.load mixedSources [("host", .str " https://h.example//\n")] = .ok b ∧
        b.isConfigured = true := by
  have told : Credentials.AreTold ⟨some " https://h.example//\n", some " pk ", some "sk"⟩
      (mixedSources.said "langfuse_" [("host", .str " https://h.example//\n")]) :=
    ⟨.text _, .text _, .text _, .inl rfl⟩
  obtain ⟨b, read, reflects⟩ := (backend_reflects_credentials mixedSources).1 _ _ told
  refine ⟨told, b, read, reflects.configured.mpr ⟨⟨_, rfl, ?_⟩, ⟨_, rfl, ?_⟩, ⟨_, rfl, ?_⟩⟩⟩
  · exact hasScheme_iff.mp (.inr (by decide))
  · decide
  · decide

/-- Members that hold credentials. -/
def sampleMembers (host publicKey secretKey : Text) : Json.Members :=
  [("host", .str host), ("public_key", .str publicKey), ("secret_key", .str secretKey)]

/-- A scheme without a host and a secret key of blanks are taken for credentials, and a host with
blanks in front of its last slash is not stable. -/
theorem useless_credentials_are_taken :
    ¬IsAddress (Text.trim "http://") ∧
      (GroupKind.backend.load ⟨⟨[], []⟩, [], []⟩ (sampleMembers "http://" "pk" "sk")).map
        (fun b => (b.isConfigured, b.host)) = .ok (true, some "http:") ∧
      Text.isBlank " " = true ∧
      (GroupKind.backend.load ⟨⟨[], []⟩, [], []⟩ (sampleMembers "http://a" "pk" " ")).map
        (fun b => (b.isConfigured, b.host)) = .ok (true, some "http://a") ∧
      (GroupKind.backend.load ⟨⟨[], []⟩, [], []⟩ (sampleMembers "http://a /" "pk" "sk")).map
        (fun b => (b.isConfigured, b.host)) = .ok (true, some "http://a ") ∧
      hostOf "http://a " = some "http://a" := by
  have stored : hostOf "http://" = some "http:" := by decide
  have bare : ¬IsAddress (Text.trim "http://") := fun address =>
    not_hasScheme_of_mem (by decide) ((hasScheme_iff_of_hostOf stored).mpr address)
  exact ⟨bare, rfl, by decide, rfl, rfl, by decide⟩

end Settings

end RedGreen
