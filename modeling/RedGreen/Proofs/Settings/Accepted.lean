import RedGreen.Settings.Load
import RedGreen.Proofs.Number.Bounds
import RedGreen.Proofs.Validation.Checked

/-!
# What is known of accepted settings

Settings that were read are within the bounds of their fields, whether a value was given or left to
its default.
-/

namespace RedGreen

namespace Field

/-- A guard passes on what it accepts. -/
theorem guard_eq_ok {p : Prop} [Decidable p] {a b : α} {problem : Problem}
    (accepted : (if p then Checked.accept a else .reject problem) = .ok b) : p ∧ a = b := by
  by_cases holds : p
  · rw [if_pos holds] at accepted
    exact ⟨holds, Except.ok.inj accepted⟩
  · rw [if_neg holds] at accepted
    cases accepted

theorem intFrom_eq_ok {least : Nat} {v : Json} {i : Int} (accepted : intFrom least v = .ok i) :
    (least : Int) ≤ i := by
  obtain ⟨j, _, guarded⟩ := Checked.andThen_eq_ok accepted
  obtain ⟨bound, rfl⟩ := guard_eq_ok guarded
  exact bound

theorem intBetween_eq_ok {least greatest : Nat} {v : Json} {i : Int}
    (accepted : intBetween least greatest v = .ok i) : (least : Int) ≤ i ∧ i ≤ greatest := by
  obtain ⟨j, above, guarded⟩ := Checked.andThen_eq_ok accepted
  obtain ⟨below, rfl⟩ := guard_eq_ok guarded
  exact ⟨intFrom_eq_ok above, below⟩

theorem numberFromZero_eq_ok {v : Json} {x : Binary64} (accepted : numberFromZero v = .ok x) :
    Binary64.le .zero x = true := by
  obtain ⟨y, _, guarded⟩ := Checked.andThen_eq_ok accepted
  obtain ⟨bound, rfl⟩ := guard_eq_ok guarded
  exact bound

theorem numberAboveZero_eq_ok {v : Json} {x : Binary64} (accepted : numberAboveZero v = .ok x) :
    Binary64.lt .zero x = true := by
  obtain ⟨y, _, guarded⟩ := Checked.andThen_eq_ok accepted
  obtain ⟨bound, rfl⟩ := guard_eq_ok guarded
  exact bound

end Field

namespace Settings

structure Storage.IsAccepted (s : Storage) : Prop where
  rememberedHashes : 1 ≤ s.rememberedHashes

structure Locking.IsAccepted (l : Locking) : Prop where
  timeout : Binary64.le .zero l.timeout = true
  pollInterval : Binary64.lt .zero l.pollInterval = true

structure Delivery.IsAccepted (d : Delivery) : Prop where
  maxAttempts : 1 ≤ d.maxAttempts ∧ d.maxAttempts ≤ 10
  timeout : Binary64.lt .zero d.timeout = true
  backoffBase : Binary64.le .zero d.backoffBase = true
  backoffMax : Binary64.le .zero d.backoffMax = true
  failureThreshold : 1 ≤ d.failureThreshold
  cooldown : Binary64.le .zero d.cooldown = true

structure IsAccepted (s : Settings) : Prop where
  storage : s.storage.IsAccepted
  locking : s.locking.IsAccepted
  delivery : s.delivery.IsAccepted

/-! ## Groups -/

section

variable {name : Text} {default a : Binary64} {document : Json.Members}

theorem fromZero_of_optional
    (accepted : Field.optional name default Field.numberFromZero document = .ok a)
    (byDefault : Binary64.le .zero default = true) : Binary64.le .zero a = true :=
  Field.optional_eq_ok (p := fun x => Binary64.le .zero x = true) accepted byDefault
    fun _ _ => Field.numberFromZero_eq_ok

theorem aboveZero_of_optional
    (accepted : Field.optional name default Field.numberAboveZero document = .ok a)
    (byDefault : Binary64.lt .zero default = true) : Binary64.lt .zero a = true :=
  Field.optional_eq_ok (p := fun x => Binary64.lt .zero x = true) accepted byDefault
    fun _ _ => Field.numberAboveZero_eq_ok

theorem Storage.isAccepted {homes : PathName.Homes} {s : Storage}
    (accepted : check homes document = .ok s) : s.IsAccepted := by
  obtain ⟨_, remembered, upToFsync, counted, rfl⟩ := Checked.seq_eq_ok accepted
  obtain ⟨_, _, upToDiagnostics, _, rfl⟩ := Checked.seq_eq_ok upToFsync
  obtain ⟨_, _, upToCircuit, _, rfl⟩ := Checked.seq_eq_ok upToDiagnostics
  obtain ⟨_, _, upToState, _, rfl⟩ := Checked.seq_eq_ok upToCircuit
  obtain ⟨_, _, upToLog, _, rfl⟩ := Checked.seq_eq_ok upToState
  obtain ⟨_, _, rfl⟩ := Checked.map_eq_ok upToLog
  exact ⟨Field.optional_eq_ok counted (by decide) fun _ _ => Field.intFrom_eq_ok⟩

theorem Locking.isAccepted {l : Locking} (accepted : check document = .ok l) : l.IsAccepted := by
  obtain ⟨_, interval, upToTimeout, polled, rfl⟩ := Checked.seq_eq_ok accepted
  obtain ⟨timeout, waited, rfl⟩ := Checked.map_eq_ok upToTimeout
  exact ⟨fromZero_of_optional waited (by decide +kernel),
    aboveZero_of_optional polled (by decide +kernel)⟩

theorem Delivery.isAccepted {d : Delivery} (accepted : check document = .ok d) : d.IsAccepted := by
  obtain ⟨_, cooldown, upToThreshold, cooled, rfl⟩ := Checked.seq_eq_ok accepted
  obtain ⟨_, threshold, upToMax, opened, rfl⟩ := Checked.seq_eq_ok upToThreshold
  obtain ⟨_, backoffMax, upToBase, most, rfl⟩ := Checked.seq_eq_ok upToMax
  obtain ⟨_, backoffBase, upToTimeout, least, rfl⟩ := Checked.seq_eq_ok upToBase
  obtain ⟨_, timeout, upToAttempts, waited, rfl⟩ := Checked.seq_eq_ok upToTimeout
  obtain ⟨_, maxAttempts, upToEnabled, tried, rfl⟩ := Checked.seq_eq_ok upToAttempts
  obtain ⟨_, _, rfl⟩ := Checked.map_eq_ok upToEnabled
  have attempts := Field.optional_eq_ok (p := fun i : Int => 1 ≤ i ∧ i ≤ 10) tried (by decide)
    fun _ _ => Field.intBetween_eq_ok
  exact ⟨attempts,
    aboveZero_of_optional waited (by decide +kernel),
    fromZero_of_optional least (by decide +kernel),
    fromZero_of_optional most (by decide +kernel),
    Field.optional_eq_ok opened (by decide) fun _ _ => Field.intFrom_eq_ok,
    fromZero_of_optional cooled (by decide +kernel)⟩

end

/-! ## Settings as a whole -/

/-- What a document says about a group; nothing when the group is no document of its own. -/
def membersAt (field : Text) (document : Json.Members) : Json.Members :=
  match document.get? field with
  | some (.obj given) => given
  | _ => []

/-- What is said about the settings as a whole: what is given comes before variables of the
environment, and those before variables of a file. -/
def Sources.Says (s : Sources) (given document : Json.Members) : Prop :=
  ∃ ofEnvironment ofFile, ofVariables .environment s.environment = .ok ofEnvironment ∧
    ofVariables .file s.file = .ok ofFile ∧
    document = joinMembers (joinMembers ofFile ofEnvironment) given

/-- A group of the settings was accepted by its check, whether something was said about it or
not. -/
theorem GroupKind.part_eq_ok {k : GroupKind α} {s : Sources} {document : Json.Members} {group : α}
    (read : k.part s document = .ok (.ok group)) :
    k.check (s.complete k.lead k.fields (membersAt k.field document)) = .ok group := by
  have checked : ∀ {given : Json.Members} {x : Checked α}, k.checkGiven s given = .ok x →
      k.check (s.complete k.lead k.fields given) = x := by
    intro given x done
    rw [checkGiven] at done
    split at done
    next => cases done
    next => exact Except.ok.inj done
  rw [part] at read
  rw [membersAt]
  cases mentioned : document.get? k.field with
  | none =>
    rw [mentioned] at read
    cases loaded : k.load s [] with
    | error e =>
      rw [loaded] at read
      cases read
    | ok alone =>
      rw [loaded] at read
      cases read
      rw [load] at loaded
      cases done : k.checkGiven s [] with
      | error e =>
        rw [done] at loaded
        cases loaded
      | ok x =>
        rw [done] at loaded
        cases x with
        | error r => cases loaded
        | ok other =>
          cases loaded
          exact checked done
  | some v =>
    rw [mentioned] at read
    cases v with
    | obj given =>
      cases done : k.checkGiven s given with
      | error e =>
        simp only [done] at read
        cases read
      | ok x =>
        simp only [done] at read
        have under : x.under (.name k.field) = .ok group := Except.ok.inj read
        exact Checked.under_eq_ok under ▸ checked done
    | null | bool _ | int _ | float _ | str _ | arr _ => cases read

/-- Settings that were read are put together from groups that were read. -/
theorem parts_of_load {s : Sources} {given : Json.Members} {settings : Settings}
    (loaded : load s given = .ok settings) :
    ∃ document, s.Says given document ∧
      (GroupKind.storage s.homes).part s document = .ok (.ok settings.storage) ∧
      GroupKind.locking.part s document = .ok (.ok settings.locking) ∧
      GroupKind.backend.part s document = .ok (.ok settings.backend) ∧
      GroupKind.delivery.part s document = .ok (.ok settings.delivery) ∧
      GroupKind.notices.part s document = .ok (.ok settings.notices) ∧
      GroupKind.monitoring.part s document = .ok (.ok settings.monitoring) := by
  unfold load at loaded
  simp only [bind, Except.bind] at loaded
  split at loaded
  next => cases loaded
  next ofEnvironment environment =>
  split at loaded
  next => cases loaded
  next ofFile file =>
  split at loaded
  next => cases loaded
  next storage stored =>
  split at loaded
  next => cases loaded
  next locking locked =>
  split at loaded
  next => cases loaded
  next backend known =>
  split at loaded
  next => cases loaded
  next delivery delivered =>
  split at loaded
  next => cases loaded
  next notices noticed =>
  split at loaded
  next => cases loaded
  next monitoring monitored =>
  split at loaded
  next together =>
    cases loaded
    obtain ⟨_, _, upToNotices, rfl, rfl⟩ := Checked.seq_eq_ok together
    obtain ⟨_, _, upToDelivery, rfl, rfl⟩ := Checked.seq_eq_ok upToNotices
    obtain ⟨_, _, upToBackend, rfl, rfl⟩ := Checked.seq_eq_ok upToDelivery
    obtain ⟨_, _, upToLocking, rfl, rfl⟩ := Checked.seq_eq_ok upToBackend
    obtain ⟨_, _, upToStorage, rfl, rfl⟩ := Checked.seq_eq_ok upToLocking
    obtain ⟨_, _, upToVersion, rfl, rfl⟩ := Checked.seq_eq_ok upToStorage
    obtain ⟨_, _, upToName, _, rfl⟩ := Checked.seq_eq_ok upToVersion
    obtain ⟨_, _, rfl⟩ := Checked.map_eq_ok upToName
    exact ⟨_, ⟨_, _, environment, file, rfl⟩, stored, locked, known, delivered, noticed,
      monitored⟩
  next => cases loaded

theorem isAccepted_of_load {s : Sources} {given : Json.Members} {settings : Settings}
    (loaded : load s given = .ok settings) : settings.IsAccepted := by
  obtain ⟨_, _, stored, locked, _, delivered, _⟩ := parts_of_load loaded
  exact ⟨Storage.isAccepted (GroupKind.part_eq_ok stored),
    Locking.isAccepted (GroupKind.part_eq_ok locked),
    Delivery.isAccepted (GroupKind.part_eq_ok delivered)⟩

end Settings

end RedGreen
