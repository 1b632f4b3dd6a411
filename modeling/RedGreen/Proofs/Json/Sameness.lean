import Mathlib.Data.List.Lex
import RedGreen.Proofs.Json.Joining

/-!
# Values that are the same

Two values are the same when they differ at most in the order in which objects hold their members.
Numbers of different kinds are different values, as are numbers that are written differently.
Sorting picks one form of every value: values that are the same are sorted into equal ones, and a
value is the same as its sorted form.
-/

namespace RedGreen

/-! ## The order of names -/

theorem CodePoint.val_injective : Function.Injective CodePoint.val := fun _ _ => CodePoint.ext

namespace Text

/-- Texts are ordered like the lists of their code point numbers. -/
theorem less_iff {s t : Text} :
    less s t = true ↔ s.map CodePoint.val < t.map CodePoint.val := by
  induction s generalizing t with
  | nil => cases t <;> simp [less]
  | cons a s ih =>
    cases t with
    | nil => simp [less]
    | cons b t =>
      rw [less, List.map_cons, List.map_cons, List.cons_lt_cons_iff]
      by_cases same : a.val = b.val
      · simp [same, ih]
      · simp [same]

theorem less_trans {s t u : Text} (first : less s t = true) (second : less t u = true) :
    less s u = true :=
  less_iff.mpr (lt_trans (less_iff.mp first) (less_iff.mp second))

theorem less_asymm {s t : Text} (first : less s t = true) : less t s = false :=
  Bool.eq_false_iff.mpr fun second => lt_asymm (less_iff.mp first) (less_iff.mp second)

/-- Of two different texts, one comes first. -/
theorem less_of_ne {s t : Text} (differ : s ≠ t) (behind : less s t = false) :
    less t s = true := by
  rw [Bool.eq_false_iff, ne_eq, less_iff] at behind
  have numbers : s.map CodePoint.val ≠ t.map CodePoint.val := fun same =>
    differ (List.map_injective_iff.mpr CodePoint.val_injective same)
  exact less_iff.mpr (lt_of_le_of_ne (not_lt.mp behind) numbers.symm)

end Text

namespace Json

/-! ## Members in order -/

/-- Every member stands in front of those with greater names. -/
def Members.Increasing (ms : Members) : Prop := ms.Pairwise fun p q => p.1.less q.1 = true

theorem Members.Increasing.insertSorted {p : Text × Json} {ms : Members}
    (increasing : ms.Increasing) (absent : p.1 ∉ ms.map Prod.fst) :
    Members.Increasing (Members.insertSorted p ms) := by
  induction ms with
  | nil => exact List.pairwise_singleton _ p
  | cons q ms ih =>
    obtain ⟨least, rest⟩ := List.pairwise_cons.mp increasing
    rw [List.map_cons, List.mem_cons, not_or] at absent
    cases before : p.1.less q.1 with
    | true =>
      rw [Members.insertSorted, if_pos before]
      refine List.pairwise_cons.mpr ⟨fun r mem => ?_, increasing⟩
      rcases List.mem_cons.mp mem with rfl | mem
      · exact before
      · exact Text.less_trans before (least r mem)
    | false =>
      rw [Members.insertSorted, before, if_neg Bool.false_ne_true]
      refine List.pairwise_cons.mpr ⟨fun r mem => ?_, ih rest absent.2⟩
      rcases List.mem_cons.mp ((Members.insertSorted_perm p ms).mem_iff.mp mem) with rfl | mem
      · exact Text.less_of_ne absent.1 before
      · exact least r mem

theorem Members.increasing_sorted {ms : Members} (distinct : ms.Distinct) :
    Members.Increasing (Members.sorted ms) := by
  induction ms with
  | nil => exact List.Pairwise.nil
  | cons p ms ih =>
    obtain ⟨absent, rest⟩ := Members.distinct_cons.mp distinct
    -- Sorting the others brings in no new name.
    have absent : p.1 ∉ (Members.sorted ms).map Prod.fst := fun mem =>
      absent (((Members.sorted_perm ms).map Prod.fst).mem_iff.mp mem)
    exact (ih rest).insertSorted absent

theorem Members.sorted_of_increasing {ms : Members} (increasing : ms.Increasing) :
    Members.sorted ms = ms := by
  induction ms with
  | nil => rfl
  | cons p ms ih =>
    obtain ⟨least, rest⟩ := List.pairwise_cons.mp increasing
    have back : Members.sorted (p :: ms) = Members.insertSorted p ms := by
      rw [Members.sorted, List.foldr_cons, ← Members.sorted, ih rest]
    rw [back]
    cases ms with
    | nil => rfl
    | cons q ms => rw [Members.insertSorted, if_pos (least q List.mem_cons_self)]

mutual

/-- Every object in the value holds its members in the order of their names. -/
def Ordered : Json → Prop
  | .arr items => OrderedItems items
  | .obj members => Members.Increasing members ∧ OrderedMembers members
  | .null | .bool _ | .int _ | .float _ | .str _ => True

def OrderedItems : List Json → Prop
  | [] => True
  | v :: vs => Ordered v ∧ OrderedItems vs

def OrderedMembers : List (Text × Json) → Prop
  | [] => True
  | (_, v) :: ms => Ordered v ∧ OrderedMembers ms

end

theorem orderedMembers_iff {ms : Members} : OrderedMembers ms ↔ ∀ p ∈ ms, Ordered p.2 := by
  induction ms with
  | nil => simp [OrderedMembers]
  | cons p ms ih =>
    obtain ⟨k, v⟩ := p
    simp [OrderedMembers, ih]

mutual

theorem ordered_sorted : (v : Json) → WellNamed v → Ordered v.sorted
  | .null, _ | .bool _, _ | .int _, _ | .float _, _ | .str _, _ => trivial
  | .arr items, named => by
    rw [sorted, Ordered]
    exact orderedItems_sorted items named
  | .obj members, named => by
    rw [WellNamed] at named
    rw [sorted, Ordered, orderedMembers_iff]
    refine ⟨Members.increasing_sorted named.1.sortedMembers, fun p mem => ?_⟩
    -- Sorting only moves members.
    have mem := (Members.sorted_perm _).mem_iff.mp mem
    exact orderedMembers_iff.mp (orderedMembers_sorted members named.2) p mem

theorem orderedItems_sorted :
    (vs : List Json) → WellNamedItems vs → OrderedItems (sortedItems vs)
  | [], _ => trivial
  | v :: vs, named => ⟨ordered_sorted v named.1, orderedItems_sorted vs named.2⟩

theorem orderedMembers_sorted :
    (ms : List (Text × Json)) → WellNamedMembers ms → OrderedMembers (sortedMembers ms)
  | [], _ => trivial
  | (_, v) :: ms, named => ⟨ordered_sorted v named.2.1, orderedMembers_sorted ms named.2.2⟩

end

mutual

/-- A value in order is its own sorted form. -/
theorem sorted_of_ordered : (v : Json) → Ordered v → v.sorted = v
  | .null, _ | .bool _, _ | .int _, _ | .float _, _ | .str _, _ => rfl
  | .arr items, ordered => by rw [sorted, sortedItems_of_ordered items ordered]
  | .obj members, ordered => by
    rw [Ordered] at ordered
    rw [sorted, sortedMembers_of_ordered members ordered.2, Members.sorted_of_increasing ordered.1]

theorem sortedItems_of_ordered : (vs : List Json) → OrderedItems vs → sortedItems vs = vs
  | [], _ => rfl
  | v :: vs, ordered => by
    rw [sortedItems, sorted_of_ordered v ordered.1, sortedItems_of_ordered vs ordered.2]

theorem sortedMembers_of_ordered :
    (ms : List (Text × Json)) → OrderedMembers ms → sortedMembers ms = ms
  | [], _ => rfl
  | (k, v) :: ms, ordered => by
    rw [sortedMembers, sorted_of_ordered v ordered.1, sortedMembers_of_ordered ms ordered.2]

end

/-! ## The same value -/

/-- The values differ at most in the order in which their objects hold their members. -/
inductive Same : Json → Json → Prop where
  | null : Same .null .null
  | bool (b : Bool) : Same (.bool b) (.bool b)
  | int (i : Int) : Same (.int i) (.int i)
  | float (x : Binary64) : Same (.float x) (.float x)
  | str (t : Text) : Same (.str t) (.str t)
  | arr {vs ws : List Json} (length : vs.length = ws.length)
      (items : ∀ (i : Nat) (v w : Json), vs[i]? = some v → ws[i]? = some w → Same v w) :
      Same (.arr vs) (.arr ws)
  | obj {ms ns : Members} (names : ∀ name, (ms.get? name).isSome = (ns.get? name).isSome)
      (members : ∀ (name : Text) (v w : Json), ms.get? name = some v → ns.get? name = some w →
        Same v w) :
      Same (.obj ms) (.obj ns)

theorem Same.symm {v w : Json} (same : Same v w) : Same w v := by
  induction same with
  | null => exact .null
  | bool b => exact .bool b
  | int i => exact .int i
  | float x => exact .float x
  | str t => exact .str t
  | arr length _ ih => exact .arr length.symm fun i v w first second => ih i w v second first
  | obj names _ ih =>
    exact .obj (fun name => (names name).symm) fun name v w first second =>
      ih name w v second first

theorem Same.trans {u v w : Json} (first : Same u v) (second : Same v w) : Same u w := by
  induction first generalizing w with
  | null | bool | int | float | str => exact second
  | @arr us vs length _ ih =>
    cases second with
    | @arr _ ws length' items' =>
      refine .arr (length.trans length') fun i u w found found' => ?_
      -- The list between has an item at each place of the outer two.
      have inside : i < vs.length := by
        rw [← length]
        exact (List.getElem?_eq_some_iff.mp found).1
      have between := List.getElem?_eq_getElem inside
      exact ih i u _ found between (items' i _ w between found')
  | @obj ms ns names _ ih =>
    cases second with
    | @obj _ os names' members' =>
      refine .obj (fun name => (names name).trans (names' name)) fun name u w found found' => ?_
      have named := names name
      rw [found] at named
      obtain ⟨v, between⟩ := Option.isSome_iff_exists.mp named.symm
      exact ih name u v found between (members' name v w between found')

theorem sortedItems_eq_map (vs : List Json) : sortedItems vs = vs.map sorted := by
  induction vs with
  | nil => rfl
  | cons v vs ih => rw [sortedItems, ih, List.map_cons]

mutual

/-- A value is the same as its sorted form. -/
theorem same_sorted : (v : Json) → WellNamed v → Same v v.sorted
  | .null, _ => .null
  | .bool b, _ => .bool b
  | .int i, _ => .int i
  | .float x, _ => .float x
  | .str t, _ => .str t
  | .arr items, named => by
    rw [sorted]
    refine .arr (by rw [sortedItems_eq_map, List.length_map]) fun i v w found found' => ?_
    rw [sortedItems_eq_map, List.getElem?_map, found] at found'
    cases found'
    exact same_sortedItems items named v (List.mem_of_getElem? found)
  | .obj members, named => by
    rw [WellNamed] at named
    have sortedAt (name : Text) : Members.get? name (Members.sorted (sortedMembers members)) =
        (Members.get? name members).map sorted := by
      rw [Members.get?_sorted named.1.sortedMembers, Members.get?_sortedMembers]
    rw [sorted]
    refine .obj (fun name => ?_) fun name v w found found' => ?_
    · rw [sortedAt, Option.isSome_map]
    · rw [sortedAt, found] at found'
      cases found'
      exact same_sortedMembers members named.2 (name, v) (Members.mem_of_get? found)

theorem same_sortedItems :
    (vs : List Json) → WellNamedItems vs → ∀ v ∈ vs, Same v v.sorted
  | [], _ => List.forall_mem_nil _
  | v :: vs, named =>
    List.forall_mem_cons.mpr ⟨same_sorted v named.1, same_sortedItems vs named.2⟩

theorem same_sortedMembers :
    (ms : List (Text × Json)) → WellNamedMembers ms → ∀ p ∈ ms, Same p.2 p.2.sorted
  | [], _ => List.forall_mem_nil _
  | (_, v) :: ms, named =>
    List.forall_mem_cons.mpr ⟨same_sorted v named.2.1, same_sortedMembers ms named.2.2⟩

end

end Json

end RedGreen
