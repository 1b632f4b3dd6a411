import RedGreen.Number.Numeral

/-!
# JSON values

Integers and floats are kept apart, integers have any size, and an object keeps its members in
the order in which their names first came up.
-/

namespace RedGreen

inductive Json where
  | null
  | bool (b : Bool)
  | int (i : Int)
  | float (x : Binary64)
  | str (t : Text)
  | arr (items : List Json)
  | obj (members : List (Text × Json))

namespace Json

instance : Inhabited Json := ⟨.null⟩

inductive Kind where
  | null
  | bool
  | int
  | float
  | str
  | arr
  | obj
  deriving DecidableEq

def Kind.name : Kind → Text
  | .null => "NoneType"
  | .bool => "bool"
  | .int => "int"
  | .float => "float"
  | .str => "str"
  | .arr => "list"
  | .obj => "dict"

def kind : Json → Kind
  | .null => .null
  | .bool _ => .bool
  | .int _ => .int
  | .float _ => .float
  | .str _ => .str
  | .arr _ => .arr
  | .obj _ => .obj

abbrev Members := List (Text × Json)

def Members.get? (name : Text) : Members → Option Json
  | [] => none
  | (k, v) :: ms => if k = name then some v else get? name ms

/-- Puts a value under a name: in place of an old value, or else at the end. -/
def Members.put (name : Text) (value : Json) : Members → Members
  | [] => [(name, value)]
  | (k, v) :: ms => if k = name then (k, value) :: ms else (k, v) :: put name value ms

def Members.erase (name : Text) : Members → Members
  | [] => []
  | (k, v) :: ms => if k = name then ms else (k, v) :: erase name ms

/-- Members in the order of first mention, the last value of each name standing. -/
def Members.ofList (pairs : List (Text × Json)) : Members :=
  pairs.foldl (fun ms p => Members.put p.1 p.2 ms) []

/-- Inserts a member before the first one with a greater name. -/
def Members.insertSorted (p : Text × Json) : Members → Members
  | [] => [p]
  | q :: ms => if p.1.less q.1 then p :: q :: ms else q :: insertSorted p ms

def Members.sorted (ms : Members) : Members := ms.foldr insertSorted []

mutual

/-- The value with the members of every object in the order of their names. -/
def sorted : Json → Json
  | .arr items => .arr (sortedItems items)
  | .obj members => .obj (Members.sorted (sortedMembers members))
  | .null => .null
  | .bool b => .bool b
  | .int i => .int i
  | .float x => .float x
  | .str t => .str t

def sortedItems : List Json → List Json
  | [] => []
  | v :: vs => sorted v :: sortedItems vs

def sortedMembers : List (Text × Json) → List (Text × Json)
  | [] => []
  | (k, v) :: ms => (k, sorted v) :: sortedMembers ms

end

/-- Empty containers, zeros, the empty text, `null` and `false` count as nothing. -/
def isTruthy : Json → Bool
  | .null => false
  | .bool b => b
  | .int i => i != 0
  | .float x => x.isTruthy
  | .str t => !t.isEmpty
  | .arr items => !items.isEmpty
  | .obj members => !members.isEmpty

/-- A text, or `null` when there is none. -/
def ofText? : Option Text → Json
  | some t => .str t
  | none => .null

end Json

end RedGreen
