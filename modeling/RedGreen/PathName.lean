import RedGreen.Text.Blank

/-!
# Path names

A path name is kept in normal form: no empty components and no single dots, and a leading
slash, two of which stand for a root of their own.  A first component that starts with a
tilde stands for a home directory.
-/

namespace RedGreen

structure PathName where
  /-- Nothing, one slash or two. -/
  root : Text
  parts : List Text
  deriving DecidableEq

namespace PathName

/-- Two slashes stay, any other number of leading slashes counts as one. -/
def rootOf : Text → Text
  | a :: b :: c :: _ =>
    if a = '/' then if b = '/' ∧ c ≠ '/' then "//" else "/" else []
  | [a, b] => if a = '/' then if b = '/' then "//" else "/" else []
  | [a] => if a = '/' then "/" else []
  | [] => []

def partsOf (t : Text) : List Text :=
  (t.splitOn '/').filter fun part => !part.isEmpty && decide (part ≠ ("." : Text))

def ofText (t : Text) : PathName := ⟨rootOf t, partsOf t⟩

/-- The written form; the path of nothing is a dot. -/
def toText (p : PathName) : Text :=
  if p.root.isEmpty && p.parts.isEmpty then "." else p.root ++ Text.join "/" p.parts

/-- The last component. -/
def name (p : PathName) : Text := p.parts.getLast?.getD []

/-- The path without its last component. -/
def parent (p : PathName) : PathName := { p with parts := p.parts.dropLast }

structure Homes where
  own : Text
  accounts : List (Text × Text)

def Homes.find? (homes : Homes) (component : Text) : Option Text :=
  let found :=
    match component with
    | [_] => some homes.own
    | _ :: account => homes.accounts.lookup account
    | [] => none
  found.map fun home =>
    let home := Text.dropTrailing '/' home
    if home.isEmpty then "/" else home

/-- The path with a leading tilde replaced, or `none` when the home directory is not known. -/
def expand? (homes : Homes) (p : PathName) : Option PathName :=
  match p.root, p.parts with
  | [], (c :: account) :: parts =>
    if c = '~' then do
      let home ← homes.find? (c :: account)
      if Text.startsWith home "~" then none
      else
        let base := ofText home
        return ⟨base.root, base.parts ++ parts⟩
    else some p
  | _, _ => some p

end PathName

end RedGreen
