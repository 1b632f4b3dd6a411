import RedGreen.Console.Markup
import RedGreen.Console.Wrap

/-!
# Tables

A table is a grid of cells with a title above it.  Each column is as wide as its widest cell.
When that is too wide for the console, the widest of the columns that may wrap give way first,
until the table fits or all of them are equally wide; then every column gives way.
-/

namespace RedGreen

structure Column where
  header : Text
  alignment : Alignment
  wraps : Bool

/-- A table, with markup in its title and cells. -/
structure Table where
  title : Text
  columns : List Column
  rows : List (List Text)

namespace Table

/-! ## Widths of columns -/

def padding : Nat := 2

/-- What a column takes with blanks around it, if `limit` allows. -/
def columnWidth (limit : Nat) (cells : List Text) : Nat :=
  if limit < padding + 1 then limit
  else min limit ((cells.map fun t => min limit t.naturalWidth).foldl max 0 + padding)

/-- The quotient, rounded to the nearest number, a half to the even one. -/
def divideEven (n d : Nat) : Nat :=
  let q := n / d
  if 2 * (n % d) < d then q
  else if 2 * (n % d) = d then (if q % 2 = 0 then q else q + 1)
  else q + 1

/-- Takes `total` away from widths in equal parts, but from none of them more than the most that
stands beside it; `shares` counts the parts that are left. -/
def reduceFrom : (total shares : Nat) → List (Nat × Nat) → List Nat
  | _, _, [] => []
  | total, shares, (width, most) :: more =>
    if most = 0 ∨ shares = 0 then width :: reduceFrom total shares more
    else
      let part := min most (divideEven total shares)
      (width - part) :: reduceFrom (total - part) (shares - 1) more

def reduce (total : Nat) (widths : List (Nat × Nat)) : List Nat :=
  reduceFrom total (widths.countP fun p => p.2 ≠ 0) widths

def total (widths : List Nat) : Nat := widths.foldr (fun w n => w + n) 0

/-- Narrows the widest columns that may wrap to the next widest one, again and again. -/
def collapse (limit : Nat) (wraps : List Bool) : (fuel : Nat) → List Nat → List Nat
  | 0, widths => widths
  | fuel + 1, widths =>
    let excess := total widths - limit
    let wrapping := (widths.zip wraps).filterMap fun p => if p.2 then some p.1 else none
    let widest := wrapping.foldl max 0
    let second := (wrapping.filter fun w => w ≠ widest).foldl max 0
    if excess = 0 ∨ widest = second then widths
    else
      let most := min excess (widest - second)
      let marked := (widths.zip wraps).map fun p => (p.1, if p.2 && p.1 = widest then most else 0)
      collapse limit wraps fuel (reduce excess marked)

/-- The widths of the columns when `limit` cells are left for them. -/
def widths (limit : Nat) (columns : List (Bool × List Text)) : List Nat :=
  let natural := columns.map fun c => columnWidth limit c.2
  if total natural ≤ limit then natural
  else
    let collapsed := collapse limit (columns.map Prod.fst) (total natural + 1) natural
    let fitted := reduce (total collapsed - limit) (collapsed.map fun w => (w, w))
    (fitted.zip columns).map fun p => columnWidth p.1 p.2.2

/-! ## Drawing -/

/-- A line between rows: its ends, what fills it, and what stands below the columns' borders. -/
def line (left fill cross right : CodePoint) (widths : List Nat) : Text :=
  left :: Text.join [cross] (widths.map fun w => List.replicate w fill) ++ [right]

def topLine : List Nat → Text := line '┏' '━' '┳' '┓'

def headLine : List Nat → Text := line '┡' '━' '╇' '┩'

def bottomLine : List Nat → Text := line '└' '─' '┴' '┘'

/-- The lines of a cell, as wide as its column. -/
def cellLines (width : Nat) (c : Column) (t : Text) : List Text :=
  let inner := width - padding
  (Text.layOut inner ⟨.ellipsis, c.alignment, c.wraps⟩ t).map fun line =>
    Text.blanks 1 ++ Text.fitCells inner line ++ Text.blanks 1

/-- The lines of a row; short cells are filled up with blank lines. -/
def rowLines (edge : Text) (widths : List Nat) (columns : List Column) (cells : List Text) :
    List Text :=
  let drawn := (widths.zip (columns.zip cells)).map fun p => (p.1, cellLines p.1 p.2.1 p.2.2)
  let height := (drawn.map fun p => p.2.length).foldl max 0
  (List.range height).map fun i =>
    edge ++ Text.join edge (drawn.map fun p => (p.2[i]?).getD (Text.blanks p.1)) ++ edge

/-- The lines of a table on a console of `width` cells. -/
def draw (width : Nat) (table : Table) : Except Markup.RenderError (List Text) := do
  let title ← Markup.render table.title
  let heads ← table.columns.mapM fun c => Markup.render c.header
  let rows ← table.rows.mapM fun row => row.mapM Markup.render
  let borders := table.columns.length + 1
  let columns := table.columns.zipIdx.map fun p =>
    (p.1.wraps, (heads :: rows).map fun cells => cells.getD p.2 [])
  let widths := widths (width - borders) columns
  let full := total widths + borders
  let caption := (Text.layOut full ⟨.fold, .center, true⟩ title)
  return caption ++ [topLine widths] ++ rowLines "┃" widths table.columns heads ++
    [headLine widths] ++ (rows.flatMap fun cells => rowLines "│" widths table.columns cells) ++
    [bottomLine widths]

end Table

end RedGreen
