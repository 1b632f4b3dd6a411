import RedGreen.Console.CellWidth
import RedGreen.Text.Blank
import RedGreen.Text.Lines

/-!
# Fitting text into a width

A paragraph is broken between words.  A word that is wider than a line is cut into pieces, or
shortened with an ellipsis, as the place of the text asks for.  Blanks that follow a word stay on
its line as far as they fit.
-/

namespace RedGreen

inductive Overflow where
  | fold
  | ellipsis
  deriving DecidableEq

inductive Alignment where
  | natural
  | center
  | right
  deriving DecidableEq

structure Style where
  overflow : Overflow
  alignment : Alignment
  wraps : Bool

namespace Style

def running : Style := ⟨.fold, .natural, true⟩

end Style

namespace Text

def blanks (n : Nat) : Text := List.replicate n (CodePoint.ofChar ' ')

/-! ## Tabs -/

def tabWidth : Nat := 8

/-- Fills up the last piece to the next tab stop. -/
def expandPieces : (column : Nat) → List Text → Text
  | _, [] => []
  | _, [piece] => piece
  | column, piece :: more =>
    let here := column + piece.cells + 1
    let gap := if here % tabWidth = 0 then 0 else tabWidth - here % tabWidth
    piece ++ blanks (1 + gap) ++ expandPieces (here + gap) more

def expandTabs (line : Text) : Text := expandPieces 0 (line.splitOn '\t')

/-! ## Breaking lines -/

/-- The text without the blanks at its end. -/
def trimRight (t : Text) : Text := (t.reverse.dropWhile CodePoint.isBlank).reverse

/-- Words with the blanks that follow them; the first also has the blanks in front of it. -/
def wordsFrom (t : Text) : List Text :=
  match t with
  | [] => []
  | c :: t =>
    match wordsFrom t with
    | [] => [[c]]
    | word :: more =>
      match word with
      | [] => [c] :: more
      | d :: _ =>
        if c.isBlank && !d.isBlank then [c] :: word :: more else (c :: word) :: more

/-- The words of a text, which together make the text. -/
def words (t : Text) : List Text :=
  match wordsFrom t with
  | first :: second :: more =>
    if first.isBlank then (first ++ second) :: more else first :: second :: more
  | few => few

/-- A text while it is broken: the finished lines, the last one first, and the line at hand. -/
structure Breaking where
  done : List Text
  line : Text
  /-- The width that counts as used up on the line at hand. -/
  used : Nat

namespace Breaking

/-- Starts a line, unless nothing precedes it. -/
def finish (b : Breaking) : List Text :=
  if b.done.isEmpty && b.line.isEmpty then [] else b.line :: b.done

/-- Pieces of one word, each on a line of its own. -/
def stack (done : List Text) : List Text → Breaking
  | [] => ⟨done, [], 0⟩
  | [piece] => ⟨done, piece, piece.cells⟩
  | piece :: more => stack (piece :: done) more

def add (width : Nat) (overflow : Overflow) (b : Breaking) (word : Text) : Breaking :=
  let core := (trimRight word).cells
  if b.used + core ≤ width then ⟨b.done, b.line ++ word, b.used + word.cells⟩
  else if width < core then
    match overflow with
    | .fold => stack b.finish (word.chopCells width)
    | .ellipsis => ⟨b.finish, word, word.cells⟩
  else ⟨b.finish, word, word.cells⟩

end Breaking

/-- The lines of a text without line feeds. -/
def breakLines (width : Nat) (overflow : Overflow) (t : Text) : List Text :=
  let b := (words t).foldl (Breaking.add width overflow) ⟨[], [], 0⟩
  (b.line :: b.done).reverse

/-- The text without the blanks at its end that make it longer than `width`. -/
def trimEnd (width : Nat) (t : Text) : Text :=
  let tail := (t.reverse.takeWhile CodePoint.isBlank).length
  t.take (t.length - min tail (t.length - width))

/-! ## Fitting lines -/

/-- The text cut off where it is wider than `width`. -/
def shorten (width : Nat) (overflow : Overflow) (t : Text) : Text :=
  if t.cells ≤ width then t
  else match overflow with
    | .ellipsis => t.fitCells (width - 1) ++ [CodePoint.ofNat 0x2026]
    | .fold => t.fitCells width

/-- The text with blanks around it as its alignment asks for. -/
def align (width : Nat) (s : Style) (t : Text) : Text :=
  let core := (trimRight t).shorten width s.overflow
  match s.alignment with
  | .natural => t
  | .right => blanks (width - core.cells) ++ core
  | .center =>
    let left := (width - core.cells) / 2
    blanks left ++ core ++ blanks (width - (left + core.cells))

/-- The lines of a text when it is laid out in a width. -/
def layOut (width : Nat) (s : Style) (t : Text) : List Text :=
  (t.splitOn '\n').flatMap fun line =>
    let line := if line.contains (CodePoint.ofChar '\t') then line.expandTabs else line
    let lines :=
      if s.wraps then (breakLines width s.overflow line).map (trimEnd width) else [line]
    lines.map fun line => (align width s line).shorten width s.overflow

/-- The width that a text takes when no line is broken. -/
def naturalWidth (t : Text) : Nat := ((proseLines t).map Text.cells).foldl max 0
where
  proseLines : Text → List Text
    | [] => [[]]
    | c :: t =>
      if c.endsProseLine then [] :: proseLines t
      else match proseLines t with
        | [] => [[c]]
        | line :: more => (c :: line) :: more

end Text

end RedGreen
