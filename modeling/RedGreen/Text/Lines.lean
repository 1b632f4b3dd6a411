import RedGreen.Text.Basic

/-!
# Lines

`lines` cuts a text at line feeds, carriage returns and pairs of both, the way a journal is
read.  `paragraphLines` also cuts at the vertical separators, which is how the subject of a
commit message is found.
-/

namespace RedGreen

namespace CodePoint

def isLineFeed (c : CodePoint) : Bool := c.val == 0x0A

def isCarriageReturn (c : CodePoint) : Bool := c.val == 0x0D

def endsProseLine (c : CodePoint) : Bool :=
  between 0x0A 0x0D c || between 0x1C 0x1E c || c.val == 0x85 || c.val == 0x2028 ||
  c.val == 0x2029

end CodePoint

namespace Text

/-- Lines between line ends; a carriage return directly before a line feed ends one line
together with it.  The last piece is what follows the last line end. -/
def splitLines : Text → List Text
  | [] => [[]]
  | c :: t =>
    if c.isCarriageReturn then
      match t with
      | [] => [[], []]
      | d :: u => if d.isLineFeed then [] :: splitLines u else [] :: splitLines (d :: u)
    else if c.isLineFeed then [] :: splitLines t
    else match splitLines t with
      | [] => [[c]]
      | line :: more => (c :: line) :: more

/-- The part of a message up to the first end of a prose line. -/
def firstProseLine (t : Text) : Text := t.takeWhile fun c => !c.endsProseLine

def countLineFeeds (t : Text) : Nat := t.countP CodePoint.isLineFeed

end Text

end RedGreen
