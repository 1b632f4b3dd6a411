import RedGreen.Text.Basic

/-!
# Blank characters and trimming

Two classes of blank are in use.  `isBlank` is the wide one: every character with the Unicode
property White_Space, together with the four ASCII information separators.  Names, subjects
and journal lines are trimmed with it.  `isSpace` is White_Space alone and trims numerals.
-/

namespace RedGreen

namespace CodePoint

/-- The characters with the Unicode property White_Space. -/
def isSpace (c : CodePoint) : Bool :=
  between 0x09 0x0D c || c.val == 0x20 || c.val == 0x85 || c.val == 0xA0 || c.val == 0x1680 ||
  between 0x2000 0x200A c || c.val == 0x2028 || c.val == 0x2029 || c.val == 0x202F ||
  c.val == 0x205F || c.val == 0x3000

/-- White space and the information separators U+001C to U+001F. -/
def isBlank (c : CodePoint) : Bool := between 0x1C 0x1F c || c.isSpace

end CodePoint

namespace Text

/-- The text without leading and trailing code points of a class. -/
def trimBy (p : CodePoint → Bool) (t : Text) : Text :=
  ((t.dropWhile p).reverse.dropWhile p).reverse

def trim (t : Text) : Text := t.trimBy CodePoint.isBlank

def isBlank (t : Text) : Bool := t.all CodePoint.isBlank

/-- The text without a trailing run of one code point. -/
def dropTrailing (c : CodePoint) (t : Text) : Text :=
  (t.reverse.dropWhile fun d => d = c).reverse

end Text

end RedGreen
