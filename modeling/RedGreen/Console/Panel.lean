import RedGreen.Console.Markup
import RedGreen.Console.Wrap

/-!
# Panels and running text

A panel is a frame as wide as the console, with a title in its upper edge.  Running text stands
on the console without a frame.
-/

namespace RedGreen

namespace Console

def printed (lines : List Text) : Text := lines.flatMap fun line => line ++ [CodePoint.ofChar '\n']

/-- The lines of a text with markup on a console of `width` cells. -/
def textLines (width : Nat) (markup : Text) : Except Markup.RenderError (List Text) :=
  (Markup.render markup).map (Text.layOut width .running)

end Console

/-- A frame around a text, with markup in both. -/
structure Panel where
  title : Text
  body : Text

namespace Panel

def edge (n : Nat) : Text := List.replicate n (CodePoint.ofChar '─')

def topLine (width : Nat) (title : Text) : Text :=
  let room := width - 4
  let shown := Text.shorten room .fold
    (Text.blanks 1 ++ Text.expandTabs (Text.replaceEach '\n' ' ' title) ++ Text.blanks 1)
  let rest := room - shown.cells
  ("╭─" : Text) ++ edge (rest / 2) ++ shown ++ edge (rest - rest / 2) ++ ("─╮" : Text)

def bottomLine (width : Nat) : Text := ("╰" : Text) ++ edge (width - 2) ++ ("╯" : Text)

/-- The lines of a panel on a console of `width` cells. -/
def draw (width : Nat) (p : Panel) : Except Markup.RenderError (List Text) := do
  let title ← Markup.render p.title
  let body ← Markup.render p.body
  let inner := width - 4
  let lines := (Text.layOut inner .running body).map fun line =>
    ("│ " : Text) ++ Text.fitCells inner line ++ (" │" : Text)
  return [topLine width title] ++ lines ++ [bottomLine width]

end Panel

end RedGreen
