import RedGreen.Console.Panel
import RedGreen.Run

/-!
# The hook

The hook runs for the commit that was just made.  It never fails: what keeps it from running
becomes a line, and so does what a run has to say.
-/

namespace RedGreen

namespace Hook

def skipped (reason : Text) : Text := ("tdd-metrics: skipped (" : Text) ++ reason ++ (")\n" : Text)

/-- The line of a hook that cannot even be loaded. -/
def disabled (reason : Text) : Text :=
  ("tdd-metrics: disabled (" : Text) ++ reason ++ (")\n" : Text)

/-- What a run prints on a console of `width` cells. -/
def printed (width : Nat) (run : Run) : Text :=
  match run.printed.mapM (Console.textLines width) with
  | .ok lines => Console.printed lines.flatten
  | .error e => skipped e.message

/-- What the hook prints, when it finds these settings and makes this run with them. -/
def output (width : Nat) (settings : Except Settings.LoadError Settings)
    (run : Settings → Run) : Text :=
  match settings with
  | .error e => skipped e.message
  | .ok settings => printed width (run settings)

end Hook

end RedGreen
