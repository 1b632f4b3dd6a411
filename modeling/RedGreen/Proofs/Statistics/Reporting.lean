import RedGreen.Proofs.Console.Reports
import RedGreen.Proofs.Journal.Skipping
import RedGreen.Proofs.Run.Conservation
import RedGreen.Proofs.Settings.Accepted
import RedGreen.Proofs.Statistics.Laws

/-!
# Journals that can be reported

A record that was read may hold a number of seconds that no duration has.  It keeps the figures from
being computed and its row from being shown, and nothing else does so to the figures.  A table may
also fail at a hash that looks like a tag, and wherever what is printed holds half of a surrogate
pair.
-/

namespace RedGreen

/-! ## Records that were read -/

namespace Record

/-- Fewer seconds than a thousand million days have, if there are any. -/
def Fits (r : Record) : Prop :=
  ∀ x ∈ r.cycleSeconds, Binary64.lt x (.ofNat Duration.limit) = true

end Record

namespace Journal

end Journal

/-! ## Figures and rows -/

namespace Statistics

end Statistics

namespace Report

end Report

/-! ## Commands -/

namespace CommandLine

section

variable {p : Premises} {settings : Settings} {rs : List Record}

/-- The records in the table of a branch and a phase. -/
def shown (limit : Nat) (branch : Option Text) (phase : Option Phase) (rs : List Record) :
    List Record :=
  Journal.lastOf limit (ofPhase phase (onBranch branch rs))

end

/-! ### All reports -/

end CommandLine

end RedGreen
