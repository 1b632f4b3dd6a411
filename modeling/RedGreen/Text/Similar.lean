import RedGreen.Text.Basic

/-!
# Similar words

How alike two words are: find the longest run of characters that both have, do the same to the
left and to the right of it, and compare what was found with the lengths of the words.
-/

namespace RedGreen

namespace Text

/-- How many characters two texts have in common at their start. -/
def commonLead : Text → Text → Nat
  | a :: s, b :: t => if a = b then commonLead s t + 1 else 0
  | _, _ => 0

/-- The longest common run, as its places in both texts and its length; of equally long ones the
first in `s`, and of those the first in `t`. -/
def longestRun (s t : Text) : Nat × Nat × Nat :=
  let places := (List.range s.length).flatMap fun i => (List.range t.length).map fun j =>
    (i, j, commonLead (s.drop i) (t.drop j))
  places.foldl (fun best p => if best.2.2 < p.2.2 then p else best) (0, 0, 0)

/-- The number of characters in common runs. -/
def matching : (fuel : Nat) → Text → Text → Nat
  | 0, _, _ => 0
  | fuel + 1, s, t =>
    let (i, j, n) := longestRun s t
    if n = 0 then 0
    else matching fuel (s.take i) (t.take j) + n +
      matching fuel (s.drop (i + n)) (t.drop (j + n))

/-- The share of common characters in two words, as a fraction. -/
def likeness (s t : Text) : Nat × Nat :=
  (2 * matching (s.length + 1) s t, s.length + t.length)

/-- The candidates of which at least three fifths agree with a word, in their own order. -/
def similar (word : Text) (candidates : List Text) : List Text :=
  candidates.filter fun c =>
    let (common, whole) := likeness c word
    decide (3 * whole ≤ 5 * common)

end Text

end RedGreen
