import Scorecard.Text.Blank

set_option autoImplicit false

/-! # Similar texts

Two texts are as similar as the share of their characters that match. What matches is found from the
longest common block: the block itself, and what matches before it and after it.
-/

namespace Scorecard.Text

/-- The length of the longest common beginning. -/
def commonStart : List Char → List Char → Nat
  | a :: as, b :: bs => if a == b then commonStart as bs + 1 else 0
  | _, _ => 0

/-- A block that two texts have in common: where it starts in either, and its length. -/
structure Block where
  left : Nat
  right : Nat
  size : Nat
deriving DecidableEq, Repr

/-- The longest common block; of several the first in the left text, then the first in the right
one. -/
def longestBlock (as bs : List Char) : Block :=
  let starts := (List.range as.length).flatMap fun i => (List.range bs.length).map fun j => (i, j)
  starts.foldl (fun best (i, j) =>
    let size := commonStart (as.drop i) (bs.drop j)
    if best.size < size then ⟨i, j, size⟩ else best) ⟨0, 0, 0⟩

/-- How many characters match, for a left text of at most `fuel` characters. -/
def matchCountWithin : Nat → List Char → List Char → Nat
  | 0, _, _ => 0
  | fuel + 1, as, bs =>
    let block := longestBlock as bs
    if block.size = 0 then 0
    else
      matchCountWithin fuel (as.take block.left) (bs.take block.right) + block.size +
        matchCountWithin fuel (as.drop (block.left + block.size))
          (bs.drop (block.right + block.size))

/-- How many characters of two texts match. What is before and after a common block is shorter than
the whole. -/
def matchCount (a b : String) : Nat := matchCountWithin a.length a.toList b.toList

/-- A candidate with the number of characters that match and the number of all characters. -/
structure Candidate where
  name : String
  matching : Nat
  all : Nat
deriving DecidableEq, Repr

/-- Whether three fifths of the characters match, counted in both texts. -/
def Candidate.isClose (c : Candidate) : Bool := 3 * c.all ≤ 10 * c.matching

/-- The more similar candidate goes first, of two alike the later name. -/
def Candidate.before (c d : Candidate) : Bool :=
  d.matching * c.all < c.matching * d.all ||
    (d.matching * c.all == c.matching * d.all && precedes d.name c.name)

/-- The names that are close to a word, at most three, in the order of names. -/
def closeMatches (word : String) (names : List String) : List String :=
  let candidates := names.map fun name =>
    { name, matching := matchCount name word, all := name.length + word.length : Candidate }
  let best := ((candidates.filter (·.isClose)).mergeSort Candidate.before).take 3
  (best.map (·.name)).mergeSort precedes

end Scorecard.Text
