set_option autoImplicit false

/-! # Classes of characters

A class of characters is a list of runs of code points. The long ones are written as rows of
hexadecimal numbers, alternately the length of a gap and the length of the run after it.
-/

namespace Scorecard.Text

/-- The value of a hexadecimal digit in either case. -/
def hexValue? (c : Char) : Option Nat :=
  if c.isDigit then some (c.toNat - '0'.toNat)
  else if 'a' ≤ c && c ≤ 'f' then some (c.toNat - 'a'.toNat + 10)
  else if 'A' ≤ c && c ≤ 'F' then some (c.toNat - 'A'.toNat + 10)
  else none

/-- The number that hexadecimal digits write; other characters count as zero. -/
def ofHex (cs : List Char) : Nat := cs.foldl (fun n c => 16 * n + (hexValue? c).getD 0) 0

/-- The words of rows of text, separated by spaces. -/
def words (rows : List String) : List (List Char) :=
  (rows.flatMap fun row => row.toList.splitOn ' ').filter (!·.isEmpty)

/-- A class of characters: runs from a first to a last code point. -/
structure CharClass where
  runs : List (Nat × Nat)

namespace CharClass

/-- The runs of a list of alternating gap and run lengths, after the code point `start`. -/
def runsFrom (start : Nat) : List Nat → List (Nat × Nat)
  | gap :: length :: rest =>
      (start + gap, start + gap + length - 1) :: runsFrom (start + gap + length) rest
  | _ => []

/-- The class written in rows of alternating gap and run lengths. -/
def ofRows (rows : List String) : CharClass := ⟨runsFrom 0 ((words rows).map ofHex)⟩

def contains (k : CharClass) (c : Char) : Bool :=
  k.runs.any fun r => r.1 ≤ c.toNat && c.toNat ≤ r.2

end CharClass

end Scorecard.Text
