import Scorecard.Text.CharClass

set_option autoImplicit false

/-! # Decimal digits

Every script's decimal digits stand in a run of ten, from zero to nine. Numbers typed by a user may
be written in any of them.
-/

namespace Scorecard.Text

/-- The decimal digits outside ASCII, in runs of ten. -/
def foreignDigits : CharClass := .ofRows [
  "660 a 86 a c6 a 19c a 76 a 76 a 76 a 76 a 76 a 76 a 76 a 76 a 76 a 60 a 76 a 46 a 116 a",
  "46 a 746 a 26 a 12c a 80 a a6 a 6 a b6 a 56 a 86 a 6 a 89c6 a 2a6 a 26 a c6 a 16 a 56 a",
  "196 a 5316 a 586 a 886 a 32c a 80 a 3c a 90 a 116 a 156 a 76 a 176 a 66 a 66 a 1a6 a 66",
  "a 2f6 a f6 a 46 a 4cb6 a 56 a 86 a 6c74 a 0 a 0 a 0 a 0 a 940 a 1a6 a 656 a 1296 a"]

/-- The value of a decimal digit of any script. -/
def digitValue? (c : Char) : Option Nat :=
  if c.isDigit then some (c.toNat - '0'.toNat)
  else if c.toNat < 128 then none
  else (foreignDigits.runs.find? fun r => r.1 ≤ c.toNat && c.toNat ≤ r.2).map fun r => c.toNat - r.1

end Scorecard.Text
