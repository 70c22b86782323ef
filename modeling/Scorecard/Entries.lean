set_option autoImplicit false

/-! # Ordered tables

Entries that are found by their keys, in the order in which the keys were first used.
-/

namespace Scorecard

/-- Changes the entry of a key: an entry that is present keeps its place, a new one goes to the
end. -/
def alterEntry {κ ν : Type} [DecidableEq κ] (key : κ) (change : Option ν → ν) :
    List (κ × ν) → List (κ × ν)
  | [] => [(key, change none)]
  | (k, v) :: rest =>
      if k = key then (k, change (some v)) :: rest else (k, v) :: alterEntry key change rest

end Scorecard
