import Scorecard.Text.Quoted
import Scorecard.Value.Basic

set_option autoImplicit false

/-! # Values as shown to a reader

Texts stand in quotes, a list in brackets, a table in braces with its fields in order.
-/

namespace Scorecard

mutual

/-- The value as it is shown. -/
def Value.display : Value → String
  | .null => "None"
  | .bool b => if b then "True" else "False"
  | .int n => toString n
  | .number x => x.text
  | .text s => Text.quoted s
  | .moment s => s
  | .list items => "[" ++ ", ".intercalate (displayItems items) ++ "]"
  | .table fields => "\x7b" ++ ", ".intercalate (displayFields fields) ++ "\x7d"

def displayItems : List Value → List String
  | [] => []
  | v :: vs => v.display :: displayItems vs

def displayFields : List (String × Value) → List String
  | [] => []
  | (name, v) :: fs => (Text.quoted name ++ ": " ++ v.display) :: displayFields fs

end

end Scorecard
