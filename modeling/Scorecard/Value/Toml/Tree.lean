import Scorecard.Value.Basic

set_option autoImplicit false

/-! # TOML tables

A document is a sequence of sections: the lines before the first header, then a section for each
header. The tables of the document grow while the sections are read, and a table remembers by which
section it was opened:

* a header `[a.b]` opens a table that no section has opened yet, and goes through any table on its
  way;
* a header `[[a.b]]` adds a table to an array of tables, and later headers that go through the array
  go to its last table;
* a key `a.b` goes only through tables that no section has opened, or that this section has, and
  opens them.

What is written as a value, also as an inline table or array, is closed: nothing goes through it.
-/

namespace Scorecard.Toml

/-- A table that is being built, an array of such tables, or a finished value. A table knows the
number of the section that opened it. An array of tables keeps its last table apart. -/
inductive Tree where
  | value (v : Value)
  | table (openedBy : Option Nat) (branches : List (String × Tree))
  | tables (earlier : List (List (String × Tree))) (last : List (String × Tree))

/-- The named parts of a table, in the order in which they first appear. -/
abbrev Branches := List (String × Tree)

/-- Changes the part with a name by `f`, which gets the part that is there, if any. A new part goes
to the end. -/
def change (name : String) (f : Option Tree → Option Tree) : Branches → Option Branches
  | [] => (f none).map fun t => [(name, t)]
  | (n, t) :: rest =>
    if n = name then (f (some t)).map fun t => (n, t) :: rest
    else (change name f rest).map ((n, t) :: ·)

/-- Changes the table at a path by `f`. Tables that are missing on the way are made, opened by no
section. -/
def changeAt (f : Branches → Option Branches) : List String → Branches → Option Branches
  | [], branches => f branches
  | name :: path, branches =>
    branches |> change name fun
      | none => (changeAt f path []).map (.table none)
      | some (.table openedBy inner) => (changeAt f path inner).map (.table openedBy)
      | some (.tables earlier last) => (changeAt f path last).map (.tables earlier)
      | some (.value _) => none

/-- Opens the table with a name for the header of a section. -/
def openTable (sectionNumber : Nat) (name : String) : Branches → Option Branches :=
  change name fun
    | none => some (.table (some sectionNumber) [])
    | some (.table none inner) => some (.table (some sectionNumber) inner)
    | some _ => none

/-- Adds a table to the array of tables with a name. -/
def addTable (name : String) : Branches → Option Branches :=
  change name fun
    | none => some (.tables [] [])
    | some (.tables earlier last) => some (.tables (earlier ++ [last]) [])
    | some _ => none

/-- Does something with the last part of a key in the table that the parts before it lead to. -/
def atKey (f : String → Branches → Option Branches) (key : List String) (branches : Branches) :
    Option Branches :=
  match key.getLast? with
  | some name => changeAt (f name) key.dropLast branches
  | none => some branches

/-- Assigns a value to a key, seen from the table of the section. A key is assigned once. -/
def assign (sectionNumber : Nat) (v : Value) : List String → Branches → Option Branches
  | [], branches => some branches
  | [name], branches =>
    branches |> change name fun
      | none => some (.value v)
      | some _ => none
  | name :: path, branches =>
    let inner : Option Tree → Option Branches
      | none => some []
      | some (.table openedBy inner) =>
        if openedBy = none || openedBy = some sectionNumber then some inner else none
      | some _ => none
    branches |> change name fun found =>
      ((inner found).bind (assign sectionNumber v path)).map (.table (some sectionNumber))

mutual

/-- The finished value. -/
def Tree.toValue : Tree → Value
  | .value v => v
  | .table _ branches => .table (fieldsOf branches)
  | .tables earlier last => .list (tablesOf earlier ++ [.table (fieldsOf last)])

/-- The finished fields of a table. -/
def fieldsOf : List (String × Tree) → List (String × Value)
  | [] => []
  | (name, t) :: rest => (name, t.toValue) :: fieldsOf rest

def tablesOf : List (List (String × Tree)) → List Value
  | [] => []
  | branches :: rest => .table (fieldsOf branches) :: tablesOf rest

end

end Scorecard.Toml
