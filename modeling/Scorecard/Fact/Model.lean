import Scorecard.Entries
import Scorecard.Fact.Basic
import Scorecard.Fact.Kind
import Scorecard.Text.Blank

set_option autoImplicit false

/-! # Fact models

A fact model is the snapshot of a code base that every rule evaluates: its facts in order, and the
files it is made of. The facts are indexed by kind and by file, and the code base is counted, once,
when the model is built. Rules only look things up.
-/

namespace Scorecard

/-! ## Indexes -/

/-- Facts that are found by a key. -/
abbrev FactIndex := List (String × List Fact)

namespace FactIndex

/-- Puts a fact behind those with its key. -/
def add (key : Fact → String) (index : List (String × Array Fact)) (f : Fact) :
    List (String × Array Fact) :=
  alterEntry (key f) (fun found => (found.getD #[]).push f) index

/-- The index of some facts, which are put under their keys one after the other. -/
def of (key : Fact → String) (facts : List Fact) : FactIndex :=
  (facts.foldl (add key) []).map fun entry => (entry.1, entry.2.toList)

/-- The facts with a key, in order. -/
def get (index : FactIndex) (key : String) : List Fact := (index.lookup key).getD []

end FactIndex

/-! ## Counters -/

/-- How much there is in a code base. -/
structure Counters where
  totalFiles : Nat := 0
  testFiles : Nat := 0
  totalFunctions : Nat := 0
  documentedFunctions : Nat := 0
  totalClasses : Nat := 0
deriving DecidableEq, Repr

/-- The number of distinct files among some facts. -/
def countFiles (facts : List Fact) : Nat := (facts.map (·.location.file)).eraseDups.length

/-- Counts by an index of kinds. Functions are counted by their lengths, or else by their
docstrings. -/
def Counters.of (byKind : FactIndex) : Counters :=
  let testFacts := byKind.get Kind.testFile
  let lengths := (byKind.get Kind.functionLength).length
  let docstrings := byKind.get Kind.docstringPresent
  { totalFiles := countFiles (byKind.get Kind.moduleLength ++ testFacts)
    testFiles := countFiles (testFacts.filter (·.isTrue))
    totalFunctions := if lengths = 0 then docstrings.length else lengths
    documentedFunctions := (docstrings.filter (·.isTrue)).length
    totalClasses := (byKind.get Kind.className).length }

/-- The number of files that are not test files. -/
def Counters.sourceFiles (c : Counters) : Int := c.totalFiles - c.testFiles

/-! ## Models -/

/-- The facts of one code base. The files are distinct and in code point order, without the code
base itself. -/
structure FactModel where
  root : String
  facts : List Fact
  files : List String
  counters : Counters
  byKind : FactIndex
  byFile : FactIndex
deriving DecidableEq, Repr

namespace FactModel

/-- The model of some facts. Its files are those of the facts and the further ones that are
given. -/
def build (facts : List Fact) (files : List String) (root : String) : FactModel :=
  let byKind := FactIndex.of (·.kind) facts
  { root, facts
    files := Text.sortedSet ((facts.map (·.location.file) ++ files).filter (· ≠ wholeCodebase))
    counters := .of byKind
    byKind
    byFile := FactIndex.of (·.location.file) facts }

/-- The facts of a kind. -/
def ofKind (m : FactModel) (kind : String) : List Fact := m.byKind.get kind

/-- The facts of a file. -/
def inFile (m : FactModel) (file : String) : List Fact := m.byFile.get file

/-- The kinds that occur, each once, in code point order. -/
def kinds (m : FactModel) : List String := Text.sortedSet (m.byKind.map (·.1))

/-- Whether a location is the code base or lies in one of its files. -/
def contains (m : FactModel) (l : Location) : Bool :=
  l.file = wholeCodebase || m.files.contains l.file

def isEmpty (m : FactModel) : Bool := m.facts.isEmpty && m.files.isEmpty

end FactModel

end Scorecard
