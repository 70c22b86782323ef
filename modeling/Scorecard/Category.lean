import Scorecard.Text.Blank

set_option autoImplicit false

/-! # Categories

A code base is scored in ten fixed categories. Their order here is the order of every report.
-/

namespace Scorecard

/-- A dimension of code quality. -/
inductive Category where
  | layout
  | naming
  | functionDesign
  | classDesign
  | errorHandling
  | configuration
  | testing
  | logging
  | performance
  | versionControl
deriving DecidableEq, Repr

namespace Category

/-- All categories in their order. -/
def all : List Category :=
  [layout, naming, functionDesign, classDesign, errorHandling, configuration, testing, logging,
    performance,
   versionControl]

/-- The place of a category in the order, from zero. -/
def order : Category → Nat
  | layout => 0
  | naming => 1
  | functionDesign => 2
  | classDesign => 3
  | errorHandling => 4
  | configuration => 5
  | testing => 6
  | logging => 7
  | performance => 8
  | versionControl => 9

/-- The name of a category in documents and configuration files. -/
def slug : Category → String
  | layout => "layout"
  | naming => "naming"
  | functionDesign => "function_design"
  | classDesign => "class_design"
  | errorHandling => "error_handling"
  | configuration => "configuration"
  | testing => "testing"
  | logging => "logging"
  | performance => "performance"
  | versionControl => "version_control"

/-- The name of a category for readers. -/
def label : Category → String
  | layout => "Layout & Formatting"
  | naming => "Naming"
  | functionDesign => "Function Design"
  | classDesign => "Class Design"
  | errorHandling => "Error Handling"
  | configuration => "Configuration & Modularity"
  | testing => "Testing"
  | logging => "Logging"
  | performance => "Performance"
  | versionControl => "Version Control"

/-- The category with exactly this slug. -/
def ofSlug? (slug : String) : Option Category := all.find? (·.slug = slug)

/-- The category that a reader means by a name: white space around it and the case of its letters do
not count, and a hyphen stands for an underscore. -/
def named? (name : String) : Option Category :=
  ofSlug? ((Text.lower (Text.strip name)).map fun c => if c == '-' then '_' else c)

/-- The message for a name that means no category. -/
def unknownMessage (name : String) : String :=
  "Unknown category '" ++ name ++ "'. Expected one of: " ++ ", ".intercalate (all.map slug)

end Category

end Scorecard
