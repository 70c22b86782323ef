import Scorecard.Rule.Form
import Scorecard.Rule.Limits

set_option autoImplicit false

/-! # The built-in rules

The rules of each category in their order. The weights of a category add up to one.
-/

namespace Scorecard.Catalog

/-- A weight in hundredths. -/
def hundredths (n : Nat) : Number := .ofDecimal false n (-2)

/-- Every fact is selected. -/
def everything : FactPredicate := fun _ => .ok true

/-- A rule on the share of facts that comply. -/
def ratio (ρ : Rounding) (id : String) (category : Category) (weight : Nat)
    (description kind : String) (predicate : FactPredicate) (message suggestion : String)
    (selector : FactPredicate := everything) : Rule :=
  .of id category (hundredths weight) description
    (judgeRatio ρ id kind predicate selector ⟨message, suggestion⟩)

/-- A rule with a penalty, in hundredths, for each violation in a code base that has modules. -/
def penalty (ρ : Rounding) (id : String) (category : Category) (weight : Nat)
    (description kind : String) (amount : Nat) (message suggestion : String) : Rule :=
  .of id category (hundredths weight) description
    (judgePenalty ρ id kind Kind.moduleLength (hundredths amount) ⟨message, suggestion⟩)

/-- A rule that asks for the presence of a fact. -/
def presence (id : String) (category : Category) (weight : Nat)
    (description kind message suggestion : String) : Rule :=
  .of id category (hundredths weight) description (judgePresence id kind ⟨message, suggestion⟩)

/-- The numeric predicate of a limit. -/
def within (ρ : Rounding) (limit : Int) : FactPredicate := .atMost ρ (.finite limit)

open FactPredicate

def layout (ρ : Rounding) (limits : Limits) : List Rule :=
  let most := Int.repr limits.lineLength
  [ratio ρ "layout.line_length" .layout 40 ("Modules keep lines within " ++ most ++ " characters.")
    Kind.lineLength (within ρ limits.lineLength)
    "Longest line in \x7bfile\x7d is \x7bvalue\x7d characters."
    ("Wrap lines longer than " ++ most ++ " characters."),
   ratio ρ "layout.import_grouping" .layout 35
    "Imports are grouped standard library, third party, then local."
    Kind.importGroupOrder isTrue
    "Imports in \x7bfile\x7d are not grouped stdlib, third-party, local."
    "Group imports as standard library, third-party, then local modules.",
   ratio ρ "layout.wildcard_imports" .layout 25 "Modules avoid wildcard imports."
    Kind.wildcardImport isFalse
    "Wildcard import from \x7bsubject\x7d."
    "Replace wildcard imports with explicit names."]

def naming (ρ : Rounding) : List Rule :=
  [ratio ρ "naming.function_names" .naming 40 "Functions and methods use snake_case names."
    Kind.functionName snakeCase
    "Function '\x7bvalue\x7d' is not snake_case."
    "Rename functions and methods to snake_case.",
   ratio ρ "naming.class_names" .naming 30 "Classes use CapWords names."
    Kind.className capWords
    "Class '\x7bvalue\x7d' is not CapWords."
    "Rename classes to CapWords.",
   ratio ρ "naming.argument_names" .naming 20 "Arguments use snake_case names."
    Kind.argumentName snakeCase
    "Argument '\x7bvalue\x7d' of \x7bsubject\x7d is not snake_case."
    "Rename arguments to snake_case.",
   ratio ρ "naming.descriptive_arguments" .naming 10
     "Arguments avoid unconventional single-letter names."
    Kind.argumentName descriptive
    "Argument '\x7bvalue\x7d' of \x7bsubject\x7d is a single letter."
    "Give single-letter arguments descriptive names."]

def functionDesign (ρ : Rounding) (limits : Limits) : List Rule :=
  let longest := Int.repr limits.functionLength
  [ratio ρ
    "function_design.length" .functionDesign 35 ("Functions stay within " ++ longest ++ " lines.")
    Kind.functionLength (within ρ limits.functionLength)
    "Function '\x7bsubject\x7d' spans \x7bvalue\x7d lines."
    ("Split functions longer than " ++ longest ++ " lines into smaller helpers."),
   ratio ρ "function_design.docstrings" .functionDesign 30 "Public functions carry a docstring."
    Kind.docstringPresent isTrue
    "Public function '\x7bsubject\x7d' has no docstring."
    "Add docstrings to public functions."
    isPublic,
   ratio ρ "function_design.arguments" .functionDesign 15
    ("Functions take at most " ++ Int.repr limits.arguments ++ " arguments.")
    Kind.functionArgs (within ρ limits.arguments)
    "Function '\x7bsubject\x7d' takes \x7bvalue\x7d arguments."
    "Group related arguments into a dataclass or keyword-only options.",
   ratio ρ "function_design.complexity" .functionDesign 20
    ("Function branch complexity stays within " ++ Int.repr limits.complexity ++ ".")
    Kind.functionComplexity (within ρ limits.complexity)
    "Function '\x7bsubject\x7d' has complexity \x7bvalue\x7d."
    "Reduce branching with early returns or extracted helpers."]

def classDesign (ρ : Rounding) (limits : Limits) : List Rule :=
  [ratio ρ "class_design.docstrings" .classDesign 40 "Public classes carry a docstring."
    Kind.classDocstringPresent isTrue
    "Class '\x7bsubject\x7d' has no docstring."
    "Document each public class with a one-line docstring."
    isPublic,
   ratio ρ "class_design.method_count" .classDesign 30
    ("Classes define at most " ++ Int.repr limits.classMethods ++ " methods.")
    Kind.classMethodCount (within ρ limits.classMethods)
    "Class '\x7bsubject\x7d' defines \x7bvalue\x7d methods."
    "Split large classes by responsibility.",
   ratio ρ "class_design.base_count" .classDesign 30
    ("Classes inherit from at most " ++ Int.repr limits.classBases ++ " bases.")
    Kind.classBases (within ρ limits.classBases)
    "Class '\x7bsubject\x7d' inherits from \x7bvalue\x7d bases."
    "Prefer composition over wide multiple inheritance."]

def errorHandling (ρ : Rounding) : List Rule :=
  [ratio ρ "error_handling.bare_except" .errorHandling 50
    "Exception handlers name the exceptions they catch."
    Kind.bareExcept isFalse
    "Bare except in \x7bsubject\x7d."
    "Catch specific exception types instead of using a bare except.",
   ratio ρ "error_handling.broad_except" .errorHandling 25
     "Handlers avoid catching Exception or BaseException."
    Kind.broadExcept isFalse
    "Broad exception handler in \x7bsubject\x7d."
    "Narrow broad exception handlers to the failures you expect.",
   ratio ρ "error_handling.swallowed" .errorHandling 25
     "Handlers do not silently discard exceptions."
    Kind.swallowedException isFalse
    "Exception silently swallowed in \x7bsubject\x7d."
    "Log or re-raise exceptions instead of passing silently."]

def configuration (ρ : Rounding) (limits : Limits) : List Rule :=
  let longest := Int.repr limits.moduleLength
  [penalty ρ "configuration.hardcoded_secrets" .configuration 40
    "Credentials come from configuration, not string literals."
    Kind.hardcodedSecret 50
    "'\x7bsubject\x7d' is assigned a hardcoded credential."
    "Load secrets from environment variables or a config file.",
   penalty ρ "configuration.global_state" .configuration 20
     "Functions avoid mutating module globals."
    Kind.globalStatement 20
    "'global \x7bsubject\x7d' mutates module state."
    "Pass state explicitly instead of using global statements.",
   ratio ρ "configuration.module_size" .configuration 40
     ("Modules stay within " ++ longest ++ " lines.")
    Kind.moduleLength (within ρ limits.moduleLength)
    "Module \x7bfile\x7d is \x7bvalue\x7d lines long."
    ("Split modules longer than " ++ longest ++ " lines into focused submodules.")]

def testing (ρ : Rounding) : List Rule :=
  [.of "testing.tests_present" .testing (hundredths 40) "The codebase contains test modules."
    (judgeTestsPresent "testing.tests_present"),
   .of "testing.test_ratio" .testing (hundredths 20)
    "At least 50% as many test modules as source modules."
    (judgeTestRatio ρ "testing.test_ratio"),
   ratio ρ "testing.test_names" .testing 20 "Test functions have descriptive test_ names."
    Kind.testName descriptiveTest
    "Test '\x7bvalue\x7d' does not describe the behavior it checks."
    "Name tests after the behavior they verify, e.g. test_parser_rejects_empty.",
   ratio ρ "testing.assertions" .testing 20 "Every test function asserts something."
    Kind.testAssertions (.atLeast ρ (.finite 1))
    "Test '\x7bsubject\x7d' contains no assertions."
    "Assert on outcomes in every test function."]

def logging (ρ : Rounding) : List Rule :=
  [.of "logging.logger_over_print" .logging (hundredths 50)
    "Library code reports through logging rather than print()."
    (judgeLogging ρ "logging.logger_over_print"),
   ratio ρ "logging.module_loggers" .logging 25
     "Loggers are created with logging.getLogger(__name__)."
    Kind.loggerDefinition moduleName
    "Logger in \x7bfile\x7d is named '\x7bvalue\x7d' instead of __name__."
    "Create module loggers with logging.getLogger(__name__).",
   ratio ρ "logging.lazy_formatting" .logging 25
    "Log calls pass arguments instead of pre-formatting messages."
    Kind.eagerLogFormat isFalse
    "Log message pre-formatted in \x7bsubject\x7d."
    "Pass log arguments separately, e.g. logger.info('x=%s', x)."]

def performance (ρ : Rounding) (limits : Limits) : List Rule :=
  [ratio ρ "performance.range_len" .performance 40
    "Loops iterate directly rather than over range(len(...))."
    Kind.rangeLenLoop isFalse
    "range(len(...)) loop in \x7bsubject\x7d."
    "Iterate directly or use enumerate() instead of range(len(...)).",
   ratio ρ "performance.loop_nesting" .performance 30
    ("Loops nest at most " ++ Int.repr limits.loopDepth ++ " deep.")
    Kind.loopDepth (within ρ limits.loopDepth)
    "Function '\x7bsubject\x7d' nests loops \x7bvalue\x7d deep."
    "Flatten deeply nested loops with lookups or helper functions.",
   ratio ρ "performance.string_concat" .performance 30
     "Loops do not build strings with repeated +=."
    Kind.loopStringConcat isFalse
    "String built with += inside a loop in \x7bsubject\x7d."
    "Collect parts in a list and join them once."]

def versionControl (ρ : Rounding) (limits : Limits) : List Rule :=
  let range := Int.repr limits.leastCommitSubject ++ "-" ++ Int.repr limits.mostCommitSubject
  [presence "version_control.gitignore" .versionControl 30 "The repository has a .gitignore."
    Kind.gitignorePresent
    "No .gitignore at the repository root."
    "Add a .gitignore covering caches, virtualenvs and build output.",
   ratio ρ "version_control.commit_messages" .versionControl 50
    ("Commit subjects are " ++ range ++ " characters and specific.")
    Kind.commitMessage (commitSubject limits.leastCommitSubject limits.mostCommitSubject)
    "Commit \x7bsubject\x7d has subject '\x7bvalue\x7d'."
    ("Write specific commit subjects of " ++ range ++ " characters."),
   ratio ρ "version_control.tracked_artifacts" .versionControl 20
    "Generated artifacts and local env files are not committed."
    Kind.trackedArtifact isFalse
    "Generated or local file \x7bfile\x7d is tracked."
    "Untrack generated artifacts and add them to .gitignore."]

/-- All built-in rules, category after category. -/
def rules (ρ : Rounding) (limits : Limits) : List Rule :=
  layout ρ limits ++ naming ρ ++
    functionDesign ρ limits ++ classDesign ρ limits ++ errorHandling ρ ++
    configuration ρ limits ++ testing ρ ++ logging ρ ++ performance ρ limits ++
      versionControl ρ limits

end Scorecard.Catalog
