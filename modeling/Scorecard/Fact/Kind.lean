set_option autoImplicit false

/-! # Kinds of facts

The vocabulary that the extractor produces and the built-in rules consume. A facts document may hold
other kinds; they are kept, and no built-in rule reads them.
-/

namespace Scorecard.Kind

def moduleLength : String := "module_length"
def lineLength : String := "line_length"
def importGroupOrder : String := "import_group_order"
def wildcardImport : String := "wildcard_import"
def testFile : String := "test_file"
def functionName : String := "function_name"
def argumentName : String := "argument_name"
def className : String := "class_name"
def functionLength : String := "function_length"
def functionArgs : String := "function_args"
def functionComplexity : String := "function_complexity"
def loopDepth : String := "loop_depth"
def docstringPresent : String := "docstring_present"
def classDocstringPresent : String := "class_docstring_present"
def classMethodCount : String := "class_method_count"
def classBases : String := "class_bases"
def bareExcept : String := "bare_except"
def broadExcept : String := "broad_except"
def swallowedException : String := "swallowed_exception"
def globalStatement : String := "global_statement"
def hardcodedSecret : String := "hardcoded_secret"
def testName : String := "test_name"
def testAssertions : String := "test_assertions"
def logCall : String := "log_call"
def eagerLogFormat : String := "eager_log_format"
def loggerDefinition : String := "logger_definition"
def printCall : String := "print_call"
def rangeLenLoop : String := "range_len_loop"
def loopStringConcat : String := "loop_string_concat"
def gitignorePresent : String := "gitignore_present"
def commitMessage : String := "commit_message"
def trackedArtifact : String := "tracked_artifact"

/-- All kinds of the vocabulary. -/
def known : List String :=
  [moduleLength, lineLength, importGroupOrder, wildcardImport, testFile, functionName, argumentName,
    className,
   functionLength, functionArgs, functionComplexity, loopDepth, docstringPresent,
     classDocstringPresent,
   classMethodCount, classBases, bareExcept, broadExcept, swallowedException, globalStatement,
     hardcodedSecret,
   testName, testAssertions, logCall, eagerLogFormat, loggerDefinition, printCall, rangeLenLoop,
     loopStringConcat,
   gitignorePresent, commitMessage, trackedArtifact]

end Scorecard.Kind
