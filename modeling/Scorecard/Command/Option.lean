import Scorecard.Text.Quoted
import Scorecard.Text.Similarity

set_option autoImplicit false

/-! # Options on a command line

An option starts with a dash. Its value follows it as the next word, or after an equals sign in the
same word. Options of one letter are flags and may be written together after one dash. After the
word `--` nothing is an option any more.
-/

namespace Scorecard.Command

/-- What is wrong with a command line. -/
inductive UsageError where
  | noSuchOption (name : String) (similar : List String)
  | needsValue (option : String)
  | takesNoValue (option : String)
  | notInteger (option value : String)
  | notNumber (option value : String)
  | extraArguments (arguments : List String)
  | noSuchCommand (name : String)
  | missingCommand
deriving DecidableEq, Repr

def UsageError.message : UsageError → String
  | noSuchOption name [] => "No such option: " ++ name
  | noSuchOption name [similar] => "No such option: " ++ name ++ " Did you mean " ++ similar ++ "?"
  | noSuchOption name similar =>
    "No such option: " ++ name ++ " (Possible options: " ++ ", ".intercalate similar ++ ")"
  | needsValue option => "Option " ++ Text.quoted option ++ " requires an argument."
  | takesNoValue option => "Option " ++ Text.quoted option ++ " does not take a value."
  | notInteger option value =>
    "Invalid value for '" ++ option ++ "': " ++ Text.quoted value ++ " is not a valid integer."
  | notNumber option value =>
    "Invalid value for '" ++ option ++ "': " ++ Text.quoted value ++ " is not a valid float."
  | extraArguments [argument] => "Got unexpected extra argument (" ++ argument ++ ")"
  | extraArguments arguments =>
      "Got unexpected extra arguments (" ++ " ".intercalate arguments ++ ")"
  | noSuchCommand name => "No such command " ++ Text.quoted name ++ "."
  | missingCommand => "Missing command."

/-! ## Options -/

/-- An option that is understood, with all its names; the first one stands for it. -/
structure OptionSpec where
  names : List String
  takesValue : Bool := false
deriving DecidableEq, Repr

def OptionSpec.name (o : OptionSpec) : String := o.names.headD ""

/-- An option without a value. -/
def OptionSpec.flag (name : String) : OptionSpec := { names := [name] }

/-- An option with a value. -/
def OptionSpec.valued (name : String) : OptionSpec := { names := [name], takesValue := true }

/-- Whether a name has one letter. -/
def isShort (name : String) : Bool := name.length == 2

/-- The names of more than one letter. -/
def longNames (options : List OptionSpec) : List String :=
  (options.flatMap (·.names)).filter fun name => !isShort name

/-- The option with a name. -/
def findOption? (options : List OptionSpec) (name : String) : Option OptionSpec :=
  options.find? fun o => o.names.contains name

/-! ## Scanning -/

/-- An option as it is used. -/
structure OptionUse where
  name : String
  value : Option String := none
deriving DecidableEq, Repr

/-- A command line taken apart: the options in order, and the other words. -/
structure Scanned where
  uses : List OptionUse := []
  arguments : List String := []
deriving DecidableEq, Repr

/-- Puts option uses before those that follow. -/
def Scanned.after (uses : List OptionUse) (s : Scanned) : Scanned :=
  { s with uses := uses ++ s.uses }

/-- Puts a word before those that follow. -/
def Scanned.withArgument (argument : String) (s : Scanned) : Scanned :=
  { s with arguments := argument :: s.arguments }

/-- The flags whose letters are written together. -/
def readLetters (options : List OptionSpec) : List Char → Except UsageError (List OptionUse)
  | [] => .ok []
  | c :: cs =>
    let name := String.ofList ['-', c]
    match findOption? options name with
    | none => .error (.noSuchOption name [])
    | some o => do
      let more ← readLetters options cs
      return { name := o.name } :: more

/-- A word divided at its first equals sign. -/
def splitValue (word : String) : String × Option String :=
  let cs := word.toList
  match cs.dropWhile (· != '=') with
  | _ :: value => (String.ofList (cs.takeWhile (· != '=')), some (String.ofList value))
  | [] => (word, none)

/-- Takes a command line apart. Unless options may be mixed with other words, all that follows the
first other word is left alone. -/
def scan (options : List OptionSpec) (mixed : Bool) : List String → Except UsageError Scanned
  | [] => .ok {}
  | word :: rest =>
    if word = "--" then .ok { arguments := rest }
    else if Text.startsWith word "-" && word ≠ "-" then
      let (name, value) := splitValue word
      -- names of one letter are read below, several at once
      match (findOption? options name).filter fun _ => !isShort name with
      | some o =>
        if o.takesValue then
          match value, rest with
          | some v, rest => (scan options mixed rest).map (.after [⟨o.name, some v⟩])
          -- the next word is the value even if it looks like an option
          | none, v :: rest => (scan options mixed rest).map (.after [⟨o.name, some v⟩])
          | none, [] => .error (.needsValue name)
        else if value.isSome then .error (.takesNoValue name)
        else (scan options mixed rest).map (.after [⟨o.name, none⟩])
      | none =>
        if Text.startsWith word "--" then
          .error (.noSuchOption name (Text.closeMatches name (longNames options)))
        else do
          let uses ← readLetters options (word.toList.drop 1)
          (scan options mixed rest).map (.after uses)
    else if mixed then (scan options mixed rest).map (.withArgument word)
    else .ok { arguments := word :: rest }

/-- Whether an option is used. -/
def Scanned.has (s : Scanned) (name : String) : Bool := s.uses.any fun u => u.name = name

/-- The values given to an option, in order. -/
def valuesOf (uses : List OptionUse) (name : String) : List String :=
  uses.filterMap fun u => if u.name = name then u.value else none

/-- Sets options one by one, in the order of their first uses, each with all values given to it. -/
def readUses {α : Type} (set : α → String → List String → Except UsageError α) (start : α)
    (uses : List OptionUse) : Except UsageError α :=
  (uses.map (·.name)).eraseDups.foldlM (fun a name => set a name (valuesOf uses name)) start

end Scorecard.Command
