import Scorecard.Command.Run

set_option autoImplicit false

/-! # What a command can reach

A command reads single files, whose names it knows, and at most one whole code base. Everything else
in the file system makes no difference to it.
-/

namespace Scorecard.Command

/-- The files in which a configuration may be. -/
def configPaths (repository : Path) (named : Option Path) : List Path :=
  match named with
  | some path => [repository.join path]
  | none =>
      (configNames ++ [projectName]).map fun name => repository.join
        { absolute := false, parts := [name] }

/-- The single files that are looked at. -/
def Invocation.files : Invocation → List Path
  | score o => configPaths o.path o.configFile ++ o.factsFile.toList
  | facts o => configPaths o.path o.configFile
  | rules o | config o | validate o => configPaths o.repository o.configFile
  | writeStarter o => [o.target]
  | help | version | completion => []

/-- The code base that is looked at. -/
def Invocation.codebase? : Invocation → Option Path
  | score o => if o.factsFile.isSome then none else some o.path
  | facts o => some o.path
  | _ => none

end Scorecard.Command
