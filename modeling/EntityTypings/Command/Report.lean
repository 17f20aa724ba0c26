import EntityTypings.Command.Arguments
import EntityTypings.Failure
import EntityTypings.Files.Access
import EntityTypings.Settings.Layers

/-!
# Reports of commands

What a command leaves besides files: its exit status and the texts that it
prints. A command ends with status 0 if it did its work, 1 if it could not, and
2 if its arguments were wrong.
-/

namespace EntityTypings

/-- What a command prints, and how it ends. -/
structure Report where
  /-- The exit status. -/
  exitCode : Nat
  /-- The text on the standard output. -/
  output : String
  /-- The text on the standard error. -/
  errors : String
  deriving DecidableEq, Repr

namespace Report

/-- The end of a command that could not do its work, for a reason. -/
def failed (reason : String) : Report := ⟨1, "", "Error: " ++ reason ++ "\n"⟩

/-- The end of a command whose arguments are wrong. -/
def misused (usage : String) : Report := ⟨2, "", usage⟩

/-- The end of a command that was asked for help. -/
def helped (usage : String) : Report := ⟨0, usage, ""⟩

/-- The end of a command whose arguments were not read to their end. -/
def halted (usage : String) : Arguments.Halt → Report
  | .help => helped usage
  | .misuse => misused usage

end Report

/-- What a command finds besides its arguments and the files. -/
structure Surroundings where
  /-- The path of the user's settings file, if there is a place for one. -/
  userFile : Option String
  /-- The variables of the environment. -/
  environment : List (String × String)
  /-- The present time. -/
  now : Timestamp

/-- Where settings come from, given the name of an explicit file. -/
def Surroundings.sources (s : Surroundings) (explicitFile : Option String) : Settings.Sources :=
  ⟨s.userFile, explicitFile, s.environment⟩

/-- A failure with the reasons behind it: a file's failure has its reason once more. -/
def Failure.chain : Failure → String
  | .file reason => (Failure.file reason).message ++ ": " ++ reason
  | failure => failure.message

end EntityTypings
