import EntityTypings.Command.Generate
import EntityTypings.Command.Inspect
import Std.Time.DateTime.Timestamp

/-!
# The program

Runs the two commands on the files of the system. The first argument says which
command it is, and the rest are its arguments. All that is decided is decided by
the commands; here the files are reached, the environment and the time are asked
for, and the report is printed. Settings files are read in the formats that this
library has by itself (`Layer.Formats.own`).
-/

namespace EntityTypings

/-- The number of an error of the system, which some operations give negated. -/
def errorNumber (code : UInt32) : Nat := (if code < 0x80000000 then code else 0 - code).toNat

/-- The reason for which an operation on a file of the system failed. -/
def FileError.ofSystem (e : IO.Error) : FileError :=
  match e with
  | .noFileOrDirectory _ _ _ => .notFound
  | .alreadyExists _ _ _ => .alreadyExists
  | .inappropriateType _ code _ | .invalidArgument _ code _ =>
    match errorNumber code with
    | 20 => .notADirectory
    | 21 => .isADirectory
    | 22 => .interiorNul
    | 36 => .nameTooLong
    | _ => .other (toString e)
  | e => .other (toString e)

/-- The outcome of an operation on a file of the system. -/
def attempt {α : Type} (operation : IO α) : IO (Except FileError α) := do
  try return .ok (← operation) catch e => return .error (.ofSystem e)

instance : FileAccess IO where
  read path := attempt (IO.FS.readBinFile path)
  write path contents := attempt (IO.FS.writeBinFile path contents)
  makeDirectory path := attempt (IO.FS.createDir path)
  kind? path := do
    match ← attempt (IO.FS.readBinFile path) with
    | .ok _ | .error (.other _) => return some .file
    | .error .isADirectory => return some .directory
    | .error _ => return none

/-- The variables of the environment whose definitions are text. -/
def readEnvironment : IO (List (String × String)) := do
  match ← attempt (IO.FS.readBinFile "/proc/self/environ") with
  | .error _ => return []
  | .ok bytes =>
    let definitions := (partsBetween 0 bytes.toList).filterMap (fun bs =>
      String.fromUTF8? ⟨bs.toArray⟩)
    return definitions.map (fun definition =>
      let cs := definition.toList
      (String.ofList (cs.takeWhile (· ≠ '=')), String.ofList ((cs.dropWhile (· ≠ '=')).drop 1)))

/-- The path of the user's settings file: in the directory for settings that is
named, if its path is absolute, and else in the usual one of the home directory. -/
def userFile (environment : List (String × String)) : Option String :=
  let name := "typegen/typegen.toml"
  match environment.lookup "XDG_CONFIG_HOME", environment.lookup "HOME" with
  | some directory, home =>
    if Path.isAbsolute directory then some (Path.join directory name)
    else home.map (fun h => Path.join (Path.join h ".config") name)
  | none, home => home.map (fun h => Path.join (Path.join h ".config") name)

/-- The present time. -/
def presentTime : IO Timestamp := do
  let t := (← Std.Time.Timestamp.now).toNanosecondsSinceUnixEpoch.val
  return ⟨t.fdiv Timestamp.secondNanos, (t.fmod Timestamp.secondNanos).toNat⟩

/-- What the commands find. -/
def surroundings : IO Surroundings := do
  let environment ← readEnvironment
  return ⟨userFile environment, environment, ← presentTime⟩

/-- Runs the command that the first argument names. -/
def runNamed (world : Surroundings) : List String → IO Report
  | "generate" :: arguments => GenerateCommand.run world arguments
  | "inspect" :: arguments => InspectCommand.run world arguments
  | _ => return .misused (GenerateCommand.usage ++ InspectCommand.usage)

end EntityTypings

open EntityTypings in
/-- The program. -/
def main (arguments : List String) : IO UInt32 := do
  let report ← runNamed (← surroundings) arguments
  IO.print report.output
  IO.eprint report.errors
  return report.exitCode.toUInt32
