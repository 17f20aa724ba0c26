import EntityTypings.Files.Path

/-!
# Access to files

What the program does with files: it reads a whole file, writes a whole file,
makes a directory and asks what a path leads to. `FileAccess` names these four
operations, so that the commands can be run on real files as well as on a file
tree held in memory, of which statements can be proved.

`createDirectories` makes a directory with all that lead to it.
-/

namespace EntityTypings

/-- Why an operation on a file fails. -/
inductive FileError where
  /-- Nothing is there. -/
  | notFound
  /-- Something that is not a directory stands on the way. -/
  | notADirectory
  /-- A directory stands in the place of a file. -/
  | isADirectory
  /-- Something is there already. -/
  | alreadyExists
  /-- A name is longer than names may be. -/
  | nameTooLong
  /-- A path contains the character that ends paths. -/
  | interiorNul
  /-- The contents are not text. -/
  | notText
  /-- Any other reason, in the words of the system. -/
  | other (reason : String)
  deriving DecidableEq, Repr

/-- The wording of an error. -/
def FileError.message : FileError → String
  | notFound => "No such file or directory (os error 2)"
  | notADirectory => "Not a directory (os error 20)"
  | isADirectory => "Is a directory (os error 21)"
  | alreadyExists => "File exists (os error 17)"
  | nameTooLong => "File name too long (os error 36)"
  | interiorNul => "file name contained an unexpected NUL byte"
  | notText => "stream did not contain valid UTF-8"
  | other reason => reason

/-- What a path can lead to. -/
inductive FileKind where
  /-- A file with contents. -/
  | file
  /-- A directory. -/
  | directory
  deriving DecidableEq, Repr

/-- The operations on files. -/
class FileAccess (m : Type → Type) where
  /-- The contents of a file. -/
  read : String → m (Except FileError ByteArray)
  /-- Puts contents into a file, which is created if it is not there. -/
  write : String → ByteArray → m (Except FileError Unit)
  /-- Makes a directory in one that is there. -/
  makeDirectory : String → m (Except FileError Unit)
  /-- What a path leads to, if anything. -/
  kind? : String → m (Option FileKind)

namespace FileAccess

variable {m : Type → Type} [Monad m] [FileAccess m]

/-- The contents of a file that is text. -/
def readText (path : String) : m (Except FileError String) := do
  match ← read path with
  | .error e => return .error e
  | .ok bytes =>
    match String.fromUTF8? bytes with
    | some text => return .ok text
    | none => return .error .notText

/-- Puts a text into a file. -/
def writeText (path text : String) : m (Except FileError Unit) := write path text.toUTF8

/-- Whether a path leads to anything. -/
def pathExists (path : String) : m Bool := return (← kind? path).isSome

/-- Whether a path leads to a file. -/
def isFile (path : String) : m Bool := return (← kind? path) = some .file

/-- Whether a path leads to a directory. -/
def isDirectory (path : String) : m Bool := return (← kind? path) = some .directory

/-- The outcome of making a directory where one that is there already is as good. -/
def settled (path : String) : Except FileError Unit → m (Except FileError Unit)
  | .ok () => return .ok ()
  | .error e => return if ← isDirectory path then .ok () else .error e

/-- Makes a directory, after those of `ways` that are missing on the way to it,
the nearest first. -/
def createAfter (path : String) : (ways : List String) → m (Except FileError Unit)
  | [] => do settled path (← makeDirectory path)
  | way :: ways => do
    match ← makeDirectory path with
    | .error .notFound =>
      match ← createAfter way ways with
      | .error e => return .error e
      | .ok () => settled path (← makeDirectory path)
    | outcome => settled path outcome

/-- Makes a directory with all that lead to it; the empty path needs none. -/
def createDirectories (path : String) : m (Except FileError Unit) :=
  if path = "" then pure (.ok ()) else createAfter path (Path.ancestors path)

end FileAccess

end EntityTypings
