import EntityTypings.Files.Access
import EntityTypings.Settings.Decode
import EntityTypings.Settings.Environment
import EntityTypings.Settings.Formats

/-!
# Layers of settings

Settings are said by several files and by the environment, a later one winning
over an earlier one for each setting: the three files that belong to the working
directory, the file of the user, the file that is named explicitly, and last the
environment. All but the explicit file may be missing or unreadable, as a file is
whose contents are not text; none may be malformed.

A name that leads to no file is tried with the extensions of the known formats
appended, and the extension of a file says its format. Which formats are known is
a parameter (`Layer.Formats`). A top-level name in a file can be a path to a
setting or to an element of a list.
-/

namespace EntityTypings

/-- Why no settings can be had. -/
inductive SettingsFault where
  /-- A file that is required is not there. -/
  | missing (path : String)
  /-- A file has no known format. -/
  | unknownFormat (path : String)
  /-- A file cannot be read. -/
  | unreadable (path : String) (error : FileError)
  /-- A file is not what its format asks for. -/
  | malformed (path : String)
  /-- A setting has a value of the wrong kind. -/
  | wrongKind
  deriving DecidableEq, Repr

/-- The wording of a fault. Readers and decoders have more to say of what they cannot use; the words
for the last two faults are this library's own. -/
def SettingsFault.message : SettingsFault → String
  | missing path => "configuration file \"" ++ path ++ "\" not found"
  | unknownFormat path =>
    "configuration file \"" ++ path ++ "\" is not of a registered file format"
  | unreadable _ error => error.message
  | malformed path => "invalid syntax in " ++ path
  | wrongKind => "a setting has a value of the wrong type"

namespace Layer

/-! ### Putting layers together -/

/-- The tree with a value put where its name leads. -/
def putNamed (t : SettingTree) (e : String × SettingTree) : SettingTree :=
  SettingTree.putAt e.2 (SettingStep.path e.1) t

/-- The tree with everything that a layer says. -/
def onto (t : SettingTree) (layer : Layer) : SettingTree := layer.foldl putNamed t

/-- The tree that layers make together. -/
def combine (layers : List Layer) : SettingTree := layers.foldl onto (.table [])

end Layer

namespace Settings

open Layer

variable {m : Type → Type} [Monad m] [FileAccess m] [Formats]

/-! ### Reading files -/

/-- The first of some paths that leads to a file. -/
def firstFile : List (String × String) → m (Option (String × String))
  | [] => return none
  | (path, extension) :: rest => do
    if ← FileAccess.isFile path then return some (path, extension) else firstFile rest

/-- A name with the extensions of all formats added to it. -/
def extended (name : String) : List (String × String) :=
  Formats.readers.filterMap (fun r => (Path.addExtension? name r.1).map (·, r.1))

/-- The file that a name leads to, with its extension. -/
def findFile (name : String) : m (Except SettingsFault (String × String)) := do
  if ← FileAccess.isFile name then
    return match (Path.extension? name).filter Formats.knows with
      | some extension => .ok (name, extension)
      | none => .error (.unknownFormat name)
  else
    return match ← firstFile (extended name) with
      | some found => .ok found
      | none => .error (.missing name)

/-- The text of the file that a name leads to, with its path and its extension. -/
def readNamed (name : String) : m (Except SettingsFault (String × String × String)) := do
  match ← findFile name with
  | .error fault => return .error fault
  | .ok (path, extension) =>
    match ← FileAccess.readText path with
    | .error e => return .error (.unreadable path e)
    | .ok text => return .ok (path, extension, text)

/-- What a text that was read says. -/
def layerOf (path extension text : String) : Except SettingsFault Layer :=
  match parse? extension text with
  | some layer => .ok layer
  | none => .error (.malformed path)

/-- What a file says that has to be there. -/
def requiredLayer (name : String) : m (Except SettingsFault Layer) := do
  match ← readNamed name with
  | .error fault => return .error fault
  | .ok (path, extension, text) => return layerOf path extension text

/-- What a file says that may be missing or unreadable. -/
def optionalLayer (name : String) : m (Except SettingsFault Layer) := do
  match ← readNamed name with
  | .error _ => return .ok []
  | .ok (path, extension, text) => return layerOf path extension text

/-- What the file of the user says; other names are tried only if it is there. -/
def userLayer (path : String) : m (Except SettingsFault Layer) := do
  if ← FileAccess.pathExists path then optionalLayer path else return .ok []

/-- Runs readings in order up to the first fault. -/
def inOrder : List (m (Except SettingsFault Layer)) → m (Except SettingsFault (List Layer))
  | [] => return .ok []
  | reading :: rest => do
    match ← reading with
    | .error fault => return .error fault
    | .ok layer => return (← inOrder rest).map (layer :: ·)

/-! ### Loading -/

/-- The files that belong to the working directory, the weakest first. -/
def localFiles : List String := ["typegen.toml", ".typegen.toml", "config/typegen.toml"]

/-- Where settings come from besides the files of the working directory. -/
structure Sources where
  /-- The path of the user's file, if there is a place for one. -/
  userFile : Option String
  /-- The name of the explicit file. -/
  explicitFile : Option String
  /-- The variables of the environment. -/
  environment : List (String × String)

/-- The files' layers, the weakest first. -/
def fileLayers (sources : Sources) : m (Except SettingsFault (List Layer)) :=
  inOrder (localFiles.map optionalLayer ++ sources.userFile.toList.map userLayer
    ++ sources.explicitFile.toList.map requiredLayer)

/-- The settings that layers say together. -/
def ofLayers (layers : List Layer) : Except SettingsFault Settings :=
  match ofTree? (combine layers) with
  | some s => .ok s
  | none => .error .wrongKind

/-- The settings that all sources say together. -/
def load (sources : Sources) : m (Except SettingsFault Settings) := do
  match ← fileLayers sources with
  | .error fault => return .error fault
  | .ok layers => return ofLayers (layers ++ [Environment.settings sources.environment])

end Settings

end EntityTypings
