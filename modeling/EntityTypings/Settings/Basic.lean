import EntityTypings.Files.Access
import EntityTypings.Generation
import EntityTypings.Json.Record
import EntityTypings.Toml.Writer

/-!
# Settings

What the commands can be told once and for all: which server the catalogs come
from, where they are saved, where the generated source goes, which schemas are
left out and whether the source carries a time. Every setting has a default.

Settings are written as a document with one section for each group, in which a
setting that is not given is left out, and as JSON with every setting.
-/

namespace EntityTypings

/-- The server that the catalogs come from, for the preamble. -/
structure ServerSettings where
  /-- The address of the server. -/
  url : Option String
  /-- The version of the server. -/
  version : Option String
  deriving DecidableEq, Repr

/-- Where the responses of the server are saved. -/
structure InputSettings where
  /-- The path of the response with the schemas. -/
  schemas : String
  /-- The path of the response with the custom attributes. -/
  customAttributes : Option String
  deriving DecidableEq, Repr

/-- Where the generated source goes. -/
structure OutputSettings where
  /-- The path of the directory. -/
  path : String
  /-- The name of the file. -/
  filename : String
  deriving DecidableEq, Repr

/-- How the source is generated. -/
structure GenerationSettings where
  /-- The ids of the schemas that are left out. -/
  legacySchemas : List String
  /-- Whether the preamble has the time of generation. -/
  timestamp : Bool
  deriving DecidableEq, Repr

/-- All settings. -/
structure Settings where
  /-- The server that the catalogs come from. -/
  server : ServerSettings
  /-- Where its responses are saved. -/
  input : InputSettings
  /-- Where the generated source goes. -/
  output : OutputSettings
  /-- How the source is generated. -/
  generation : GenerationSettings
  deriving DecidableEq, Repr

/-! ### Defaults -/

/-- No server is named. -/
def ServerSettings.default : ServerSettings := ⟨none, none⟩

/-- Only the schemas are read. -/
def InputSettings.default : InputSettings := ⟨"query_schemas.json", none⟩

/-- The source goes to a directory for generated files. -/
def OutputSettings.default : OutputSettings := ⟨"__generated__", "schema.ts"⟩

/-- The legacy schemas are left out, and the source has a time. -/
def GenerationSettings.default : GenerationSettings := ⟨Generation.legacySchemas, true⟩

namespace Settings

/-- The settings when nothing is said. -/
def default : Settings := ⟨.default, .default, .default, .default⟩

/-! ### What the settings mean -/

/-- The path of the generated source. -/
def outputFile (s : Settings) : String := Path.join s.output.path s.output.filename

/-- The options of a run at the given time. -/
def options (s : Settings) (now : Timestamp) : Generation.Options where
  serverVersion := s.server.version
  serverUrl := s.server.url
  generatedAt := if s.generation.timestamp then some now else none
  skipped := s.generation.legacySchemas

/-! ### Settings as a document -/

/-- An entry for a setting that may be left out. -/
def optionalEntry (name : String) (value : Option String) : List (String × Toml.Plain) :=
  (value.map (fun s => (name, .string s))).toList

/-- The sections of the document. -/
def sections (s : Settings) : List Toml.Section :=
  [⟨"server", optionalEntry "url" s.server.url ++ optionalEntry "version" s.server.version⟩,
    ⟨"input", ("schemas", .string s.input.schemas) ::
      optionalEntry "custom_attributes" s.input.customAttributes⟩,
    ⟨"output", [("path", .string s.output.path), ("filename", .string s.output.filename)]⟩,
    ⟨"generation", [("legacy_schemas", .strings s.generation.legacySchemas),
      ("timestamp", .boolean s.generation.timestamp)]⟩]

/-- The document as text. -/
def toToml (s : Settings) : String := Toml.render s.sections

/-- Writes the document into a file. -/
def save {m : Type → Type} [FileAccess m] (s : Settings) (path : String) :
    m (Except FileError Unit) := FileAccess.writeText path s.toToml

/-! ### Settings as JSON -/

open Json Json.Record

/-- All settings as JSON, `null` for one that is not given. -/
def toJson (s : Settings) : Json :=
  .object
    [("server", .object
      [("url", orNull (s.server.url.map .string)),
        ("version", orNull (s.server.version.map .string))]),
      ("input", .object
        [("schemas", .string s.input.schemas),
          ("custom_attributes", orNull (s.input.customAttributes.map .string))]),
      ("output", .object
        [("path", .string s.output.path), ("filename", .string s.output.filename)]),
      ("generation", .object
        [("legacy_schemas", strings s.generation.legacySchemas),
          ("timestamp", .bool s.generation.timestamp)])]

/-- The server settings that a value stands for. -/
def serverOfJson? (j : Json) : Option ServerSettings := do
  match ← byNameOrPosition ["url", "version"] j with
  | [url, version] => return ⟨← optional asString? url, ← optional asString? version⟩
  | _ => none

/-- The input settings that a value stands for. -/
def inputOfJson? (j : Json) : Option InputSettings := do
  match ← byNameOrPosition ["schemas", "custom_attributes"] j with
  | [schemas, customAttributes] =>
    return ⟨← defaulted InputSettings.default.schemas asString? schemas,
      ← optional asString? customAttributes⟩
  | _ => none

/-- The output settings that a value stands for. -/
def outputOfJson? (j : Json) : Option OutputSettings := do
  match ← byNameOrPosition ["path", "filename"] j with
  | [path, filename] =>
    return ⟨← defaulted OutputSettings.default.path asString? path,
      ← defaulted OutputSettings.default.filename asString? filename⟩
  | _ => none

/-- The generation settings that a value stands for. -/
def generationOfJson? (j : Json) : Option GenerationSettings := do
  match ← byNameOrPosition ["legacy_schemas", "timestamp"] j with
  | [legacySchemas, timestamp] =>
    return ⟨← defaulted GenerationSettings.default.legacySchemas asStrings? legacySchemas,
      ← defaulted GenerationSettings.default.timestamp asBool? timestamp⟩
  | _ => none

/-- The settings that a value stands for. -/
def ofJson? (j : Json) : Option Settings := do
  match ← byNameOrPosition ["server", "input", "output", "generation"] j with
  | [server, input, output, generation] =>
    return ⟨← defaulted .default serverOfJson? server, ← defaulted .default inputOfJson? input,
      ← defaulted .default outputOfJson? output,
      ← defaulted .default generationOfJson? generation⟩
  | _ => none

/-- Settings are read back from their JSON. -/
theorem ofJson?_toJson (s : Settings) : ofJson? s.toJson = some s := by
  obtain ⟨⟨url, version⟩, ⟨schemas, attributes⟩, ⟨path, filename⟩, ⟨legacy, timestamp⟩⟩ := s
  have hs : serverOfJson? (.object [("url", orNull (url.map .string)),
      ("version", orNull (version.map .string))]) = some ⟨url, version⟩ := by
    cases url <;> cases version <;> rfl
  have hi : inputOfJson? (.object [("schemas", .string schemas),
      ("custom_attributes", orNull (attributes.map .string))]) = some ⟨schemas, attributes⟩ := by
    cases attributes <;> rfl
  have ho : outputOfJson? (.object [("path", .string path), ("filename", .string filename)])
      = some ⟨path, filename⟩ := rfl
  have hg : generationOfJson? (.object [("legacy_schemas", strings legacy),
      ("timestamp", .bool timestamp)]) = some ⟨legacy, timestamp⟩ := by
    simp [generationOfJson?, byNameOrPosition, byName, field?, asBool?]
  simp [toJson, ofJson?, byNameOrPosition, byName, field?, hs, hi, ho, hg]

end Settings

end EntityTypings
