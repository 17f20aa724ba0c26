import EntityTypings.Settings.Basic
import EntityTypings.Settings.Tree

/-!
# Settings from a tree

The settings that a tree says. A scalar is taken for what its setting needs: a
text setting takes any scalar as it is printed, a switch takes a number that
differs from zero and the usual words for yes and no, and a list of texts takes
any scalars. A group of settings is a table, or a list that gives the settings
of the group in order. What is not said keeps its default, and a name that no
setting has is ignored.
-/

namespace EntityTypings

namespace SettingTree

/-! ### Single settings -/

/-- The text that a scalar is printed as. -/
def asText? : SettingTree → Option String
  | text s => some s
  | boolean true => some "true"
  | boolean false => some "false"
  | integer n => some (toString n)
  | real x => some x.text
  | nothing | list _ | table _ => none

/-- A text that may be left out. -/
def asOptionalText? : SettingTree → Option (Option String)
  | nothing => some none
  | t => t.asText?.map some

/-- The answer that a word gives. -/
def answerOf? (word : String) : Option Bool :=
  if word ∈ ["1", "true", "on", "yes"] then some true
  else if word ∈ ["0", "false", "off", "no"] then some false
  else none

/-- The position of a switch. -/
def asSwitch? : SettingTree → Option Bool
  | boolean b => some b
  | integer n => some (n ≠ 0)
  | real x => some x.isNonzero
  | text s => answerOf? (lowerCase s)
  | nothing | list _ | table _ => none

/-- A list of texts. -/
def asTexts? : SettingTree → Option (List String)
  | list items => items.mapM asText?
  | _ => none

/-! ### Groups -/

/-- The values that a tree gives for the settings of a group. -/
def fields? (names : List String) : SettingTree → Option (List (Option SettingTree))
  | table es => some (names.map (fun name => es.lookup name))
  | list items =>
    some ((items.take names.length).map some ++ List.replicate (names.length - items.length) none)
  | _ => none

/-- A value as `read` reads it, or the default if there is none. -/
def orDefault {α : Type} (default : α) (read : SettingTree → Option α) :
    Option SettingTree → Option α
  | none => some default
  | some t => read t

end SettingTree

namespace Settings

open SettingTree

/-- The server settings that a tree says. -/
def serverOf? (t : SettingTree) : Option ServerSettings := do
  match ← t.fields? ["url", "version"] with
  | [url, version] =>
    return ⟨← orDefault none asOptionalText? url, ← orDefault none asOptionalText? version⟩
  | _ => none

/-- The input settings that a tree says. -/
def inputOf? (t : SettingTree) : Option InputSettings := do
  match ← t.fields? ["schemas", "custom_attributes"] with
  | [schemas, customAttributes] =>
    return ⟨← orDefault InputSettings.default.schemas asText? schemas,
      ← orDefault none asOptionalText? customAttributes⟩
  | _ => none

/-- The output settings that a tree says. -/
def outputOf? (t : SettingTree) : Option OutputSettings := do
  match ← t.fields? ["path", "filename"] with
  | [path, filename] =>
    return ⟨← orDefault OutputSettings.default.path asText? path,
      ← orDefault OutputSettings.default.filename asText? filename⟩
  | _ => none

/-- The generation settings that a tree says. -/
def generationOf? (t : SettingTree) : Option GenerationSettings := do
  match ← t.fields? ["legacy_schemas", "timestamp"] with
  | [legacySchemas, timestamp] =>
    return ⟨← orDefault GenerationSettings.default.legacySchemas asTexts? legacySchemas,
      ← orDefault GenerationSettings.default.timestamp asSwitch? timestamp⟩
  | _ => none

/-- The settings that a tree says. -/
def ofTree? (t : SettingTree) : Option Settings := do
  match ← t.fields? ["server", "input", "output", "generation"] with
  | [server, input, output, generation] =>
    return ⟨← orDefault .default serverOf? server, ← orDefault .default inputOf? input,
      ← orDefault .default outputOf? output, ← orDefault .default generationOf? generation⟩
  | _ => none

end Settings

end EntityTypings
