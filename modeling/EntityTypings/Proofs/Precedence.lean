import EntityTypings.Proofs.SettingAssignments
import EntityTypings.Proofs.TreeChanges
import Mathlib.Data.List.Forall2

/-!
# Which source of settings wins

Six sources say settings: three files of the working directory, the file of the user, an explicit
file and the environment; the options of the command come on top. `Said` is what the files of a
tree say, one layer for each (`Says`), and `Said.layers` puts them into their order, with the
environment last. A file can be in any of the formats that there are (`Layer.Formats`), and says what
the reader of its format makes of it. Nothing is asked of the readers, nor of the order in which
extensions are tried.

The main statement, `effectiveSettings_of_sources`, is for sources that can be read and set known
settings only, to values that these can have. Then the settings of a run are had, and each of them
is the one of its option if that is given, otherwise the one of the last source that sets it, and
otherwise its default. Each setting is decided on its own, so a source that sets some settings of a
group leaves the others to the sources before it, and a list is taken from one source.

Layers that set known settings are tables of groups, or paths to a setting in its group. A path to
a single element of a list is not among them, because with it a list is not set as a whole.
-/

namespace EntityTypings

open FileTree.Run Layer

namespace Settings

/-! ### Readings in order -/

section

variable {t : FileTree}

/-- A reading gives a layer and changes nothing. -/
def Gives (t : FileTree) (reading : FileTree.Run (Except SettingsFault Layer)) (layer : Layer) :
    Prop :=
  ReadsOnly reading ∧ answer reading t = .ok layer

/-- Readings that give layers give them in order. -/
theorem answer_inOrder {readings : List (FileTree.Run (Except SettingsFault Layer))}
    {layers : List Layer} (h : List.Forall₂ (Gives t) readings layers) :
    answer (inOrder readings) t = .ok layers := by
  induction h with
  | nil => rfl
  | cons hgives _ ih =>
    obtain ⟨hreads, hanswer⟩ := hgives
    rw [inOrder, answer_bind, hanswer, hreads.treeAfter, answer_bind, ih]
    rfl

/-- A reading of an optional file gives its layer, if there is one. -/
private theorem forall₂_toList {read : String → FileTree.Run (Except SettingsFault Layer)}
    {R : String → Layer → Prop} (hread : ∀ name layer, R name layer → Gives t (read name) layer)
    {file : Option String} {layer : Option Layer} (h : Option.Rel R file layer) :
    List.Forall₂ (Gives t) (file.toList.map read) layer.toList := by
  cases h with
  | none => exact .nil
  | some h => exact .cons (hread _ _ h) .nil

end

variable [Formats]

/-! ### What files say -/

/-- There is a file to which a name leads, and it says a layer in the format of its extension. -/
def FileSays (t : FileTree) (name : String) (layer : Layer) : Prop :=
  ∃ path extension text, answer (readNamed name) t = .ok (path, extension, text) ∧
    parse? extension text = some layer

/-- A file that may be missing says a layer, the empty one if it is missing. -/
inductive MayFileSay (t : FileTree) (name : String) : Layer → Prop
  /-- The file is there. -/
  | there {layer : Layer} (h : FileSays t name layer) : MayFileSay t name layer
  /-- The name leads to no file. -/
  | missing (h : answer (findFile name) t = .error (.missing name)) : MayFileSay t name []

/-- The user's file says a layer, the empty one if nothing is at its path. -/
inductive UserFileSays (t : FileTree) (path : String) : Layer → Prop
  /-- Something is there. -/
  | there {layer : Layer} (hkind : (t.kind? path).isSome) (h : MayFileSay t path layer) :
    UserFileSays t path layer
  /-- Nothing is there. -/
  | missing (hkind : t.kind? path = none) : UserFileSays t path []

/-- The layers that the files of settings say. -/
structure Said where
  /-- The layer of `typegen.toml`. -/
  plain : Layer
  /-- The layer of `.typegen.toml`. -/
  hidden : Layer
  /-- The layer of `config/typegen.toml`. -/
  nested : Layer
  /-- The layer of the user's file, if there is a place for one. -/
  user : Option Layer
  /-- The layer of the explicit file, if one is named. -/
  explicit : Option Layer

/-- The files of a tree say the given layers. -/
structure Says (t : FileTree) (sources : Sources) (said : Said) : Prop where
  /-- The first file of the working directory. -/
  plain : MayFileSay t "typegen.toml" said.plain
  /-- The second one. -/
  hidden : MayFileSay t ".typegen.toml" said.hidden
  /-- The third one. -/
  nested : MayFileSay t "config/typegen.toml" said.nested
  /-- The file of the user. -/
  user : Option.Rel (UserFileSays t) sources.userFile said.user
  /-- The explicit file, which has to be there. -/
  explicit : Option.Rel (FileSays t) sources.explicitFile said.explicit

/-- The layers of all files, the weakest first. -/
def Said.files (said : Said) : List Layer :=
  [said.plain, said.hidden, said.nested] ++ said.user.toList ++ said.explicit.toList

/-- The layers of all sources, the weakest first. -/
def Said.layers (said : Said) (sources : Sources) : List Layer :=
  said.files ++ [Environment.settings sources.environment]

/-! ### Reading files -/

section

variable {t : FileTree} {name path : String} {layer : Layer}

theorem answer_requiredLayer (h : FileSays t name layer) :
    answer (requiredLayer name) t = .ok layer := by
  obtain ⟨path, extension, text, hread, hparse⟩ := h
  rw [requiredLayer, answer_bind, hread]
  show layerOf path extension text = _
  rw [layerOf, hparse]

theorem answer_optionalLayer (h : MayFileSay t name layer) :
    answer (optionalLayer name) t = .ok layer := by
  cases h with
  | there h =>
    obtain ⟨path, extension, text, hread, hparse⟩ := h
    rw [optionalLayer, answer_bind, hread]
    show layerOf path extension text = _
    rw [layerOf, hparse]
  | missing h =>
    rw [optionalLayer, answer_bind, readNamed, answer_bind, h]
    rfl

theorem answer_userLayer (h : UserFileSays t path layer) :
    answer (userLayer path) t = .ok layer := by
  have hexists : answer (FileAccess.pathExists path) t = (t.kind? path).isSome := rfl
  rw [userLayer, answer_bind, hexists, (readsOnly_pathExists path).treeAfter]
  cases h with
  | there hkind h => rw [if_pos hkind, answer_optionalLayer h]
  | missing hkind =>
    rw [hkind]
    rfl

end

/-- The files are read as they say. -/
theorem answer_fileLayers {t : FileTree} {sources : Sources} {said : Said}
    (h : Says t sources said) : answer (fileLayers sources) t = .ok said.files := by
  have hlocal (name : String) {layer : Layer} (h : MayFileSay t name layer) :
      Gives t (optionalLayer name) layer :=
    ⟨readsOnly_optionalLayer name, answer_optionalLayer h⟩
  refine answer_inOrder (List.rel_append (List.rel_append ?_ ?_) ?_)
  · exact .cons (hlocal _ h.plain) (.cons (hlocal _ h.hidden) (.cons (hlocal _ h.nested) .nil))
  · exact forall₂_toList (fun path _ h => ⟨readsOnly_userLayer path, answer_userLayer h⟩) h.user
  · exact forall₂_toList (fun name _ h => ⟨readsOnly_requiredLayer name, answer_requiredLayer h⟩)
      h.explicit

/-- The settings that are loaded are those that the layers say together. -/
theorem answer_load {t : FileTree} {sources : Sources} {said : Said} (h : Says t sources said) :
    answer (load sources) t = ofLayers (said.layers sources) := by
  rw [load, answer_bind, answer_fileLayers h]
  rfl

end Settings

/-! ### Options -/

open Arguments

/-- The value of a setting that options give. -/
def Setting.given? : (n : Setting) → Given → Option n.Value
  | url, g => (g.value? "server-url").map some
  | version, g => (g.value? "server-version").map some
  | schemas, g => g.value? "schemas"
  | customAttributes, g => (g.value? "custom-attributes").map some
  | path, g => g.value? "output"
  | filename, g => g.value? "filename"
  | legacySchemas, _ => none
  | timestamp, g => if g.has "no-timestamp" then some false else none

private theorem or_eq_getD_map {α : Type} (x y : Option α) : x.or y = (x.map some).getD y := by
  cases x <;> rfl

/-- Options win over settings, each over its own. -/
theorem Setting.of_override (n : Setting) (g : Given) (s : Settings) :
    n.of (GenerateCommand.override g s) = (n.given? g).getD (n.of s) := by
  cases n with
  | url | version | customAttributes => exact or_eq_getD_map _ _
  | schemas | path | filename | legacySchemas => rfl
  | timestamp =>
    show (s.generation.timestamp && !g.has "no-timestamp") =
      (if g.has "no-timestamp" then some false else none).getD s.generation.timestamp
    cases g.has "no-timestamp" <;> simp

namespace GenerateCommand

/-- **Each setting is that of its option, or of the last source that sets it, or its default**,
whatever formats there are. -/
theorem effectiveSettings_of_sources [Formats] {world : Surroundings} {g : Given} {t : FileTree}
    {said : Settings.Said} (hfiles : Settings.Says t (world.sources (g.value? "config")) said)
    (hknown : ∀ layer ∈ said.layers (world.sources (g.value? "config")), layer.SetsKnown) :
    ∃ s, answer (effectiveSettings world g) t = .ok s ∧ ∀ n : Setting, n.of s =
      (n.given? g).getD
        ((n.lastSaid (said.layers (world.sources (g.value? "config")))).getD n.default) := by
  obtain ⟨s, hs, hof⟩ := Settings.ofLayers_of_setsKnown hknown
  refine ⟨override g s, ?_, fun n => ?_⟩
  · rw [effectiveSettings, answer_bind, Settings.answer_load hfiles, hs]
    rfl
  · rw [Setting.of_override, hof]

/-- What a line says that has a name, a colon and a blank, and a word or one in brackets. -/
def sayingOf? (line : List Char) : Option (String × SettingTree) :=
  match partsBetween ':' line with
  | [name, ' ' :: '[' :: word] =>
    some (String.ofList name, .list [.text (String.ofList word.dropLast)])
  | [name, ' ' :: word] => some (String.ofList name, .text (String.ofList word))
  | _ => none

/-- A reader of such lines, which are objects in the format `yaml`. -/
def ofLines? : Layer.Reader := fun text => (partsBetween '\n' text.toList).dropLast.mapM sayingOf?

/-- A file with the address and the version of the server and the directory for the source. -/
def plainText : String :=
  "[server]\nurl = \"http://a\"\nversion = \"1\"\n[output]\npath = \"out\"\n"

/-- A file with the path of the schemas and the version of the server. -/
def hiddenText : String := "input.schemas: hidden.json\nserver.version: beta\n"

/-- A file with the version of the server and two ids. -/
def nestedText : String :=
  "[server]\nversion = \"2\"\n[generation]\nlegacy_schemas = [\"A\", \"B\"]\n"

/-- A file with one id. -/
def explicitText : String := "generation.legacy_schemas: [Old]\n"

/-- Four files of settings, in two formats. -/
def layeredTree : FileTree :=
  ⟨[(["typegen.toml"], .file plainText.toUTF8), ([".typegen.toml.yml"], .file hiddenText.toUTF8),
    (["config"], .directory), (["config", "typegen.toml"], .file nestedText.toUTF8),
    (["settings.yaml"], .file explicitText.toUTF8)], []⟩

/-- An environment that names the file and the directory for the source. -/
def namingWorld : Surroundings :=
  ⟨some "user/typegen.toml",
    [("TYPEGEN__OUTPUT__FILENAME", "f.ts"), ("TYPEGEN__OUTPUT__PATH", "env")], ⟨0, 0⟩⟩

/-- Options that name the explicit file and the directory for the source, which has no time. -/
def namingOptions : Given :=
  ⟨[("config", "settings.yaml"), ("output", "gen"), ("no-timestamp", "")], [], none⟩

/-- What the four files say. -/
def layeredSaid : Settings.Said where
  plain := [("server", .table [("url", .text "http://a"), ("version", .text "1")]),
    ("output", .table [("path", .text "out")])]
  hidden := [("input.schemas", .text "hidden.json"), ("server.version", .text "beta")]
  nested := [("server", .table [("version", .text "2")]),
    ("generation", .table [("legacy_schemas", .list [.text "A", .text "B"])])]
  user := some []
  explicit := some [("generation.legacy_schemas", .list [.text "Old"])]

section

/-- The six formats, of which the files here use two; the last extension is tried first. -/
local instance lineFormats : Formats :=
  .six ⟨ofLines?, fun _ => none, fun _ => none, fun _ => none⟩ _ (List.reverse_perm _)

set_option maxRecDepth 20000 in
theorem said_layeredTree :
    Settings.Says layeredTree (namingWorld.sources (namingOptions.value? "config"))
      layeredSaid where
  plain := by
    have hchars : plainText.toList = _ := String.toList_ofList
    refine .there ⟨"typegen.toml", "toml", plainText, by decide +kernel, ?_⟩
    rw [parse?_of_mem Formats.document_mem, ofDocument?, Toml.parse, hchars]
    rfl
  hidden := .there ⟨".typegen.toml.yml", "yml", hiddenText, by decide +kernel, rfl⟩
  nested := by
    have hchars : nestedText.toList = _ := String.toList_ofList
    refine .there ⟨"config/typegen.toml", "toml", nestedText, by decide +kernel, ?_⟩
    rw [parse?_of_mem Formats.document_mem, ofDocument?, Toml.parse, hchars]
    rfl
  user := .some (.missing rfl)
  explicit := .some ⟨"settings.yaml", "yaml", explicitText, by decide +kernel, rfl⟩

/-- The address is the one of the first file, the version the one of the third, and the path of the
schemas the one of the second, which is found by an added extension; the ids are those of the
explicit file alone; the directory is the one of its option, the file the one of the environment,
and there is no path of configurations. -/
theorem effectiveSettings_of_layeredTree :
    answer (effectiveSettings namingWorld namingOptions) layeredTree =
      .ok ⟨⟨some "http://a", some "2"⟩, ⟨"hidden.json", none⟩, ⟨"gen", "f.ts"⟩,
        ⟨["Old"], false⟩⟩ := by
  have hknown : ∀ layer ∈ layeredSaid.layers (namingWorld.sources (namingOptions.value? "config")),
      layer.SetsKnown := by decide +kernel
  obtain ⟨s, hs, hof⟩ := effectiveSettings_of_sources said_layeredTree hknown
  have hsettings : s = Setting.settings fun n => n.of s := (Setting.settings_of s).symm
  rw [hs, hsettings, funext hof]
  exact congrArg Except.ok (by decide +kernel)

end

end GenerateCommand

end EntityTypings
