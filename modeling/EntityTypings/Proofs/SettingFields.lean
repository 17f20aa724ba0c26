import EntityTypings.Settings.Layers

/-!
# Settings one by one

The settings are a record of four groups, and a tree says them in four tables. Here both are taken
field by field: `Setting` names the eight settings, `Setting.of` is the value of one in the record
and `Setting.heard` what a tree says of one, its default if it says nothing. On a tree whose groups
are tables (`Grouped`), the settings of the tree are those that it says one by one
(`ofTree?_eq_some_iff`).
-/

namespace EntityTypings

/-! ### Groups of a tree -/

namespace SettingTree

/-- The tree is a table. -/
def IsTable : SettingTree → Prop
  | table _ => True
  | _ => False

instance : DecidablePred IsTable
  | table _ => .isTrue trivial
  | nothing | boolean _ | integer _ | real _ | text _ | list _ => .isFalse id

/-- The value that a tree has for a setting, named after its group. -/
def at? (t : SettingTree) (key : String × String) : Option SettingTree :=
  (t.entries.lookup key.1).bind fun group => group.entries.lookup key.2

/-- If the tree has a value for the group, that is a table. -/
def HasGroup (t : SettingTree) (name : String) : Prop :=
  ∀ group, t.entries.lookup name = some group → group.IsTable

/-- The tree is a table of tables. -/
structure Grouped (t : SettingTree) : Prop where
  /-- The tree is a table. -/
  isTable : t.IsTable
  /-- So are its groups. -/
  hasGroup : ∀ name, t.HasGroup name

theorem fields?_of_isTable {t : SettingTree} (h : t.IsTable) (names : List String) :
    t.fields? names = some (names.map fun name => t.entries.lookup name) := by
  cases t with
  | table es => rfl
  | _ => cases h

end SettingTree

open SettingTree

/-! ### The settings -/

/-- A setting. -/
inductive Setting where
  /-- The address of the server. -/
  | url
  /-- The version of the server. -/
  | version
  /-- The path of the response with the schemas. -/
  | schemas
  /-- The path of the response with the custom attributes. -/
  | customAttributes
  /-- The path of the directory for the source. -/
  | path
  /-- The name of the file for the source. -/
  | filename
  /-- The ids of the schemas that are left out. -/
  | legacySchemas
  /-- Whether the preamble has the time of generation. -/
  | timestamp
  deriving DecidableEq, Repr

namespace Setting

/-- The values that a setting can have. -/
abbrev Value : Setting → Type
  | url | version | customAttributes => Option String
  | schemas | path | filename => String
  | legacySchemas => List String
  | timestamp => Bool

/-- All settings. -/
def all : List Setting :=
  [url, version, schemas, customAttributes, path, filename, legacySchemas, timestamp]

theorem mem_all (n : Setting) : n ∈ all := by cases n <;> decide

/-- The name of the group of a setting. -/
def group : Setting → String
  | url | version => "server"
  | schemas | customAttributes => "input"
  | path | filename => "output"
  | legacySchemas | timestamp => "generation"

/-- The name of a setting in its group. -/
def name : Setting → String
  | url => "url"
  | version => "version"
  | schemas => "schemas"
  | customAttributes => "custom_attributes"
  | path => "path"
  | filename => "filename"
  | legacySchemas => "legacy_schemas"
  | timestamp => "timestamp"

/-- The name of the group with the name in it. -/
def key (n : Setting) : String × String := (n.group, n.name)

theorem key_injective : Function.Injective key := by
  intro n n' h
  cases n <;> cases n' <;> first | rfl | exact absurd h (by decide)

/-- The value of a setting. -/
def of : (n : Setting) → Settings → n.Value
  | url, s => s.server.url
  | version, s => s.server.version
  | schemas, s => s.input.schemas
  | customAttributes, s => s.input.customAttributes
  | path, s => s.output.path
  | filename, s => s.output.filename
  | legacySchemas, s => s.generation.legacySchemas
  | timestamp, s => s.generation.timestamp

/-- The value of a setting of which nothing is said. -/
def default (n : Setting) : n.Value := n.of Settings.default

/-- The settings with a value for each. -/
def settings (value : (n : Setting) → n.Value) : Settings where
  server := ⟨value url, value version⟩
  input := ⟨value schemas, value customAttributes⟩
  output := ⟨value path, value filename⟩
  generation := ⟨value legacySchemas, value timestamp⟩

@[simp] theorem of_settings (value : (n : Setting) → n.Value) (n : Setting) :
    n.of (settings value) = value n := by
  cases n <;> rfl

/-- Settings are known by their values. -/
@[simp] theorem settings_of (s : Settings) : settings (fun n => n.of s) = s := rfl

/-- The value that a tree stands for, for a setting. -/
def read : (n : Setting) → SettingTree → Option n.Value
  | url | version | customAttributes => asOptionalText?
  | schemas | path | filename => asText?
  | legacySchemas => asTexts?
  | timestamp => asSwitch?

/-- What a tree says of a setting, its default if it says nothing, if its value can be read. -/
def heard (n : Setting) (t : SettingTree) : Option n.Value :=
  orDefault n.default n.read (t.at? n.key)

/-! ### Settings of a tree -/

section

variable {t : SettingTree}

/-- A group of two settings is read setting by setting. -/
private theorem orDefault_group {α β γ : Type} {first second : String} {group : String}
    {read : SettingTree → Option α} {b : Option SettingTree → Option β}
    {c : Option SettingTree → Option γ} {make : β → γ → α} {default : α}
    (hread : ∀ g, g.IsTable → read g =
      (b (g.entries.lookup first)).bind fun x =>
        (c (g.entries.lookup second)).bind fun y => some (make x y))
    (hdefault : some default = (b none).bind fun x => (c none).bind fun y => some (make x y))
    (ht : t.HasGroup group) :
    orDefault default read (t.entries.lookup group) =
      (b (t.at? (group, first))).bind fun x =>
        (c (t.at? (group, second))).bind fun y => some (make x y) := by
  cases hg : t.entries.lookup group with
  | none => simpa [at?, hg, orDefault] using hdefault
  | some g => simpa [at?, hg, orDefault] using hread g (ht g hg)

theorem orDefault_server (ht : t.HasGroup "server") :
    orDefault .default Settings.serverOf? (t.entries.lookup "server") =
      (heard url t).bind fun u => (heard version t).bind fun v => some ⟨u, v⟩ := by
  refine orDefault_group (fun g hg => ?_) rfl ht
  simp only [Settings.serverOf?, fields?_of_isTable hg]
  rfl

theorem orDefault_input (ht : t.HasGroup "input") :
    orDefault .default Settings.inputOf? (t.entries.lookup "input") =
      (heard schemas t).bind fun p => (heard customAttributes t).bind fun a => some ⟨p, a⟩ := by
  refine orDefault_group (fun g hg => ?_) rfl ht
  simp only [Settings.inputOf?, fields?_of_isTable hg]
  rfl

theorem orDefault_output (ht : t.HasGroup "output") :
    orDefault .default Settings.outputOf? (t.entries.lookup "output") =
      (heard path t).bind fun p => (heard filename t).bind fun f => some ⟨p, f⟩ := by
  refine orDefault_group (fun g hg => ?_) rfl ht
  simp only [Settings.outputOf?, fields?_of_isTable hg]
  rfl

theorem orDefault_generation (ht : t.HasGroup "generation") :
    orDefault .default Settings.generationOf? (t.entries.lookup "generation") =
      (heard legacySchemas t).bind fun l => (heard timestamp t).bind fun b => some ⟨l, b⟩ := by
  refine orDefault_group (fun g hg => ?_) rfl ht
  simp only [Settings.generationOf?, fields?_of_isTable hg]
  rfl

/-- The settings of a table are those of its groups. -/
theorem ofTree?_of_isTable (ht : t.IsTable) :
    Settings.ofTree? t =
      (orDefault .default Settings.serverOf? (t.entries.lookup "server")).bind fun server =>
      (orDefault .default Settings.inputOf? (t.entries.lookup "input")).bind fun input =>
      (orDefault .default Settings.outputOf? (t.entries.lookup "output")).bind fun output =>
      (orDefault .default Settings.generationOf? (t.entries.lookup "generation")).bind
        fun generation => some ⟨server, input, output, generation⟩ := by
  simp only [Settings.ofTree?, fields?_of_isTable ht]
  rfl

/-- The settings of a tree have the value that the tree says for a setting, if the group of the
setting is a table, whatever the other groups are. -/
theorem heard_of_ofTree? {s : Settings} {n : Setting} (ht : t.IsTable) (hgroup : t.HasGroup n.group)
    (h : Settings.ofTree? t = some s) : n.heard t = some (n.of s) := by
  rw [ofTree?_of_isTable ht] at h
  simp only [Option.bind_eq_some_iff] at h
  obtain ⟨server, hserver, input, hinput, output, houtput, generation, hgeneration, hs⟩ := h
  cases hs
  cases n with
  | url | version =>
    rw [orDefault_server hgroup] at hserver
    simp only [Option.bind_eq_some_iff] at hserver
    obtain ⟨u, hu, v, hv, hmake⟩ := hserver
    cases hmake
    assumption
  | schemas | customAttributes =>
    rw [orDefault_input hgroup] at hinput
    simp only [Option.bind_eq_some_iff] at hinput
    obtain ⟨p, hp, a, ha, hmake⟩ := hinput
    cases hmake
    assumption
  | path | filename =>
    rw [orDefault_output hgroup] at houtput
    simp only [Option.bind_eq_some_iff] at houtput
    obtain ⟨p, hp, f, hf, hmake⟩ := houtput
    cases hmake
    assumption
  | legacySchemas | timestamp =>
    rw [orDefault_generation hgroup] at hgeneration
    simp only [Option.bind_eq_some_iff] at hgeneration
    obtain ⟨l, hl, b, hb, hmake⟩ := hgeneration
    cases hmake
    assumption

/-- **The settings of a tree of tables are those that it says one by one.** -/
theorem ofTree?_eq_some_iff {s : Settings} (ht : t.Grouped) :
    Settings.ofTree? t = some s ↔ ∀ n : Setting, n.heard t = some (n.of s) := by
  refine ⟨fun h n => heard_of_ofTree? ht.isTable (ht.hasGroup _) h, fun h => ?_⟩
  rw [ofTree?_of_isTable ht.isTable, orDefault_server (ht.hasGroup _),
    orDefault_input (ht.hasGroup _), orDefault_output (ht.hasGroup _),
    orDefault_generation (ht.hasGroup _), h url, h version, h schemas, h customAttributes, h path,
    h filename, h legacySchemas, h timestamp]
  rfl

end

end Setting

end EntityTypings
