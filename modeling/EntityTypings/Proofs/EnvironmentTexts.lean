import EntityTypings.Proofs.SettingAssignments
import EntityTypings.Proofs.TreeChanges
import EntityTypings.Proofs.VariableValues

/-!
# Texts from the environment

A setting that is a text can be given by a variable of the environment (`Setting.variableName`). The
environment is the last layer, so the value of the variable is what the settings have, whatever the
files say and whatever other settings the environment sets, provided that no variable after it
leads to the same setting or to its whole group (`Setting.Apart`).

The main statement, `loaded_text_eq_iff`, is that the setting is the value of the variable as it is
printed once it has been read, so that it is the very value of the variable if and only if that is
spelled as it is printed (`Environment.Verbatim`). `4.10` is not (`shortened_version`).
-/

namespace EntityTypings

open SettingTree FileTree.Run

/-! ### Putting values elsewhere -/

namespace SettingTree

/-- A tree has a value for a setting, in a table for its group. -/
structure Holds (t : SettingTree) (key : String × String) (v : SettingTree) : Prop where
  /-- The tree is a table. -/
  isTable : t.IsTable
  /-- So is the group of the setting. -/
  hasGroup : t.HasGroup key.1
  /-- The value is there. -/
  at? : t.at? key = some v

/-- A path leads neither to a setting nor to its group. -/
def IsApart (key : String × String) : List SettingStep → Prop
  | .entry group :: .entry name :: _ => lowerCase group ≠ key.1 ∨ lowerCase name ≠ key.2
  | .entry group :: _ => lowerCase group ≠ key.1
  | _ => False

instance (key : String × String) : DecidablePred (IsApart key)
  | .entry group :: .entry name :: _ =>
    inferInstanceAs (Decidable (lowerCase group ≠ key.1 ∨ lowerCase name ≠ key.2))
  | .entry group :: [] => inferInstanceAs (Decidable (lowerCase group ≠ key.1))
  | .entry group :: .element _ :: _ => inferInstanceAs (Decidable (lowerCase group ≠ key.1))
  | .element _ :: _ | [] => inferInstanceAs (Decidable False)

/-- Under a path that starts with a name, a value for the name changes and nothing else. -/
theorem exists_putAt_entry (v : SettingTree) (name : String) (path : List SettingStep)
    (t : SettingTree) :
    ∃ changed, putAt v (.entry name :: path) t =
      table (replace (lowerCase name) changed t.entries) := by
  cases path with
  | nil =>
    by_cases hv : v.IsTable
    · cases v with
      | table es => exact ⟨_, by rw [putAt, put]⟩
      | _ => cases hv
    · exact ⟨v, by rw [putAt, put_of_not_isTable t name hv]⟩
  | cons step path => exact ⟨_, by rw [putAt]; simp⟩

/-- A group that has the value of a setting can be put into any table. -/
theorem holds_replace {group name : String} {g v : SettingTree} (hg : g.IsTable)
    (hv : g.entries.lookup name = some v) (es : List (String × SettingTree)) :
    (table (replace group g es)).Holds (group, name) v := by
  refine ⟨trivial, fun g' hg' => ?_, ?_⟩
  · rw [entries_table, lookup_replace_self] at hg'
    cases hg'
    exact hg
  · rw [SettingTree.at?, entries_table, lookup_replace_self]
    exact hv

/-- What is put under a path elsewhere leaves the value of a setting as it is. -/
theorem Holds.putAt {t : SettingTree} {key : String × String} {v : SettingTree}
    (h : t.Holds key v) {path : List SettingStep} (hpath : IsApart key path) (w : SettingTree) :
    (putAt w path t).Holds key v := by
  have hother {group : String} (hgroup : lowerCase group ≠ key.1) (rest : List SettingStep) :
      (SettingTree.putAt w (.entry group :: rest) t).Holds key v := by
    obtain ⟨changed, heq⟩ := exists_putAt_entry w group rest t
    rw [heq]
    refine ⟨trivial, fun g hg => h.hasGroup g ?_, ?_⟩
    · rwa [entries_table, lookup_replace_of_ne hgroup.symm] at hg
    · rw [at?_replace, if_neg hgroup.symm, h.at?]
  match path, hpath with
  | .entry group :: .entry name :: rest, hpath =>
    by_cases hgroup : lowerCase group = key.1
    · -- in the same group, another name is put
      have hname : lowerCase name ≠ key.2 := hpath.resolve_left (not_not_intro hgroup)
      obtain ⟨changed, heq⟩ := exists_putAt_entry w name rest
        ((t.entries.lookup (lowerCase group)).getD nothing)
      rw [SettingTree.putAt, heq]
      · have hkey : (lowerCase group, key.2) = key := Prod.ext hgroup rfl
        have hvalue := lookup_group t (show nothing.entries = [] from rfl) (lowerCase group) key.2
        rw [hkey, h.at?] at hvalue
        rw [← hkey]
        refine holds_replace (by trivial) ?_ t.entries
        rw [entries_table, lookup_replace_of_ne hname.symm, hvalue]
      · simp
    · exact hother hgroup _
  | .entry group :: [], hpath => exact hother hpath _
  | .entry group :: .element _ :: _, hpath => exact hother hpath _

end SettingTree

/-! ### Variables -/

namespace Setting

/-- The name of the variable that gives a setting. -/
def variableName : Setting → String
  | url => "TYPEGEN__SERVER__URL"
  | version => "TYPEGEN__SERVER__VERSION"
  | schemas => "TYPEGEN__INPUT__SCHEMAS"
  | customAttributes => "TYPEGEN__INPUT__CUSTOM_ATTRIBUTES"
  | path => "TYPEGEN__OUTPUT__PATH"
  | filename => "TYPEGEN__OUTPUT__FILENAME"
  | legacySchemas => "TYPEGEN__GENERATION__LEGACY_SCHEMAS"
  | timestamp => "TYPEGEN__GENERATION__TIMESTAMP"

/-- A variable of the environment leads neither to a setting nor to its group. -/
def Apart (n : Setting) (name : String) : Prop :=
  ∀ path ∈ Environment.settingName? name, IsApart n.key (SettingStep.path path)

instance (n : Setting) : DecidablePred n.Apart := fun _ => Option.decidableForallMem _

/-- The text that a value of a setting is, if it is one. -/
def text? : (n : Setting) → n.Value → Option String
  | url, v | version, v | customAttributes, v => v
  | schemas, v | path, v | filename, v => some v
  | legacySchemas, _ | timestamp, _ => none

/-- The values of a setting are texts. -/
def IsText (n : Setting) : Prop := n ≠ legacySchemas ∧ n ≠ timestamp

instance : DecidablePred IsText := fun n => inferInstanceAs (Decidable (n ≠ _ ∧ n ≠ _))

theorem settingName?_variableName (n : Setting) :
    ∃ path, Environment.settingName? n.variableName = some path ∧
      SettingStep.path path = [.entry n.group, .entry n.name] ∧
      lowerCase n.group = n.group ∧ lowerCase n.name = n.name := by
  refine ⟨n.group ++ "." ++ n.name, ?_⟩
  cases n <;> decide +kernel

/-- A text setting takes a scalar as it is printed. -/
theorem text?_of_read {n : Setting} (hn : n.IsText) {t : SettingTree} {value : String}
    (ht : t.asText? = some value) {v : n.Value} (h : n.read t = some v) :
    n.text? v = some value := by
  have hoptional : t.asOptionalText? = some (some value) := by
    cases t with
    | nothing => cases ht
    | _ => rw [asOptionalText?, ht] <;> simp
  cases n with
  | url | version | customAttributes => exact Option.some.inj (h.symm.trans hoptional)
  | schemas | path | filename => exact h.symm.trans ht
  | legacySchemas => exact absurd rfl hn.1
  | timestamp => exact absurd rfl hn.2

end Setting

/-! ### Loading -/

/-- Entries elsewhere leave the value of a setting as it is. -/
theorem SettingTree.Holds.onto {t : SettingTree} {key : String × String} {v : SettingTree}
    (h : t.Holds key v) {layer : Layer}
    (hlayer : ∀ e ∈ layer, IsApart key (SettingStep.path e.1)) :
    (Layer.onto t layer).Holds key v := by
  induction layer generalizing t with
  | nil => exact h
  | cons e rest ih =>
    exact ih (h.putAt (hlayer e List.mem_cons_self) e.2) fun e' he' =>
      hlayer e' (List.mem_cons_of_mem _ he')

theorem not_isTable_typed {value : String} : ¬(Environment.typed value).IsTable := by
  intro htable
  have htext := Environment.asText?_typed value
  cases hv : Environment.typed value with
  | table es =>
    rw [hv] at htext
    cases htext
  | _ =>
    rw [hv] at htable
    exact htable

/-- The value of a variable is put into its group, whatever is there, and stays. -/
theorem holds_combine {n : Setting} (value : String) (before : List (String × String))
    {after : List (String × String)} (hafter : ∀ e ∈ after, n.Apart e.1) (layers : List Layer) :
    (Layer.combine (layers ++
      [Environment.settings (before ++ (n.variableName, value) :: after)])).Holds n.key
        (Environment.typed value) := by
  obtain ⟨path, hpath, hsteps, hgroup, hname⟩ := n.settingName?_variableName
  have hsettings : Environment.settings (before ++ (n.variableName, value) :: after) =
      Environment.settings before ++ (path, Environment.typed value) ::
        Environment.settings after := by
    simp [Environment.settings, hpath]
  have hrest : ∀ e ∈ Environment.settings after, IsApart n.key (SettingStep.path e.1) := by
    intro e he
    obtain ⟨variable', hvariable, hentry⟩ := List.mem_filterMap.1 he
    obtain ⟨name, hname, rfl⟩ := Option.map_eq_some_iff.1 hentry
    exact hafter _ hvariable name hname
  rw [Layer.combine, List.foldl_append, List.foldl_cons, List.foldl_nil, hsettings, Layer.onto,
    List.foldl_append, List.foldl_cons]
  refine Holds.onto ?_ hrest
  rw [Layer.putNamed, hsteps, putAt, putAt, hgroup, put_of_not_isTable _ _ not_isTable_typed, hname]
  · exact holds_replace (by trivial) (by simp) _
  · simp

/-- Settings that are loaded are those of the files' layers and the environment after them. -/
theorem Settings.exists_layers_of_load [Layer.Formats] {sources : Sources} {t : FileTree} {s : Settings}
    (h : answer (load sources) t = .ok s) :
    ∃ layers, ofTree? (Layer.combine (layers ++ [Environment.settings sources.environment])) =
      some s := by
  rw [load, answer_bind] at h
  cases hlayers : answer (fileLayers sources) t with
  | error fault =>
    rw [hlayers] at h
    cases h
  | ok layers =>
    rw [hlayers] at h
    replace h : ofLayers (layers ++ [Environment.settings sources.environment]) = .ok s := h
    refine ⟨layers, ?_⟩
    rw [ofLayers] at h
    split at h
    · rename_i htree
      cases h
      exact htree
    · cases h

/-- **A text setting is the value of its variable as that is printed**, and the value itself if it
is spelled as it is printed, and only then. -/
theorem Settings.loaded_text_eq_iff [Layer.Formats] {n : Setting} (hn : n.IsText)
    {sources : Sources} {value : String} {before after : List (String × String)}
    (henvironment : sources.environment = before ++ (n.variableName, value) :: after)
    (hafter : ∀ e ∈ after, n.Apart e.1) {t : FileTree} {s : Settings}
    (hload : answer (load sources) t = .ok s) :
    n.text? (n.of s) = some (Environment.printed value) ∧
      (n.text? (n.of s) = some value ↔ Environment.Verbatim value) := by
  obtain ⟨layers, htree⟩ := exists_layers_of_load hload
  rw [henvironment] at htree
  have hholds := holds_combine value before hafter layers
  have hheard := Setting.heard_of_ofTree? hholds.isTable hholds.hasGroup htree
  rw [Setting.heard, hholds.at?] at hheard
  have htext := Setting.text?_of_read hn (Environment.asText?_typed value) hheard
  exact ⟨htext, by rw [htext, Option.some_inj, Environment.printed_eq_iff]⟩

/-- An environment that gives a version and a directory. -/
def versionSources : Settings.Sources :=
  ⟨none, none, [("TYPEGEN__SERVER__VERSION", "4.13.8"), ("TYPEGEN__OUTPUT__PATH", "out/007")]⟩

/-- A version with two points and a path arrive as they are. -/
theorem Settings.loaded_texts_of_versionSources :
    ∃ s, answer (load versionSources) .empty = .ok s ∧ s.server.version = some "4.13.8" ∧
      s.output.path = "out/007" := by
  have hload : answer (load versionSources) .empty =
      .ok ⟨⟨none, some "4.13.8"⟩, .default, ⟨"out/007", "schema.ts"⟩, .default⟩ := by
    decide +kernel
  have hversion : Environment.Verbatim "4.13.8" :=
    (Environment.printed_eq_iff _).1 (by decide +kernel)
  have hpath : Environment.Verbatim "out/007" :=
    Environment.verbatim_of_foreign (c := '/') (by decide +kernel) (by decide +kernel)
  have hfirst : versionSources.environment = [] ++ (Setting.version.variableName, "4.13.8") ::
      [("TYPEGEN__OUTPUT__PATH", "out/007")] := rfl
  have hsecond : versionSources.environment = [("TYPEGEN__SERVER__VERSION", "4.13.8")] ++
      (Setting.path.variableName, "out/007") :: [] := rfl
  obtain ⟨-, hversionIff⟩ := loaded_text_eq_iff (by decide) hfirst (by decide +kernel) hload
  obtain ⟨-, hpathIff⟩ := loaded_text_eq_iff (by decide) hsecond nofun hload
  exact ⟨_, hload, hversionIff.2 hversion, Option.some.inj (hpathIff.2 hpath)⟩

/-- The version `4.10` is read as the number that it spells and arrives as `4.1`. -/
theorem Settings.shortened_version :
    ∃ s, answer (load ⟨none, none, [("TYPEGEN__SERVER__VERSION", "4.10")]⟩) .empty = .ok s ∧
      s.server.version = some "4.1" ∧ s.server.version ≠ some "4.10" :=
  ⟨⟨⟨none, some "4.1"⟩, .default, .default, .default⟩, by decide +kernel, rfl, by decide⟩

end EntityTypings
