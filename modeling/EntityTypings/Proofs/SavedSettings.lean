import EntityTypings.Proofs.FileNames
import EntityTypings.Proofs.Precedence
import EntityTypings.Proofs.WrittenDocuments

/-!
# Saved settings

Settings that are saved are loaded again. The document that is written says for each setting the
value that is read back as it, and leaves out only settings that have their default
(`saidBy_layer`). So wherever the file is found, once or several times, the settings are what it
says if no other file and no variable says anything (`load_of_save`). Which formats there are
besides that of the document makes no difference, as a file is read in the format of its extension.
-/

namespace EntityTypings

open SettingTree FileTree.Run Layer

/-! ### What is written for a setting -/

namespace Setting

/-- The value that is written for a setting, if it is not left out. -/
def written : (n : Setting) → n.Value → Option SettingTree
  | url | version | customAttributes => fun x => x.map .text
  | schemas | path | filename => fun x => some (.text x)
  | legacySchemas => fun ss => some (.list (ss.map .text))
  | timestamp => fun b => some (.boolean b)

theorem asTexts?_list (ss : List String) : asTexts? (.list (ss.map .text)) = some ss := by
  unfold asTexts?
  induction ss with
  | nil => rfl
  | cons s ss ih => simp [asText?, ih]

/-- What is written for a setting is read as its value. -/
theorem read_of_written {n : Setting} {x : n.Value} {v : SettingTree} (h : n.written x = some v) :
    n.read v = some x := by
  cases n with
  | url | version | customAttributes =>
    obtain ⟨s, rfl, rfl⟩ := Option.map_eq_some_iff.1 h
    rfl
  | schemas | path | filename | timestamp =>
    cases h
    rfl
  | legacySchemas =>
    cases h
    exact asTexts?_list x

/-- A setting that is left out has its default. -/
theorem eq_default_of_written {n : Setting} {x : n.Value} (h : n.written x = none) :
    x = n.default := by
  cases n with
  | url | version | customAttributes => exact Option.map_eq_none_iff.1 h
  | schemas | path | filename | legacySchemas | timestamp => cases h

/-- The groups. -/
def groups : List String := ["server", "input", "output", "generation"]

theorem group_mem_groups (n : Setting) : n.group ∈ groups := by cases n <;> decide

/-- Groups are named in lower case, and their names are no paths to a setting. -/
theorem path_group {g : String} (h : g ∈ groups) :
    SettingStep.path g = [.entry g] ∧ lowerCase g = g := by
  have hall : ∀ g ∈ groups, SettingStep.path g = [.entry g] ∧ lowerCase g = g := by
    decide +kernel
  exact hall g h

theorem lowerCase_name (n : Setting) : lowerCase n.name = n.name := by
  cases n <;> decide +kernel

end Setting

/-! ### The layer of a saved file -/

namespace Settings

/-- What is written for the settings of a group. -/
def writtenIn (s : Settings) (g : String) : List (String × SettingTree) :=
  (Setting.all.filter fun n => n.group = g).filterMap fun n =>
    (n.written (n.of s)).map fun v => (n.name, v)

theorem mem_writtenIn {s : Settings} {g : String} {f : String × SettingTree} :
    f ∈ s.writtenIn g ↔
      ∃ n : Setting, n.group = g ∧ n.name = f.1 ∧ n.written (n.of s) = some f.2 := by
  simp only [writtenIn, List.mem_filterMap, List.mem_filter, decide_eq_true_eq,
    Option.map_eq_some_iff]
  constructor
  · rintro ⟨n, ⟨-, hgroup⟩, v, hv, rfl⟩
    exact ⟨n, hgroup, rfl, hv⟩
  · rintro ⟨n, hgroup, hname, hv⟩
    exact ⟨n, ⟨n.mem_all, hgroup⟩, f.2, hv, Prod.ext hname rfl⟩

theorem sublist_optionalEntry (name : String) (value : Option String) :
    ((optionalEntry name value).map Prod.fst).Sublist [name] := by
  cases value with
  | none => exact List.nil_sublist _
  | some s => exact List.Sublist.refl _

/-- The document can be written: its names need no quotes, and none of them stands twice. -/
theorem isWritable_of_mem_sections (s : Settings) : ∀ x ∈ s.sections, x.IsWritable := by
  have hserver : ∀ n ∈ ["server", "url", "version"], Toml.IsBareName n := by decide
  have hinput : ∀ n ∈ ["input", "schemas", "custom_attributes"], Toml.IsBareName n := by
    decide
  have houtput : ∀ n ∈ ["output", "path", "filename"], Toml.IsBareName n := by decide
  have hgeneration : ∀ n ∈ ["generation", "legacy_schemas", "timestamp"], Toml.IsBareName n := by
    decide
  intro x hx
  simp only [sections, List.mem_cons, List.not_mem_nil, or_false] at hx
  rcases hx with rfl | rfl | rfl | rfl
  · refine Toml.Section.isWritable_of_sublist hserver (by decide) ?_
    rw [List.map_append]
    exact (sublist_optionalEntry _ _).append (sublist_optionalEntry _ _)
  · exact Toml.Section.isWritable_of_sublist hinput (by decide)
      ((sublist_optionalEntry _ _).cons_cons _)
  · exact Toml.Section.isWritable_of_sublist houtput (by decide) (List.Sublist.refl _)
  · exact Toml.Section.isWritable_of_sublist hgeneration (by decide) (List.Sublist.refl _)

/-- What a file says in which settings were saved. -/
def layer (s : Settings) : Layer := Setting.groups.map fun g => (g, .table (s.writtenIn g))

theorem ofTomlItems_strings (ss : List String) : ofTomlItems (ss.map .string) = ss.map .text := by
  induction ss with
  | nil => rfl
  | cons s ss ih =>
    rw [List.map_cons, List.map_cons, ofTomlItems, ih]
    rfl

/-- The document says what is written for the settings. -/
theorem ofTomlEntries_sections (s : Settings) :
    ofTomlEntries (s.sections.map fun x => (x.name, x.toToml)) = s.layer := by
  obtain ⟨⟨url, version⟩, ⟨schemas, attributes⟩, ⟨path, filename⟩, ⟨legacy, timestamp⟩⟩ := s
  have hitems := ofTomlItems_strings legacy
  cases url <;> cases version <;> cases attributes <;>
    simp [sections, optionalEntry, Toml.Section.toToml, Toml.Plain.toToml, ofTomlEntries, ofToml,
      hitems, layer, Setting.groups, writtenIn, Setting.all, Setting.group, Setting.written,
      Setting.of, Setting.name]

/-- The document is read as the layer. -/
theorem parse?_toToml [Formats] (s : Settings) : parse? "toml" s.toToml = some s.layer := by
  have hwritable : ∀ x ∈ s.sections, x.IsWritable := isWritable_of_mem_sections s
  have hnodup : (s.sections.map Toml.Section.name).Nodup :=
    (by decide : Setting.groups.Nodup)
  rw [parse?_of_mem Formats.document_mem, ofDocument?, toToml,
    Toml.parse_render hwritable hnodup, Option.map_some, ofTomlEntries_sections]

/-- The assignments of the table of a group. -/
theorem assignments?_writtenIn (s : Settings) {g : String} (h : g ∈ Setting.groups) :
    assignments? (g, .table (s.writtenIn g)) =
      some ((s.writtenIn g).map fun f => ((g, lowerCase f.1), f.2)) := by
  obtain ⟨hpath, hlower⟩ := Setting.path_group h
  simp only [assignments?, hpath, hlower]

/-- The layer assigns to each setting what is written for it. -/
theorem mem_assignments_layer {s : Settings} {a : Assignment} :
    a ∈ s.layer.assignments ↔ ∃ n : Setting, n.key = a.1 ∧ n.written (n.of s) = some a.2 := by
  rw [Layer.assignments, layer, List.flatMap_map, List.mem_flatMap]
  constructor
  · rintro ⟨g, hg, ha⟩
    rw [assignments?_writtenIn s hg, Option.getD_some] at ha
    obtain ⟨f, hf, rfl⟩ := List.mem_map.1 ha
    obtain ⟨n, hgroup, hname, hwritten⟩ := mem_writtenIn.1 hf
    refine ⟨n, ?_, hwritten⟩
    rw [Setting.key, ← hname, n.lowerCase_name, hgroup]
  · rintro ⟨n, hkey, hwritten⟩
    refine ⟨n.group, n.group_mem_groups, ?_⟩
    rw [assignments?_writtenIn s n.group_mem_groups, Option.getD_some, List.mem_map]
    refine ⟨(n.name, a.2), mem_writtenIn.2 ⟨n, rfl, rfl, hwritten⟩, ?_⟩
    rw [n.lowerCase_name]
    exact Prod.ext hkey rfl

theorem setsKnown_layer (s : Settings) : s.layer.SetsKnown := by
  intro e he
  obtain ⟨g, hg, rfl⟩ := List.mem_map.1 he
  refine ⟨_, assignments?_writtenIn s hg, fun a ha => ?_⟩
  have hmem : a ∈ s.layer.assignments := by
    rw [Layer.assignments, List.mem_flatMap]
    exact ⟨_, he, by rwa [assignments?_writtenIn s hg, Option.getD_some]⟩
  obtain ⟨n, hkey, hwritten⟩ := mem_assignments_layer.1 hmem
  exact ⟨n, hkey, Option.isSome_of_eq_some (Setting.read_of_written hwritten)⟩

/-- **The layer says the value of each setting**, or nothing where it has its default. -/
theorem saidBy_layer (s : Settings) (n : Setting) :
    (n.saidBy s.layer).getD n.default = n.of s := by
  unfold Setting.saidBy
  cases hlast : lastAssigned s.layer.assignments n.key with
  | none =>
    cases hwritten : n.written (n.of s) with
    | none => exact (Setting.eq_default_of_written hwritten).symm
    | some v =>
      have hmem : (n.key, v) ∈ s.layer.assignments := mem_assignments_layer.2 ⟨n, rfl, hwritten⟩
      exact absurd hmem (not_mem_of_lastAssigned hlast v)
  | some v =>
    obtain ⟨n', hkey, hwritten⟩ := mem_assignments_layer.1 (mem_of_lastAssigned hlast)
    cases Setting.key_injective hkey
    rw [Option.bind_some, Setting.read_of_written hwritten, Option.getD_some]

/-- Where all layers but empty ones are the same, a setting is what that layer says. -/
theorem lastSaid_eq_saidBy (n : Setting) {layer : Layer} {layers : List Layer}
    (hmem : layer ∈ layers) (h : ∀ l ∈ layers, l = [] ∨ l = layer) :
    n.lastSaid layers = n.saidBy layer := by
  unfold Setting.lastSaid
  cases hsaid : n.saidBy layer with
  | none =>
    rw [List.findSome?_eq_none_iff]
    intro l hl
    rcases h l (List.mem_reverse.1 hl) with rfl | rfl
    · rfl
    · exact hsaid
  | some x =>
    have hsome : (layers.reverse.findSome? n.saidBy).isSome = true :=
      List.findSome?_isSome_iff.2
        ⟨layer, List.mem_reverse.2 hmem, Option.isSome_of_eq_some hsaid⟩
    obtain ⟨y, hy⟩ := Option.isSome_iff_exists.1 hsome
    obtain ⟨l, hl, hly⟩ := List.exists_of_findSome?_eq_some hy
    rcases h l (List.mem_reverse.1 hl) with rfl | rfl
    · cases hly
    · rw [hy, ← hly, hsaid]

/-- Layers that say nothing or what the settings are make the settings. -/
theorem ofLayers_of_layer {s : Settings} {layers : List Layer} (hmem : s.layer ∈ layers)
    (h : ∀ l ∈ layers, l = [] ∨ l = s.layer) : ofLayers layers = .ok s := by
  have hknown : ∀ l ∈ layers, l.SetsKnown := by
    intro l hl
    rcases h l hl with rfl | rfl
    · exact fun _ he => absurd he List.not_mem_nil
    · exact setsKnown_layer s
  obtain ⟨s', hs', hof⟩ := ofLayers_of_setsKnown hknown
  have heq : s' = s := by
    rw [← Setting.settings_of s', ← Setting.settings_of s]
    congr 1
    funext n
    rw [hof, lastSaid_eq_saidBy n hmem h, saidBy_layer]
  rw [hs', heq]

end Settings

/-! ### Finding the file -/

namespace Settings

theorem mem_of_firstFile {t : FileTree} {paths : List (String × String)} {p : String × String}
    (h : answer (firstFile paths) t = some p) : p ∈ paths := by
  induction paths with
  | nil => cases h
  | cons q paths ih =>
    rw [firstFile, answer_bind, (readsOnly_isFile q.1).treeAfter] at h
    split at h
    · cases h
      exact List.mem_cons_self
    · exact List.mem_cons_of_mem _ (ih h)

section

variable [Formats]

section

variable {t : FileTree} {name path extension found : String}

/-- A name with an extension added to it has that extension. -/
theorem extension?_of_mem_extended (h : (found, extension) ∈ extended name) :
    Path.extension? found = some extension := by
  obtain ⟨r, hr, hadded⟩ := List.mem_filterMap.1 h
  obtain ⟨path, hpath, heq⟩ := Option.map_eq_some_iff.1 hadded
  cases heq
  obtain ⟨hne, hslash, hdot⟩ := Formats.isExtension r hr
  exact Path.extension?_of_addExtension? hslash hne hdot hpath

/-- A file that is found is read in the format of its extension. -/
theorem extension?_of_findFile (h : answer (findFile name) t = .ok (found, extension)) :
    Path.extension? found = some extension := by
  rw [findFile, answer_bind, (readsOnly_isFile name).treeAfter] at h
  split at h
  · cases hknown : (Path.extension? name).filter Formats.knows with
    | none =>
      rw [hknown] at h
      cases h
    | some e =>
      rw [hknown] at h
      cases h
      exact (Option.filter_eq_some_iff.1 hknown).1
  · simp only [answer_bind] at h
    split at h
    · rename_i p hp
      cases h
      exact extension?_of_mem_extended (mem_of_firstFile hp)
    · cases h

/-- Documents have a known format. -/
theorem knows_toml : Formats.knows "toml" = true := by
  rw [Formats.knows, lookup_eq_some_of_mem Formats.nodup Formats.document_mem]
  rfl

/-- A path that leads to a file with a known extension is found. -/
theorem answer_findFile {contents : ByteArray} {place : List String}
    (hlocate : t.locate path = .ok place) (hfile : t.get? place = some (.file contents))
    (hextension : Path.extension? path = some extension)
    (hknown : Formats.knows extension = true) :
    answer (findFile path) t = .ok (path, extension) := by
  have hkind : t.kind? path = some .file := by
    simp only [FileTree.kind?, hlocate, hfile, Option.map_some, FileEntry.kind]
  have hfound : answer (FileAccess.isFile path) t = true := by
    show decide (t.kind? path = some .file) = true
    rw [hkind]
    rfl
  rw [findFile, answer_bind, hfound, if_pos rfl, hextension,
    Option.filter_some_pos hknown]
  rfl

/-- A file that holds a document says what the document says. -/
theorem fileSays_of_found {text : String} {layer : Layer} {place : List String}
    (hfound : answer (findFile name) t = .ok (found, extension))
    (hlocate : t.locate found = .ok place) (hfile : t.get? place = some (.file text.toUTF8))
    (hparse : parse? extension text = some layer) : FileSays t name layer := by
  have hutf8 : String.fromUTF8? text.toUTF8 = some text := by
    unfold String.fromUTF8?
    exact dif_pos text.isValidUTF8
  have hread : t.read found = .ok text.toUTF8 := by
    simp only [FileTree.read, hlocate, hfile, bind, Except.bind]
  have htext : answer (FileAccess.readText found) t = .ok text := by
    have hbytes : answer (FileAccess.read found) t = .ok text.toUTF8 := hread
    rw [FileAccess.readText, answer_bind]
    simp only [hbytes, hutf8]
    rfl
  refine ⟨found, extension, text, ?_, hparse⟩
  rw [readNamed, answer_bind, hfound, (readsOnly_findFile name).treeAfter]
  simp only [answer_bind, htext]
  rfl

end

/-- A name of a settings file leads to no file, or to the file at a path. -/
def LeadsOnlyTo (t : FileTree) (path name : String) : Prop :=
  answer (findFile name) t = .error (.missing name) ∨
    ∃ found extension, answer (findFile name) t = .ok (found, extension) ∧
      t.locate found = t.locate path

/-! ### Saving and loading -/

section

variable {t t' : FileTree} {path : String} {s : Settings}

omit [Formats] in
/-- Settings are saved where the path leads afterwards. -/
theorem exists_place_of_save
    (h : (s.save path : FileTree.Run (Except FileError Unit)).run t = (.ok (), t')) :
    ∃ place, t'.locate path = .ok place ∧ t'.get? place = some (.file s.toToml.toUTF8) := by
  have hrun := run_change (fun t => t.write path s.toToml.toUTF8) t
  have hsave := hrun.symm.trans h
  cases hwrite : t.write path s.toToml.toUTF8 with
  | error e =>
    rw [hwrite] at hsave
    cases hsave
  | ok written =>
    rw [hwrite] at hsave
    cases hsave
    obtain ⟨place, hlocate, hne, -, rfl⟩ := FileTree.exists_locate_of_write hwrite
    exact ⟨place, hlocate, FileTree.get?_put_self t _ hne⟩

/-- A name that leads to the saved file, if to any, says what was saved, or nothing. -/
theorem exists_mayFileSay {place : List String} (hlocate : t.locate path = .ok place)
    (hfile : t.get? place = some (.file s.toToml.toUTF8))
    (hextension : Path.extension? path = some "toml") {name : String}
    (hname : LeadsOnlyTo t path name) :
    ∃ layer, MayFileSay t name layer ∧ (layer = [] ∨ layer = s.layer) := by
  rcases hname with hmissing | ⟨found, extension, hfound, hsame⟩
  · exact ⟨[], .missing hmissing, .inl rfl⟩
  · have hplace : t.locate found = .ok place := hsame.trans hlocate
    have hex := extension?_of_findFile hfound
    have htoml := FileTree.extension?_eq_of_locate hlocate hplace
      (Path.isSome_fileName? hex) hextension
    rw [hex, Option.some.injEq] at htoml
    subst htoml
    exact ⟨s.layer, .there (fileSays_of_found hfound hplace hfile s.parse?_toToml), .inr rfl⟩

/-- **Saved settings are loaded unchanged.** -/
theorem load_of_save {sources : Sources} (hextension : Path.extension? path = some "toml")
    (hsave : (s.save path : FileTree.Run (Except FileError Unit)).run t = (.ok (), t'))
    (hexplicit : sources.explicitFile = some path)
    (hother : ∀ name ∈ localFiles ++ sources.userFile.toList, LeadsOnlyTo t' path name)
    (hvariables : ∀ v ∈ sources.environment, Environment.settingName? v.1 = none) :
    answer (load sources) t' = .ok s := by
  obtain ⟨place, hlocate, hfile⟩ := exists_place_of_save hsave
  have hsays (name : String) (hname : name ∈ localFiles ++ sources.userFile.toList) :=
    exists_mayFileSay hlocate hfile hextension (hother name hname)
  obtain ⟨plain, hplain, hplain'⟩ := hsays "typegen.toml" (by simp [localFiles])
  obtain ⟨hidden, hhidden, hhidden'⟩ := hsays ".typegen.toml" (by simp [localFiles])
  obtain ⟨nested, hnested, hnested'⟩ := hsays "config/typegen.toml" (by simp [localFiles])
  have hexplicitSays : FileSays t' path s.layer :=
    fileSays_of_found (answer_findFile hlocate hfile hextension knows_toml) hlocate hfile
      s.parse?_toToml
  obtain ⟨user, huser, huser'⟩ : ∃ user : Option Layer,
      Option.Rel (UserFileSays t') sources.userFile user ∧
        ∀ l ∈ user.toList, l = [] ∨ l = s.layer := by
    cases huser : sources.userFile with
    | none => exact ⟨none, .none, fun l hl => absurd hl List.not_mem_nil⟩
    | some name =>
      cases hkind : t'.kind? name with
      | none => exact ⟨some [], .some (.missing hkind), by simp⟩
      | some kind =>
        obtain ⟨layer, hlayer, hlayer'⟩ := hsays name (by simp [huser])
        exact ⟨some layer, .some (.there (Option.isSome_of_eq_some hkind) hlayer), by
          simpa using hlayer'⟩
  have hvars : Environment.settings sources.environment = [] := by
    rw [Environment.settings, List.filterMap_eq_nil_iff]
    intro v hv
    rw [hvariables v hv, Option.map_none]
  let said : Said := ⟨plain, hidden, nested, user, some s.layer⟩
  have hfiles : Says t' sources said :=
    ⟨hplain, hhidden, hnested, huser, hexplicit ▸ .some hexplicitSays⟩
  rw [answer_load hfiles]
  refine ofLayers_of_layer ?_ ?_
  · simp [Said.layers, Said.files, said]
  · intro l hl
    simp only [Said.layers, Said.files, said, hvars, Option.toList_some, List.mem_append,
      List.mem_cons, List.not_mem_nil, or_false] at hl
    rcases hl with (((rfl | rfl | rfl) | hl) | rfl) | rfl
    · exact hplain'
    · exact hhidden'
    · exact hnested'
    · exact huser' l hl
    · exact .inr rfl
    · exact .inl rfl

end

end

/-- Settings with quotes of both kinds, backslashes, line breaks and control characters, of which
some are left out. -/
def quotedSettings : Settings where
  server := ⟨some "it's \"\"\"quoted\"\"\"", none⟩
  input := ⟨"a\\b'''\n", some ""⟩
  output := ⟨"\x01\x7f\"\"\"\"", "schema.ts"⟩
  generation := ⟨["Old", "two\nlines", "\"'"], false⟩

/-- The settings are saved in the working directory, in the file that is looked for first. -/
theorem load_quotedSettings :
    let path := "./typegen.toml"
    let sources : Sources := ⟨some "user/typegen.toml", some path, [("HOME", "/")]⟩
    ∃ t', Path.extension? path = some "toml" ∧
      (quotedSettings.save path : FileTree.Run (Except FileError Unit)).run .empty = (.ok (), t') ∧
      (∀ name ∈ localFiles ++ sources.userFile.toList, LeadsOnlyTo t' path name) ∧
      (∀ v ∈ sources.environment, Environment.settingName? v.1 = none) ∧
      answer (load sources) t' = .ok quotedSettings := by
  intro path sources
  let saving : FileTree.Run (Except FileError Unit) := quotedSettings.save path
  let t' := treeAfter saving .empty
  have hextension : Path.extension? path = some "toml" := by decide +kernel
  have hanswer : answer saving .empty = .ok () := by decide +kernel
  have hsave : saving.run .empty = (.ok (), t') := Prod.ext hanswer rfl
  have hother : ∀ name ∈ localFiles ++ sources.userFile.toList, LeadsOnlyTo t' path name := by
    have hfound : answer (findFile "typegen.toml") t' = .ok ("typegen.toml", "toml") := by
      decide +kernel
    have hmissing : ∀ name ∈ [".typegen.toml", "config/typegen.toml", "user/typegen.toml"],
        answer (findFile name) t' = .error (.missing name) := by decide +kernel
    have hsame : t'.locate "typegen.toml" = t'.locate path := by decide +kernel
    intro name hname
    rcases List.mem_cons.1 hname with rfl | hname
    · exact .inr ⟨_, _, hfound, hsame⟩
    · exact .inl (hmissing name hname)
  have hvariables : ∀ v ∈ sources.environment, Environment.settingName? v.1 = none := by
    decide +kernel
  exact ⟨t', hextension, hsave, hother, hvariables,
    load_of_save hextension hsave rfl hother hvariables⟩

end Settings

end EntityTypings
