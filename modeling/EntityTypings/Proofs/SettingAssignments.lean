import EntityTypings.Proofs.SettingFields

/-!
# Layers as assignments

What a layer says is a list of assignments of values to names in groups (`Layer.assignments`),
whether they stand in the table of a group or under a path to the setting. However layers spread
over tables and paths, the tree that they make together is a table of tables that has, for each
name, the value of the last assignment (`grouped_combine`, `at?_combine`): tables are added to
what is there, and what is no table replaces what is there.

The main statement, `ofLayers_of_setsKnown`, is about layers that set known settings to values that
can be read: their settings are had, and each has the value that the last layer says which says one
(`Setting.lastSaid`), and otherwise its default.
-/

namespace EntityTypings

open SettingTree

/-! ### The last assignment -/

section

variable {κ α : Type} [DecidableEq κ]

/-- The value that a list of assignments gives a name at last. -/
def lastAssigned (assignments : List (κ × α)) (key : κ) : Option α := assignments.reverse.lookup key

@[simp] theorem lastAssigned_nil (key : κ) : lastAssigned ([] : List (κ × α)) key = none := rfl

/-- Later assignments come before earlier ones. -/
theorem lastAssigned_append (first second : List (κ × α)) (key : κ) :
    lastAssigned (first ++ second) key = (lastAssigned second key).or (lastAssigned first key) := by
  simp [lastAssigned, List.lookup_append]

theorem lastAssigned_cons (a : κ × α) (rest : List (κ × α)) (key : κ) :
    lastAssigned (a :: rest) key =
      (lastAssigned rest key).or (if key = a.1 then some a.2 else none) := by
  obtain ⟨k, v⟩ := a
  rw [← List.singleton_append, lastAssigned_append]
  by_cases h : key = k
  · simp [lastAssigned, h]
  · have hne : (key == k) = false := by simpa using h
    simp [lastAssigned, List.lookup_cons, h, hne]

theorem mem_of_lastAssigned {assignments : List (κ × α)} {key : κ} {v : α}
    (h : lastAssigned assignments key = some v) : (key, v) ∈ assignments := by
  obtain ⟨later, earlier, hsplit, -⟩ := List.lookup_eq_some_iff.1 h
  rw [← List.mem_reverse, hsplit]
  simp

theorem not_mem_of_lastAssigned {assignments : List (κ × α)} {key : κ}
    (h : lastAssigned assignments key = none) (v : α) : (key, v) ∉ assignments := by
  intro hmem
  have hne := List.lookup_eq_none_iff.1 h (key, v) (List.mem_reverse.2 hmem)
  simp at hne

/-- The assignments in one group are those of its names. -/
theorem lastAssigned_map_group (group : κ) (assignments : List (κ × α)) (key : κ × κ) :
    lastAssigned (assignments.map fun a => ((group, a.1), a.2)) key =
      if key.1 = group then lastAssigned assignments key.2 else none := by
  induction assignments with
  | nil => simp
  | cons a rest ih =>
    rw [List.map_cons, lastAssigned_cons, ih, lastAssigned_cons]
    by_cases hgroup : key.1 = group <;> by_cases hname : key.2 = a.1 <;>
      simp [Prod.ext_iff, hgroup, hname]

end

/-! ### Values under a name -/

namespace SettingTree

/-- A value that is no table replaces what is there. -/
theorem put_of_not_isTable (t : SettingTree) (name : String) {v : SettingTree} (h : ¬v.IsTable) :
    t.put name v = table (replace (lowerCase name) v t.entries) := by
  cases v with
  | table es => exact absurd trivial h
  | _ => simp [put]

/-- Values that are no tables are put under their names, the last one of a name to stay. -/
theorem putAll_of_not_isTable {fields : List (String × SettingTree)}
    (hfields : ∀ f ∈ fields, ¬f.2.IsTable) {t : SettingTree} (ht : t.IsTable) :
    (t.putAll fields).IsTable ∧ ∀ name, (t.putAll fields).entries.lookup name =
      (lastAssigned (fields.map fun f => (lowerCase f.1, f.2)) name).or
        (t.entries.lookup name) := by
  induction fields generalizing t with
  | nil => simpa [putAll] using ht
  | cons f rest ih =>
    have hput := put_of_not_isTable t f.1 (hfields f List.mem_cons_self)
    obtain ⟨htable, hlookup⟩ := ih (fun f hf => hfields f (List.mem_cons_of_mem _ hf))
      (t := t.put f.1 f.2) (by rw [hput]; trivial)
    rw [putAll]
    refine ⟨htable, fun name => ?_⟩
    rw [hlookup, hput, List.map_cons, lastAssigned_cons, Option.or_assoc]
    congr 1
    by_cases h : name = lowerCase f.1
    · simp [h]
    · simp [h, lookup_replace_of_ne h]

/-- The values of a group, none if it is not there. -/
theorem lookup_group (t : SettingTree) {default : SettingTree} (h : default.entries = [])
    (group name : String) :
    ((t.entries.lookup group).getD default).entries.lookup name = t.at? (group, name) := by
  cases hg : t.entries.lookup group <;> simp [at?, hg, h]

/-- Setting the table of a group sets the values of the group and nothing else. -/
theorem at?_replace (t : SettingTree) (group : String) (g : SettingTree)
    (key : String × String) :
    (table (replace group g t.entries)).at? key =
      if key.1 = group then g.entries.lookup key.2 else t.at? key := by
  by_cases h : key.1 = group
  · simp [at?, h]
  · simp [at?, h, lookup_replace_of_ne h]

theorem grouped_replace {t g : SettingTree} (ht : t.Grouped) (hg : g.IsTable) (group : String) :
    (table (replace group g t.entries)).Grouped := by
  refine ⟨trivial, fun name g' hg' => ?_⟩
  by_cases h : name = group
  · subst h
    rw [entries_table, lookup_replace_self] at hg'
    cases hg'
    exact hg
  · rw [entries_table, lookup_replace_of_ne h] at hg'
    exact ht.hasGroup name g' hg'

end SettingTree

/-! ### Assignments of a layer -/

/-- A value for a name in a group. -/
abbrev Assignment := (String × String) × SettingTree

/-- The assignments that an entry of a layer makes: those of a table for a group, or the one under
a path to a name in a group. Entries of other forms make none that could be said this way. -/
def assignments? (e : String × SettingTree) : Option (List Assignment) :=
  match SettingStep.path e.1, e.2 with
  | [.entry group], .table fields =>
    some (fields.map fun f => ((lowerCase group, lowerCase f.1), f.2))
  | [.entry group, .entry name], v => some [((lowerCase group, lowerCase name), v)]
  | _, _ => none

/-- The assignments that a layer makes. -/
def Layer.assignments (layer : Layer) : List Assignment :=
  layer.flatMap fun e => (assignments? e).getD []

/-- An entry of a layer makes assignments, of values that are no tables. -/
def AssignsValues (e : String × SettingTree) : Prop :=
  ∃ assignments, assignments? e = some assignments ∧ ∀ a ∈ assignments, ¬a.2.IsTable

/-- What a change of a tree makes of the values for settings: it gives the values that are assigned
and leaves the others as they are. -/
structure Assigns (t t' : SettingTree) (assignments : List Assignment) : Prop where
  /-- The groups are still tables. -/
  grouped : t'.Grouped
  /-- The values are the last ones assigned, or those that were there. -/
  at? : ∀ key, t'.at? key = (lastAssigned assignments key).or (t.at? key)

theorem Assigns.refl {t : SettingTree} (ht : t.Grouped) : Assigns t t [] :=
  ⟨ht, fun key => by rw [lastAssigned_nil, Option.none_or]⟩

/-- Changes one after the other assign one after the other. -/
theorem Assigns.trans {t t' t'' : SettingTree} {first second : List Assignment}
    (h : Assigns t t' first) (h' : Assigns t' t'' second) : Assigns t t'' (first ++ second) :=
  ⟨h'.grouped, fun key => by rw [h'.at?, h.at?, lastAssigned_append, Option.or_assoc]⟩

/-- The fields of a table are assigned in the group. -/
theorem assigns_put_table {t : SettingTree} (ht : t.Grouped) (group : String)
    {fields : List (String × SettingTree)} (hfields : ∀ f ∈ fields, ¬f.2.IsTable) :
    Assigns t (t.put group (table fields))
      (fields.map fun f => ((lowerCase group, lowerCase f.1), f.2)) := by
  have hthere : ((t.entries.lookup (lowerCase group)).getD (table [])).IsTable := by
    cases hg : t.entries.lookup (lowerCase group) with
    | none => trivial
    | some g => exact ht.hasGroup _ g hg
  obtain ⟨htable, hlookup⟩ := putAll_of_not_isTable hfields hthere
  have hmap (key : String × String) :=
    lastAssigned_map_group (lowerCase group) (fields.map fun f => (lowerCase f.1, f.2)) key
  simp only [List.map_map, Function.comp_def] at hmap
  rw [put]
  refine ⟨grouped_replace ht htable _, fun key => ?_⟩
  rw [at?_replace, hmap]
  by_cases hkey : key.1 = lowerCase group
  · rw [if_pos hkey, if_pos hkey, hlookup, lookup_group t (entries_table []), ← hkey]
  · rw [if_neg hkey, if_neg hkey, Option.none_or]

/-- A value that is put into a group is assigned there. The group is made if it is not there. -/
theorem assigns_putAt {t : SettingTree} (ht : t.Grouped) (group name : String) {v : SettingTree}
    (hv : ¬v.IsTable) :
    Assigns t (putAt v [.entry group, .entry name] t)
      [((lowerCase group, lowerCase name), v)] := by
  rw [putAt, putAt, put_of_not_isTable _ _ hv]
  · refine ⟨grouped_replace ht (by trivial) _, fun key => ?_⟩
    rw [at?_replace, lastAssigned_cons, lastAssigned_nil, Option.none_or, entries_table]
    by_cases hgroup : key.1 = lowerCase group
    · by_cases hname : key.2 = lowerCase name
      · simp [Prod.ext_iff, hgroup, hname]
      · rw [if_pos hgroup, lookup_replace_of_ne hname, lookup_group t rfl, ← hgroup]
        simp [Prod.ext_iff, hname]
    · simp [Prod.ext_iff, hgroup]
  · simp

/-- An entry of a layer makes its assignments in the tree. -/
theorem assigns_putNamed {e : String × SettingTree} (he : AssignsValues e) {t : SettingTree}
    (ht : t.Grouped) : Assigns t (Layer.putNamed t e) ((assignments? e).getD []) := by
  obtain ⟨path, v⟩ := e
  obtain ⟨assignments, heq, hvalues⟩ := he
  rw [heq, Option.getD_some, Layer.putNamed]
  unfold assignments? at heq
  split at heq
  · rename_i group fields hpath hv
    cases heq
    simp only at hpath hv
    rw [hpath, hv]
    exact assigns_put_table ht group fun f hf => hvalues _ (List.mem_map_of_mem hf)
  · rename_i group name hpath
    cases heq
    simp only at hpath
    rw [hpath]
    exact assigns_putAt ht group name (hvalues _ List.mem_cons_self)
  · cases heq

/-- So do the entries of a layer, one after the other. -/
theorem assigns_onto {layer : Layer} (hlayer : ∀ e ∈ layer, AssignsValues e) {t : SettingTree}
    (ht : t.Grouped) : Assigns t (Layer.onto t layer) layer.assignments := by
  induction layer generalizing t with
  | nil => exact .refl ht
  | cons e rest ih =>
    have hfirst := assigns_putNamed (hlayer e List.mem_cons_self) ht
    exact hfirst.trans (ih (fun e' he' => hlayer e' (List.mem_cons_of_mem _ he')) hfirst.grouped)

/-- Layers are put together as if they were one. -/
theorem Layer.combine_eq_onto (layers : List Layer) :
    combine layers = onto (table []) layers.flatten := by
  rw [combine, onto, List.foldl_flatten]
  rfl

/-! ### What layers say -/

/-- An assignment gives a setting a value that it can have. -/
def Assignment.IsKnown (a : Assignment) : Prop :=
  ∃ n : Setting, n.key = a.1 ∧ (n.read a.2).isSome

/-- A layer sets settings to values that they can have, and nothing else. -/
def Layer.SetsKnown (layer : Layer) : Prop :=
  ∀ e ∈ layer, ∃ assignments ∈ assignments? e, ∀ a ∈ assignments, a.IsKnown

instance : DecidablePred Assignment.IsKnown := fun a =>
  decidable_of_iff (∃ n ∈ Setting.all, n.key = a.1 ∧ (n.read a.2).isSome)
    ⟨fun ⟨n, _, h⟩ => ⟨n, h⟩, fun ⟨n, h⟩ => ⟨n, n.mem_all, h⟩⟩

instance : DecidablePred Layer.SetsKnown := fun _ => List.decidableBAll _ _

/-- A value that a setting can have is no table. -/
theorem Setting.not_isTable_of_read {n : Setting} {v : SettingTree} (h : (n.read v).isSome) :
    ¬v.IsTable := by
  cases v with
  | table es => cases n <;> cases h
  | _ => exact id

namespace Layer

theorem SetsKnown.assignsValues {layer : Layer} (h : layer.SetsKnown) :
    ∀ e ∈ layer, AssignsValues e := by
  intro e he
  obtain ⟨assignments, heq, hknown⟩ := h e he
  refine ⟨assignments, heq, fun a ha => ?_⟩
  obtain ⟨n, -, hread⟩ := hknown a ha
  exact n.not_isTable_of_read hread

/-- What a layer that sets known settings assigns to a setting can be read. -/
theorem SetsKnown.isSome_read {layer : Layer} (h : layer.SetsKnown) {n : Setting}
    {v : SettingTree} (hv : (n.key, v) ∈ layer.assignments) : (n.read v).isSome := by
  obtain ⟨e, he, hv⟩ := List.mem_flatMap.1 hv
  obtain ⟨assignments, heq, hknown⟩ := h e he
  rw [Option.mem_def.1 heq, Option.getD_some] at hv
  obtain ⟨n', hkey, hread⟩ := hknown _ hv
  cases Setting.key_injective hkey
  exact hread

theorem assignments_append (first second : Layer) :
    assignments (first ++ second) = first.assignments ++ second.assignments :=
  List.flatMap_append

end Layer

namespace Setting

/-- The value that a layer says for a setting, if it says one. -/
def saidBy (n : Setting) (layer : Layer) : Option n.Value :=
  (lastAssigned layer.assignments n.key).bind n.read

/-- The value that the last layer says for a setting which says one. -/
def lastSaid (n : Setting) (layers : List Layer) : Option n.Value :=
  layers.reverse.findSome? n.saidBy

/-- What the last layer says is what is assigned last in all of them. -/
theorem lastSaid_eq_lastAssigned (n : Setting) {layers : List Layer}
    (h : ∀ layer ∈ layers, layer.SetsKnown) :
    n.lastSaid layers = (lastAssigned (Layer.assignments layers.flatten) n.key).bind n.read := by
  -- the last layer is looked at first, so the induction is on the layers from the back
  obtain ⟨back, rfl⟩ : ∃ back, layers = back.reverse := ⟨layers.reverse, by simp⟩
  rw [lastSaid, List.reverse_reverse]
  induction back with
  | nil => rfl
  | cons layer rest ih =>
    have hrest := ih fun l hl => h l (by simp_all)
    have hlast : layer.SetsKnown := h layer (by simp)
    rw [List.findSome?_cons, List.reverse_cons, List.flatten_append, List.flatten_singleton,
      Layer.assignments_append, lastAssigned_append, hrest, saidBy]
    cases hv : lastAssigned layer.assignments n.key with
    | none => rfl
    | some v =>
      obtain ⟨x, hx⟩ := Option.isSome_iff_exists.1 (hlast.isSome_read (mem_of_lastAssigned hv))
      simp [hx]

end Setting

/-- **Layers that set known settings say all settings**: each has the value that the last layer
says which says one, and its default if there is none. -/
theorem Settings.ofLayers_of_setsKnown {layers : List Layer}
    (h : ∀ layer ∈ layers, layer.SetsKnown) :
    ∃ s, Settings.ofLayers layers = .ok s ∧
      ∀ n : Setting, n.of s = (n.lastSaid layers).getD n.default := by
  have hempty : (table []).Grouped := ⟨trivial, fun _ _ => nofun⟩
  have hall : Layer.SetsKnown layers.flatten := fun e he => by
    obtain ⟨layer, hlayer, he⟩ := List.mem_flatten.1 he
    exact h layer hlayer e he
  have hassigns := assigns_onto hall.assignsValues hempty
  rw [← Layer.combine_eq_onto] at hassigns
  have hheard (n : Setting) : n.heard (Layer.combine layers) =
      some ((n.lastSaid layers).getD n.default) := by
    rw [Setting.heard, hassigns.at?, n.lastSaid_eq_lastAssigned h, at?, entries_table,
      List.lookup_nil, Option.bind_none, Option.or_none]
    cases hv : lastAssigned (Layer.assignments layers.flatten) n.key with
    | none => rfl
    | some v =>
      obtain ⟨x, hx⟩ := Option.isSome_iff_exists.1 (hall.isSome_read (mem_of_lastAssigned hv))
      simp [orDefault, hx]
  have htree : ofTree? (Layer.combine layers) =
      some (Setting.settings fun n => (n.lastSaid layers).getD n.default) :=
    (Setting.ofTree?_eq_some_iff hassigns.grouped).2 fun n => by rw [hheard, Setting.of_settings]
  exact ⟨_, by rw [ofLayers, htree], fun n => n.of_settings _⟩

end EntityTypings
