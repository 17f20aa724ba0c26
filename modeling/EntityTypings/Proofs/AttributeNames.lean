import EntityTypings.Proofs.Assembly
import Mathlib.Data.List.Nodup

/-!
# Names for attribute keys

Every key of the custom attributes has a declared type of its own, and its name is made
from the key. Keys come in any form, so that different ones can give the same name, and a
name with a number at its end can be what another key gives by itself. Here it is said which
name a key gets, by the names of the keys before it alone: its own if none of them has it, and
otherwise the one with the least number that none of them has (`typeName_derive`).

From this follows that names are identifiers and that no declaration for custom attributes
has the name of another (`nodup_names_attributes`). What a source says about custom attributes
is spelled out in `attributesSource`: the table, a type for each key, and for each schema the
names of the keys that apply. The main statement, `attribute_types_declared`, puts this
together: what the lookup from schemas to attributes refers to are types that are declared,
each once.
-/

namespace EntityTypings

/-! ### Telling one name apart -/

/-- The number `m` is the least from two on that gives a name that is not taken. -/
structure LeastFree (name : String) (taken : List String) (m : Nat) : Prop where
  /-- Numbers start at two. -/
  two_le : 2 ≤ m
  /-- The name with the number is not taken. -/
  free : numbered name m ∉ taken
  /-- With every smaller number it is. -/
  least : ∀ k, 2 ≤ k → k < m → numbered name k ∈ taken

theorem numbered_ne_self (name : String) (m : Nat) : numbered name m ≠ name := by
  intro h
  have hlength := congrArg String.length h
  have hmark : "_".length = 1 := rfl
  simp only [numbered, String.length_append] at hlength
  omega

/-- There is a free number before the taken names are used up: each smaller one gives a taken
name, and so does the name without a number. -/
theorem LeastFree.le_length {name : String} {taken : List String} {m : Nat}
    (h : LeastFree name taken m) (hname : name ∈ taken) : m ≤ taken.length + 1 := by
  have hnodup : (name :: (List.range (m - 2)).map (fun i => numbered name (i + 2))).Nodup := by
    refine List.nodup_cons.2 ⟨fun hmem => ?_, ?_⟩
    · obtain ⟨i, -, hi⟩ := List.mem_map.1 hmem
      exact numbered_ne_self name _ hi
    · exact List.nodup_range.map fun i j hij => by
        have := numbered_injective hij
        omega
  have hle := length_le_of_nodup_subset taken hnodup fun x hx => by
    rcases List.mem_cons.1 hx with rfl | hx
    · exact hname
    · obtain ⟨i, hi, rfl⟩ := List.mem_map.1 hx
      have := List.mem_range.1 hi
      exact h.least _ (by omega) (by omega)
  simp only [List.length_cons, List.length_map, List.length_range] at hle
  omega

theorem freshName_of_not_mem {name : String} {taken : List String} (h : name ∉ taken) :
    freshName name taken = name := if_neg h

/-- A name that is taken gets the least number that is free. -/
theorem exists_freshName_eq {name : String} {taken : List String} (h : name ∈ taken) :
    ∃ m, LeastFree name taken m ∧ freshName name taken = numbered name m := by
  have hfree := freshName_not_mem name taken
  unfold freshName at hfree ⊢
  rw [if_pos h, List.find?_map] at hfree ⊢
  cases hfind : (List.range (taken.length + 1)).find?
      ((fun n => decide (n ∉ taken)) ∘ fun i => numbered name (i + 2)) with
  | none =>
    -- Then the name itself would be the fresh one, which is taken.
    rw [hfind] at hfree
    exact absurd h hfree
  | some i =>
    obtain ⟨hi, -, hsmaller⟩ := List.find?_range_eq_some.1 hfind
    refine ⟨i + 2, ⟨by omega, by simpa using hi, fun k hk hlt => ?_⟩, rfl⟩
    have hk' : numbered name (k - 2 + 2) ∈ taken := by
      simpa using hsmaller (k - 2) (by omega)
    rwa [Nat.sub_add_cancel hk] at hk'

/-- Whether or not it gets a number, a name keeps its beginning. -/
theorem isPrefix_freshName (name : String) (taken : List String) :
    name.toList <+: (freshName name taken).toList := by
  by_cases h : name ∈ taken
  · obtain ⟨m, -, hm⟩ := exists_freshName_eq h
    rw [hm, numbered, String.append_assoc, String.toList_append]
    exact List.prefix_append _ _
  · exact ⟨[], by simp [freshName_of_not_mem h]⟩

/-! ### Identifiers -/

/-- Every character is one that an identifier can have. -/
def IsIdentifier (name : String) : Prop := ∀ c ∈ name.toList, isIdentifierChar c = true

instance : DecidablePred IsIdentifier := fun name =>
  decidable_of_iff (name.toList.all isIdentifierChar = true) List.all_eq_true

theorem toList_valueTypeName (key : String) :
    (valueTypeName key).toList = valueTypePrefix.toList ++
      key.toList.map (fun c => if isIdentifierChar c then c else '_') := by
  rw [valueTypeName, String.toList_append, String.toList_map]

theorem isIdentifier_valueTypeName (key : String) : IsIdentifier (valueTypeName key) := by
  intro c hc
  rw [toList_valueTypeName, List.mem_append] at hc
  rcases hc with hc | hc
  · exact List.all_eq_true.1 (by decide : valueTypePrefix.toList.all isIdentifierChar = true) c hc
  · obtain ⟨c', -, rfl⟩ := List.mem_map.1 hc
    split
    · assumption
    · decide

theorem IsIdentifier.numbered {name : String} (h : IsIdentifier name) (m : Nat) :
    IsIdentifier (numbered name m) := by
  intro c hc
  simp only [EntityTypings.numbered, String.toList_append, List.mem_append] at hc
  rcases hc with (hc | hc) | hc
  · exact h c hc
  · exact List.all_eq_true.1 (by decide : "_".toList.all isIdentifierChar = true) c hc
  · have hdigit : c.isDigit = true :=
      Nat.isDigit_of_mem_toDigits (by omega) (by omega) (Nat.toList_repr ▸ hc)
    simp [isIdentifierChar, Char.isAlphanum, hdigit]

theorem IsIdentifier.freshName {name : String} (h : IsIdentifier name) (taken : List String) :
    IsIdentifier (freshName name taken) := by
  by_cases hname : name ∈ taken
  · obtain ⟨m, -, hm⟩ := exists_freshName_eq hname
    exact hm ▸ h.numbered m
  · rwa [freshName_of_not_mem hname]

/-! ### Telling all names apart -/

/-- Keys are assigned names in turn. -/
theorem assignNames_append (taken as bs : List String) :
    assignNames taken (as ++ bs) = assignNames taken as ++
      assignNames (((assignNames taken as).map Prod.snd).reverse ++ taken) bs := by
  induction as generalizing taken with
  | nil => rfl
  | cons key as ih => simp [assignNames, ih]

namespace AttributeTypes

variable (configurations : List AttributeConfiguration)

theorem nodup_keys_derive : (derive configurations).keys.Nodup := by
  rw [keys_derive]
  exact nodup_firstSeen _

/-- The names of the keys are those that were assigned. -/
theorem map_typeName_keys :
    (derive configurations).keys.map (derive configurations).typeName =
      (assignNames [] (derive configurations).keys).map Prod.snd := by
  have hnames : (derive configurations).names = assignNames [] (derive configurations).keys := by
    rw [keys_derive]
    rfl
  rw [← hnames, keys, List.map_map]
  refine List.map_congr_left fun p hp => ?_
  have hlookup := lookup_eq_some_of_mem (nodup_keys_derive configurations) hp
  simp [typeName, hlookup]

/-- **The name of a key** is told apart from those of the keys before it. -/
theorem typeName_derive {before after : List String} {key : String}
    (h : (derive configurations).keys = before ++ key :: after) :
    (derive configurations).typeName key =
      freshName (valueTypeName key) (before.map (derive configurations).typeName).reverse := by
  have hall := map_typeName_keys configurations
  rw [h, assignNames_append, List.map_append, List.map_append] at hall
  have hlength : (before.map (derive configurations).typeName).length =
      ((assignNames [] before).map Prod.snd).length := by
    rw [List.length_map, List.length_map, ← List.length_map Prod.fst, map_fst_assignNames]
  obtain ⟨hbefore, hrest⟩ := List.append_inj hall hlength
  rw [hbefore]
  simpa [assignNames] using (List.cons.inj hrest).1

/-- A key whose own name no key before it has gets that name. -/
theorem typeName_of_not_mem {before after : List String} {key : String}
    (h : (derive configurations).keys = before ++ key :: after)
    (hfree : valueTypeName key ∉ before.map (derive configurations).typeName) :
    (derive configurations).typeName key = valueTypeName key := by
  rw [typeName_derive configurations h, freshName_of_not_mem (by simpa using hfree)]

/-- Any other key gets the least number that is free, of those up to the number of keys so far. -/
theorem exists_typeName_eq_numbered {before after : List String} {key : String}
    (h : (derive configurations).keys = before ++ key :: after)
    (htaken : valueTypeName key ∈ before.map (derive configurations).typeName) :
    ∃ m, LeastFree (valueTypeName key) (before.map (derive configurations).typeName) m ∧
      m ≤ before.length + 1 ∧
      (derive configurations).typeName key = numbered (valueTypeName key) m := by
  obtain ⟨m, hm, hfresh⟩ := exists_freshName_eq (List.mem_reverse.2 htaken)
  have hleast : LeastFree (valueTypeName key) (before.map (derive configurations).typeName) m :=
    ⟨hm.two_le, fun h => hm.free (List.mem_reverse.2 h),
      fun k hk hlt => List.mem_reverse.1 (hm.least k hk hlt)⟩
  have hle := hleast.le_length htaken
  rw [List.length_map] at hle
  exact ⟨m, hleast, hle, (typeName_derive configurations h).trans hfresh⟩

theorem nodup_map_typeName_keys :
    ((derive configurations).keys.map (derive configurations).typeName).Nodup := by
  rw [map_typeName_keys]
  exact (nodup_assignNames [] _).1

variable {configurations} {key : String}

/-- A configured key has a name made from it. -/
theorem exists_typeName_eq (h : key ∈ (derive configurations).keys) :
    ∃ taken, (derive configurations).typeName key = freshName (valueTypeName key) taken := by
  obtain ⟨before, after, hsplit⟩ := List.append_of_mem h
  exact ⟨_, typeName_derive configurations hsplit⟩

theorem isPrefix_typeName (h : key ∈ (derive configurations).keys) :
    valueTypePrefix.toList <+: ((derive configurations).typeName key).toList := by
  obtain ⟨taken, hname⟩ := exists_typeName_eq h
  rw [hname]
  refine List.IsPrefix.trans ?_ (isPrefix_freshName _ taken)
  rw [toList_valueTypeName]
  exact List.prefix_append _ _

theorem isIdentifier_typeName (h : key ∈ (derive configurations).keys) :
    IsIdentifier ((derive configurations).typeName key) := by
  obtain ⟨taken, hname⟩ := exists_typeName_eq h
  exact hname ▸ (isIdentifier_valueTypeName key).freshName taken

/-- The values of a configured key have the types of its configurations. -/
theorem valueType?_of_mem_keys (h : key ∈ (derive configurations).keys) :
    (derive configurations).valueType? key = some (.unionOf
      ((configurations.filter (fun a => a.key = key)).map AttributeConfiguration.valueType)) := by
  rw [keys_derive, mem_firstSeen, List.mem_map] at h
  obtain ⟨a, ha, rfl⟩ := h
  have hmem : a ∈ configurations.filter (fun b => b.key = a.key) :=
    List.mem_filter.2 ⟨ha, by simp⟩
  unfold valueType? derive
  split
  · rename_i hnil
    rw [hnil] at hmem
    cases hmem
  · rfl

/-- What applies to a schema is configured. -/
theorem mem_keys_of_mem_applicableKeys {s : Schema}
    (h : key ∈ (derive configurations).applicableKeys s) : key ∈ (derive configurations).keys := by
  obtain ⟨a, ha, rfl, -⟩ := mem_applicableKeys.1 h
  rw [keys_derive, mem_firstSeen]
  exact List.mem_map_of_mem ha

/-- Keys that apply to a schema have names that differ. -/
theorem nodup_map_typeName_applicableKeys (s : Schema) :
    (((derive configurations).applicableKeys s).map (derive configurations).typeName).Nodup := by
  refine (nodup_firstSeen _).map_on fun k hk l hl heq => ?_
  exact List.inj_on_of_nodup_map (nodup_map_typeName_keys configurations)
    (mem_keys_of_mem_applicableKeys hk) (mem_keys_of_mem_applicableKeys hl) heq

/-- Without attributes that apply, the type of the attributes has no values. -/
theorem schemaType_eq_never {s : Schema} (hs : (derive configurations).applicableKeys s = []) :
    (derive configurations).schemaType s = .never := by
  rw [schemaType, hs, List.map_nil, TypeExpr.unionOf_nil]

/-- Otherwise it is the union of the declared types of the keys that apply, one for each. -/
theorem members_schemaType {s : Schema} (h : (derive configurations).applicableKeys s ≠ []) :
    ((derive configurations).schemaType s).members =
      ((derive configurations).applicableKeys s).map
        (fun key => .named ((derive configurations).typeName key)) := by
  have hnodup : (((derive configurations).applicableKeys s).map
      (fun key => TypeExpr.named ((derive configurations).typeName key))).Nodup := by
    have hnames : (((derive configurations).applicableKeys s).map
        (derive configurations).typeName).Nodup := nodup_map_typeName_applicableKeys s
    have hinj : Function.Injective TypeExpr.named := fun m n hmn => TypeExpr.named.inj hmn
    simpa only [List.map_map, Function.comp_def] using hnames.map hinj
  rw [schemaType, TypeExpr.members_unionOf, firstSeen_of_nodup hnodup]
  · intro t ht
    obtain ⟨key, -, rfl⟩ := List.mem_map.1 ht
    rfl
  · simpa using h

theorem exists_of_mem_members_schemaType {s : Schema} {t : TypeExpr}
    (hs : (derive configurations).applicableKeys s ≠ [])
    (ht : t ∈ ((derive configurations).schemaType s).members) :
    ∃ key ∈ (derive configurations).keys, t = .named ((derive configurations).typeName key) := by
  rw [members_schemaType hs] at ht
  obtain ⟨key, hkey, rfl⟩ := List.mem_map.1 ht
  exact ⟨key, mem_keys_of_mem_applicableKeys hkey, rfl⟩

end AttributeTypes

/-! ### Declarations -/

namespace Declaration

open AttributeTypes

/-- Whether this is the value record of an attribute key. -/
def isAttributeValue : Declaration → Bool
  | attributeValue _ _ => true
  | interface _ _ _ _ | typeAlias _ _ _ | configurationTable _ => false

variable (configurations : List AttributeConfiguration) (schemas : List Schema)

/-- There is one record for each key, under its name. -/
theorem map_name_valueRecords :
    ((derive configurations).keys.filterMap (valueRecord (derive configurations))).map name =
      (derive configurations).keys.map (derive configurations).typeName := by
  rw [List.map_filterMap, ← List.filterMap_eq_map]
  refine List.filterMap_congr fun key hkey => ?_
  simp [valueRecord, valueType?_of_mem_keys hkey, name]

theorem filter_isAttributeValue_attributes :
    (attributes configurations schemas).filter isAttributeValue =
      (derive configurations).keys.filterMap (valueRecord (derive configurations)) := by
  have hrecords : ∀ d ∈ (derive configurations).keys.filterMap (valueRecord (derive configurations)),
      isAttributeValue d = true := by
    intro d hd
    obtain ⟨key, -, hkey⟩ := List.mem_filterMap.1 hd
    obtain ⟨t, -, rfl⟩ := Option.map_eq_some_iff.1 hkey
    rfl
  simp only [attributes, List.filter_append, List.filter_eq_self.2 hrecords]
  exact List.append_nil _

theorem names_attributes :
    (attributes configurations schemas).map name = configurationTableName :: rowTypes.map name ++
      (derive configurations).keys.map (derive configurations).typeName ++
      [Schema.attributeMap] := by
  simp only [attributes, List.map_append, List.map_cons, List.map_nil, map_name_valueRecords]
  rfl

/-- A name that does not begin like the name of a key is none. -/
theorem not_mem_typeNames {n : String} (h : ¬ valueTypePrefix.toList <+: n.toList) :
    n ∉ (derive configurations).keys.map (derive configurations).typeName := by
  intro hn
  obtain ⟨key, hkey, rfl⟩ := List.mem_map.1 hn
  exact h (isPrefix_typeName hkey)

/-- No two declarations for custom attributes have the same name. -/
theorem nodup_names_attributes : ((attributes configurations schemas).map name).Nodup := by
  rw [names_attributes, List.nodup_append, List.nodup_append]
  refine ⟨⟨by decide, nodup_map_typeName_keys configurations, ?_⟩, by simp, ?_⟩
  · rintro n hn m hm rfl
    have hother : ∀ n ∈ configurationTableName :: rowTypes.map name,
        ¬ valueTypePrefix.toList <+: n.toList := by decide +kernel
    exact not_mem_typeNames configurations (hother n hn) hm
  · intro n hn m hm heq
    rw [List.mem_singleton.1 hm] at heq
    subst heq
    rcases List.mem_append.1 hn with hn | hn
    · exact absurd hn (by decide)
    · exact not_mem_typeNames configurations (by decide) hn

/-- Only the lookup from schemas to their attributes has its name. -/
theorem eq_attributeMap_of_mem {d : Declaration} (hd : d ∈ attributes configurations schemas)
    (hname : d.name = Schema.attributeMap) : d = attributeMap (derive configurations) schemas :=
  List.inj_on_of_nodup_map (nodup_names_attributes configurations schemas) hd
    (List.mem_append_right _ (List.mem_singleton_self _)) hname

end Declaration

/-! ### What is written -/

namespace AttributeTypes

/-- The declared type of a key as it is written. -/
def keySource (t : AttributeTypes) (key : String) : String :=
  "export type " ++ t.typeName key
    ++ " = Omit<ContextCustomAttributeValue, \"key\" | \"value\"> & \x7b\n"
    ++ "  key: " ++ Json.quoted key ++ ";\n"
    ++ "  value: " ++ (TypeExpr.unionOf ((t.configurations.filter (fun a => a.key = key)).map
      AttributeConfiguration.valueType)).text ++ ";\n\x7d;\n"

/-- The entry of a schema in the lookup of attributes as it is written: the names of the keys that
apply, joined by bars. -/
def entrySource (t : AttributeTypes) (s : Schema) : String :=
  "  " ++ s.displayId ++ ": "
    ++ (if t.applicableKeys s = [] then "never"
      else " | ".intercalate ((t.applicableKeys s).map t.typeName)) ++ ";\n"

variable (configurations : List AttributeConfiguration)

/-- The type of the attributes of a schema is written as the names of the keys that apply. -/
theorem text_schemaType (s : Schema) :
    ((derive configurations).schemaType s).text =
      if (derive configurations).applicableKeys s = [] then "never"
      else " | ".intercalate
        (((derive configurations).applicableKeys s).map (derive configurations).typeName) := by
  split
  · rename_i hnone
    rw [schemaType_eq_never hnone, TypeExpr.never, TypeExpr.text_named]
  · rename_i hsome
    rw [TypeExpr.text_eq_textOfMembers, members_schemaType hsome, ← TypeExpr.textOfMembers_map_named,
      List.map_map]
    rfl

end AttributeTypes

/-- All that a source says about custom attributes: the table and the types of its rows, a type for
each key, and the lookup from schemas to the types of the keys that apply. -/
def attributesSource (configurations : List AttributeConfiguration) (schemas : List Schema) :
    String :=
  let types := AttributeTypes.derive configurations
  (Declaration.configurationTable configurations).source
    ++ "export type RuntimeCustomAttributeConfiguration = "
    ++ "ReturnType<typeof getAttributeConfigurations>[number];\n"
    ++ "export type RuntimeCustomAttributeConfigurationName = "
    ++ "RuntimeCustomAttributeConfiguration[\"name\"];\n"
    ++ "export type RuntimeCustomAttributeConfigurationLabel = "
    ++ "RuntimeCustomAttributeConfiguration[\"label\"];\n"
    ++ String.join (types.keys.map types.keySource)
    ++ "export interface TypedContextCustomAttributesMap \x7b\n"
    ++ String.join (schemas.map types.entrySource) ++ "\x7d\n"

namespace Declaration

open AttributeTypes

/-- The value record of a key is its declared type. -/
theorem source_valueRecord {configurations : List AttributeConfiguration} {key : String}
    (h : key ∈ (derive configurations).keys) :
    (valueRecord (derive configurations) key).map source =
      some ((derive configurations).keySource key) := by
  have hkey : ("  key: " : String) = "  " ++ "key" ++ ": " := by decide
  have hvalue : ("  value: " : String) = "  " ++ "value" ++ ": " := by decide
  have hend : (";\n\x7d;\n" : String) = ";\n" ++ "\x7d;\n" := by decide
  have hsource (t : TypeExpr) : (attributeValue ((derive configurations).typeName key)
      [.plain "key" (.named (Json.quoted key)), .plain "value" t]).source =
        "export type " ++ (derive configurations).typeName key
          ++ " = Omit<ContextCustomAttributeValue, \"key\" | \"value\"> & \x7b\n"
          ++ "  key: " ++ Json.quoted key ++ ";\n" ++ "  value: " ++ t.text ++ ";\n\x7d;\n" := by
    unfold source
    simp only [List.map_cons, List.map_nil, Member.source_plain, TypeExpr.text_named, hkey, hvalue,
      hend, String.join_cons, String.join_nil, String.append_empty, String.append_assoc]
  rw [valueRecord, valueType?_of_mem_keys h, Option.map_some, Option.map_some, hsource]
  rfl

theorem sourceOfAll_valueRecords (configurations : List AttributeConfiguration) :
    sourceOfAll ((derive configurations).keys.filterMap (valueRecord (derive configurations))) =
      String.join ((derive configurations).keys.map (derive configurations).keySource) := by
  rw [sourceOfAll, List.map_filterMap, ← List.filterMap_eq_map]
  exact congrArg String.join (List.filterMap_congr fun key hkey => source_valueRecord hkey)

theorem source_attributeMap (configurations : List AttributeConfiguration) (schemas : List Schema) :
    (attributeMap (derive configurations) schemas).source =
      "export interface TypedContextCustomAttributesMap \x7b\n"
        ++ String.join (schemas.map (derive configurations).entrySource) ++ "\x7d\n" := by
  have hentries : (schemas.map fun s => Member.plain s.displayId
      ((derive configurations).schemaType s)).map Member.source =
        schemas.map (derive configurations).entrySource := by
    rw [List.map_map]
    refine List.map_congr_left fun s _ => ?_
    rw [Function.comp_apply, Member.source_plain, text_schemaType, entrySource]
  have hopening : ("export interface TypedContextCustomAttributesMap \x7b\n" : String) =
      "export interface " ++ Schema.attributeMap ++ "" ++ " \x7b\n" := by decide
  rw [attributeMap, source_interface, hentries, hopening]

theorem sourceOfAll_rowTypes :
    sourceOfAll rowTypes =
      "export type RuntimeCustomAttributeConfiguration = "
        ++ "ReturnType<typeof getAttributeConfigurations>[number];\n"
        ++ "export type RuntimeCustomAttributeConfigurationName = "
        ++ "RuntimeCustomAttributeConfiguration[\"name\"];\n"
        ++ "export type RuntimeCustomAttributeConfigurationLabel = "
        ++ "RuntimeCustomAttributeConfiguration[\"label\"];\n" := by
  decide +kernel

/-- **The declarations for custom attributes** are what is spelled out. -/
theorem sourceOfAll_attributes (configurations : List AttributeConfiguration)
    (schemas : List Schema) :
    sourceOfAll (attributes configurations schemas) = attributesSource configurations schemas := by
  rw [attributes, sourceOfAll_append, sourceOfAll_append, sourceOfAll_cons, sourceOfAll_rowTypes,
    sourceOfAll_valueRecords, sourceOfAll_singleton, source_attributeMap, attributesSource]
  simp only [String.append_assoc]

end Declaration

open Generation in
/-- **Each key has a declared type, and what refers to one is declared.** The name of a key is
made from it, with the least number that is free if a key before it has the name, and this
number is no greater than that of the keys so far. The names are distinct and
identifiers. Each is declared once, in the order of the keys, and no other declaration for
custom attributes has it. What the lookup gives for a schema is the union of types that are
declared, or, if no attributes apply to it, the type without values. All this is what is written
for custom attributes, by itself and in a whole run. -/
theorem attribute_types_declared (configurations : List AttributeConfiguration) :
    let types := AttributeTypes.derive configurations
    (∀ before key after, types.keys = before ++ key :: after →
      (valueTypeName key ∉ before.map types.typeName → types.typeName key = valueTypeName key) ∧
      (valueTypeName key ∈ before.map types.typeName →
        ∃ m, LeastFree (valueTypeName key) (before.map types.typeName) m ∧
          m ≤ before.length + 1 ∧ types.typeName key = numbered (valueTypeName key) m)) ∧
    (types.keys.map types.typeName).Nodup ∧
    (∀ key ∈ types.keys, IsIdentifier (types.typeName key)) ∧
    ∀ schemas, let declarations := Declaration.attributes configurations schemas
      (declarations.filter Declaration.isAttributeValue).map Declaration.name =
        types.keys.map types.typeName ∧
      (declarations.map Declaration.name).Nodup ∧
      (∀ d ∈ declarations, d.name = Schema.attributeMap → ∀ m ∈ d.members,
        ∃ s ∈ schemas, m.name = s.displayId ∧
          (types.applicableKeys s = [] ∧ m.type = .never ∨
            ∀ t ∈ m.type.members, ∃ key ∈ types.keys, t = .named (types.typeName key))) ∧
      (∀ e : Emission, e.depth = 0 →
        (e.declarations declarations).code = e.code ++ attributesSource configurations schemas) ∧
      ∀ (options : Options) (o : Output) (a : Artifact),
        generate options schemas configurations = .ok o → o.artifact = some a →
        o.text = a.source ∧ sourceOfAll a.attributes =
          attributesSource configurations (schemas.filter (isDeclared options.skipped)) := by
  intro types
  refine ⟨fun before key after hsplit => ?_, AttributeTypes.nodup_map_typeName_keys _,
    fun key hkey => AttributeTypes.isIdentifier_typeName hkey,
    fun schemas => ⟨?_, Declaration.nodup_names_attributes _ _, fun d hd hname m hm => ?_,
      fun e hdepth => ?_, fun options o a h ha => ⟨Output.text_eq_source ha, ?_⟩⟩⟩
  · exact ⟨AttributeTypes.typeName_of_not_mem configurations hsplit,
      AttributeTypes.exists_typeName_eq_numbered configurations hsplit⟩
  · rw [Declaration.filter_isAttributeValue_attributes, Declaration.map_name_valueRecords]
  · rw [Declaration.eq_attributeMap_of_mem configurations schemas hd hname] at hm
    obtain ⟨s, hs, rfl⟩ := List.mem_map.1 hm
    refine ⟨s, hs, rfl, ?_⟩
    by_cases hnone : types.applicableKeys s = []
    · exact .inl ⟨hnone, AttributeTypes.schemaType_eq_never hnone⟩
    · exact .inr fun t ht => AttributeTypes.exists_of_mem_members_schemaType hnone ht
  · rw [Emission.declarations_eq_lines, Emission.code_lines, hdepth,
      Declaration.renderLines_flatMap_lines, Declaration.sourceOfAll_attributes]
  · obtain ⟨e, rfl, hschemas⟩ := exists_assemble h ha
    rw [← hschemas]
    exact Declaration.sourceOfAll_attributes configurations e.schemas

/-- Attributes of which the first and the last come out alike, and the one between them as the
last does with the number two. -/
def collidingAttributes : List AttributeConfiguration :=
  ["a-b", "a_b_2", "a.b"].map (fun key => ⟨key, "", "task", some "Shot", false, "text", .null⟩)

/-- So the last has the number three. -/
theorem names_of_collidingAttributes :
    let types := AttributeTypes.derive collidingAttributes
    types.keys = ["a-b", "a_b_2"] ++ "a.b" :: [] ∧
      valueTypeName "a.b" ∈ ["a-b", "a_b_2"].map types.typeName ∧
      LeastFree (valueTypeName "a.b") (["a-b", "a_b_2"].map types.typeName) 3 ∧
      types.typeName "a.b" = numbered (valueTypeName "a.b") 3 := by
  intro types
  have hnames := (attribute_types_declared collidingAttributes).1
  have hkeys : types.keys = ["a-b", "a_b_2", "a.b"] := by decide
  have hsame : valueTypeName "a.b" = valueTypeName "a-b" := by
    rw [← String.toList_inj, toList_valueTypeName, toList_valueTypeName,
      List.append_cancel_left_eq]
    exact (rfl : _ = ['a', '_', 'b']).trans rfl
  have htwo : numbered (valueTypeName "a.b") 2 = valueTypeName "a_b_2" := by
    rw [← String.toList_inj, numbered, String.toList_append, String.toList_append,
      toList_valueTypeName, toList_valueTypeName, List.append_assoc, List.append_assoc,
      List.append_cancel_left_eq]
    rfl
  have hfirst : types.typeName "a-b" = valueTypeName "a-b" :=
    (hnames [] "a-b" _ hkeys).1 List.not_mem_nil
  have hsecond : types.typeName "a_b_2" = valueTypeName "a_b_2" := by
    refine (hnames ["a-b"] "a_b_2" ["a.b"] hkeys).1 ?_
    rw [List.map_singleton, hfirst, List.mem_singleton, ← htwo, hsame]
    exact numbered_ne_self _ _
  have htaken : valueTypeName "a.b" ∈ ["a-b", "a_b_2"].map types.typeName := by
    rw [List.map_cons, hfirst, hsame]
    exact List.mem_cons_self
  obtain ⟨m, hm, hle, hname⟩ := (hnames ["a-b", "a_b_2"] "a.b" [] hkeys).2 htaken
  have hthree : m = 3 := by
    have hne : m ≠ 2 := by
      rintro rfl
      refine hm.free ?_
      rw [htwo, List.map_cons, List.map_singleton, hsecond]
      exact List.mem_cons_of_mem _ (List.mem_singleton_self _)
    have hmin := hm.two_le
    simp only [List.length_cons, List.length_nil] at hle
    omega
  subst hthree
  exact ⟨hkeys, htaken, hm, hname⟩

end EntityTypings
