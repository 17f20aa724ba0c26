import EntityTypings.Proofs.AttributeNames
import EntityTypings.Proofs.Assembly
import EntityTypings.Proofs.Links

/-!
# Lookups and declarations

A source declares one type for each schema and looks the schemas up by id in three ways: all
of them, those of the context family, and the attributes of each. Here it is shown that these
agree. The main statement, `lookups_of_generate`, says what each of them lists, in terms of
the ids of the catalog alone (`declaredIds`), which may repeat. It says so twice: of the
declarations (`Artifact.Aligned`) and of the text in which they are written
(`Artifact.AlignedText`).

A declaration refers to the lookup of attributes when it gives a type to
`custom_attributes`: the root under its type parameter, which stands for any member of the
family, and every other schema under its own id (`type_of_customAttributes`). Since the
lookup lists all ids, what is referred to is there.
-/

namespace EntityTypings

namespace Generation

/-- The ids of the schemas that are to be declared, in the order of the catalog. -/
def declaredIds (skipped : List String) (schemas : List Schema) : List String :=
  (schemas.filterMap Schema.id?).filter (· ∉ skipped)

theorem declaredIds_eq (skipped : List String) (schemas : List Schema) :
    declaredIds skipped schemas = (schemas.filter (isDeclared skipped)).map Schema.displayId := by
  unfold declaredIds
  induction schemas with
  | nil => rfl
  | cons s rest ih =>
    cases hid : s.id? with
    | none =>
      rw [List.filterMap_cons_none hid, List.filter_cons_of_neg (by simp [isDeclared, hid]), ih]
    | some id =>
      rw [List.filterMap_cons_some hid]
      by_cases hskip : id ∈ skipped
      · rw [List.filter_cons_of_neg (by simpa using hskip),
          List.filter_cons_of_neg (by simpa [isDeclared, hid] using hskip), ih]
      · rw [List.filter_cons_of_pos (by simpa using hskip),
          List.filter_cons_of_pos (by simpa [isDeclared, hid] using hskip), ih, List.map_cons,
          (Schema.id?_eq_some_iff.1 hid).1]

end Generation

/-! ### What a source declares besides its schemas -/

/-- The entry of a lookup that gives an id the declaration of that name. -/
def Member.identity (id : String) : Member := .plain id (.named id)

namespace Artifact

variable {a : Artifact} {d : Declaration}

/-- The entries of the lookup of the given name. -/
def entries? (a : Artifact) (name : String) : Option (List Member) :=
  (a.auxiliary.find? (fun d => d.name = name)).map Declaration.members

/-- Where no two names are the same, a lookup has the entries of the declaration of its name. -/
theorem entries?_of_mem (hnames : (a.auxiliary.map Declaration.name).Nodup)
    (hd : d ∈ a.auxiliary) : a.entries? d.name = some d.members := by
  have hsome : (a.auxiliary.find? (fun e => e.name = d.name)).isSome = true :=
    List.find?_isSome.2 ⟨d, hd, decide_eq_true rfl⟩
  obtain ⟨e, he⟩ := Option.isSome_iff_exists.1 hsome
  have hname : e.name = d.name := by simpa using List.find?_some he
  have heq : e = d := List.inj_on_of_nodup_map hnames (List.mem_of_find?_eq_some he) hd hname
  rw [entries?, he, heq, Option.map_some]

end Artifact

namespace Generation

variable (options : Options) (configurations : List AttributeConfiguration) (e : Entities)

/-- The names that the lookups declare, with the types that belong to them. -/
def lookupNames : List String :=
  [Descriptor.basicLink, Declaration.entityMapName, "EntityType", "EntityData",
    Schema.subtypeMap, Schema.subtypeKeys]

theorem names_auxiliary :
    (assemble options configurations e).auxiliary.map Declaration.name =
      lookupNames ++ (Declaration.attributes configurations e.schemas).map Declaration.name := by
  rw [Artifact.auxiliary, List.map_append]
  rfl

/-- Besides its schemas, a source declares no name twice. -/
theorem nodup_names_auxiliary :
    ((assemble options configurations e).auxiliary.map Declaration.name).Nodup := by
  rw [names_auxiliary, List.nodup_append]
  refine ⟨by decide, Declaration.nodup_names_attributes configurations e.schemas, ?_⟩
  rintro n hn m hm rfl
  have hother : ∀ n ∈ lookupNames, n ≠ Schema.attributeMap ∧
      n ∉ Declaration.configurationTableName :: Declaration.rowTypes.map Declaration.name ∧
      ¬ valueTypePrefix.toList <+: n.toList := by decide +kernel
  obtain ⟨hmap, htable, hkey⟩ := hother n hn
  rw [Declaration.names_attributes, List.mem_append, List.mem_append, List.mem_singleton] at hm
  rcases hm with (hm | hm) | hm
  · exact htable hm
  · exact Declaration.not_mem_typeNames configurations hkey hm
  · exact hmap hm

theorem entries?_entityMap :
    (assemble options configurations e).entries? Declaration.entityMapName =
      some (e.ids.map Member.identity) :=
  Artifact.entries?_of_mem (nodup_names_auxiliary options configurations e)
    (d := .identityMap Declaration.entityMapName e.ids) (.tail _ (.head _))

theorem entries?_subtypeMap :
    (assemble options configurations e).entries? Schema.subtypeMap =
      some (e.memberIds.map Member.identity) :=
  Artifact.entries?_of_mem (nodup_names_auxiliary options configurations e)
    (d := .identityMap Schema.subtypeMap e.memberIds)
    (.tail _ (.tail _ (.tail _ (.tail _ (.head _)))))

theorem entries?_attributeMap :
    (assemble options configurations e).entries? Schema.attributeMap =
      some (e.schemas.map fun s =>
        .plain s.displayId ((AttributeTypes.derive configurations).schemaType s)) :=
  Artifact.entries?_of_mem (nodup_names_auxiliary options configurations e)
    (d := .attributeMap (AttributeTypes.derive configurations) e.schemas)
    (List.mem_append_right _ (List.mem_append_right _ (List.mem_singleton_self _)))

end Generation

/-! ### Custom attributes -/

namespace Schema

/-- The type of lists of what the lookup of attributes has under a key. -/
def attributesAt (key : String) : TypeExpr := .named ("Array<" ++ attributeMap ++ "[" ++ key ++ "]>")

theorem attributesAt_injective {k l : String} (h : attributesAt k = attributesAt l) : k = l := by
  unfold attributesAt at h
  rw [TypeExpr.named.injEq] at h
  exact (String.append_right_inj _).1 ((String.append_left_inj _).1 h)

end Schema

theorem literal_injective {m n : String} (h : literal m = literal n) : m = n :=
  (String.append_right_inj _).1 ((String.append_left_inj _).1 h)

/-- A literal type is not the type parameter of the root. -/
theorem literal_ne_rootParameter (n : String) : literal n ≠ Schema.rootParameter := by
  intro h
  have hlength := congrArg String.length h
  have hquote : "\"".length = 1 := rfl
  have hparameter : Schema.rootParameter.length = 1 := rfl
  simp only [literal, String.length_append] at hlength
  omega

namespace Catalog

variable {c : Catalog} {s : Schema} {d : Declaration}

theorem isRoot_iff_of_id? (h : s.id? = some s.displayId) :
    s.isRoot = true ↔ s.displayId = Schema.rootId := by
  simp [Schema.isRoot, h]

/-- Custom attributes are looked up by the root under its type parameter, and by any other
schema under its id. -/
theorem type_of_customAttributes (h : (c.declare s).declaration = .ok d)
    (hid : s.id? = some s.displayId) {m : Member} (hm : m ∈ d.members)
    (hname : m.name = Schema.customAttributes) :
    m.type = Schema.attributesAt
      (if d.name = Schema.rootId then Schema.rootParameter else literal d.name) := by
  have htype : m.type = s.attributesType := by
    cases hs : s.isSubtype with
    | true =>
      rw [declaration_of_isSubtype hs] at h
      cases h
      cases hm
    | false =>
      rw [(interface_of_declare h hs).1] at hm
      rcases List.mem_append.1 hm with hm | hm
      · obtain ⟨p, -, hp⟩ := List.mem_filterMap.1 hm
        have hcustom : p.1 = Schema.customAttributes := (Schema.member?_name hp).symm.trans hname
        unfold Schema.member? at hp
        split at hp
        · rw [Schema.memberType?, if_pos hcustom] at hp
          cases hp
          rfl
        · cases hp
      · simp only [Schema.addedMembers, List.mem_cons, List.not_mem_nil, or_false] at hm
        have hne : Schema.entityType ≠ Schema.customAttributes ∧
            Schema.permissions ≠ Schema.customAttributes := by decide
        rcases hm with rfl | rfl
        · exact absurd hname hne.1
        · exact absurd hname hne.2
  rw [htype, name_of_declare h]
  simp only [← isRoot_iff_of_id? hid]
  rfl

end Catalog

/-! ### The lookups of a run -/

namespace Generation

variable {options : Options} {schemas : List Schema} {configurations : List AttributeConfiguration}
  {o : Output} {a : Artifact}

/-- The schemas that are to be declared and the declarations of the source correspond, one to
one and in order. -/
theorem forall₂_entities (h : generate options schemas configurations = .ok o)
    (ha : o.artifact = some a) :
    List.Forall₂ (fun s d => (Catalog.declare ⟨schemas⟩ s).declaration = .ok d)
      (schemas.filter (isDeclared options.skipped)) a.entities := by
  rw [entities_of_generate h ha,
    ← map_fst_declared (List.findSome?_eq_none_iff.1 (generate_eq_ok h ha).1),
    List.forall₂_map_left_iff, List.forall₂_map_right_iff, List.forall₂_same]
  intro p hp
  obtain ⟨s, -, hs⟩ := List.mem_filterMap.1 hp
  obtain ⟨-, rfl, hdeclare⟩ := declared?_eq_some_iff.1 hs
  exact hdeclare

/-- The declarations of schemas have the ids that are to be declared as their names. -/
theorem names_entities (h : generate options schemas configurations = .ok o)
    (ha : o.artifact = some a) :
    a.entities.map Declaration.name = declaredIds options.skipped schemas := by
  rw [declaredIds_eq, eq_comm, ← List.forall₂_eq_eq_eq, List.forall₂_map_left_iff,
    List.forall₂_map_right_iff]
  exact (forall₂_entities h ha).imp fun s d hd => (Catalog.name_of_declare hd).symm

end Generation

/-- The lookups of a source agree with each other and with the declarations of schemas, where
`ids` are those of all schemas and `memberIds` those of the context family. -/
structure Artifact.Aligned (a : Artifact) (ids memberIds : List String) : Prop where
  /-- There is one declaration for each id. -/
  names : a.entities.map Declaration.name = ids
  /-- No lookup can be mistaken for another. -/
  nodup : (a.auxiliary.map Declaration.name).Nodup
  /-- The lookup of all schemas has an entry for each id. -/
  entityMap : a.entries? Declaration.entityMapName = some (ids.map Member.identity)
  /-- The lookup of the context family has an entry for each member. -/
  subtypeMap : a.entries? Schema.subtypeMap = some (memberIds.map Member.identity)
  /-- The lookup of attributes has an entry for each id. -/
  attributeMap : ∃ entries, a.entries? Schema.attributeMap = some entries ∧
    entries.map Member.name = ids
  /-- The root looks up custom attributes for its type parameter, any other schema for itself. -/
  attributesType : ∀ d ∈ a.entities, ∀ m ∈ d.members, m.name = Schema.customAttributes →
    m.type = Schema.attributesAt
      (if d.name = Schema.rootId then Schema.rootParameter else literal d.name)

/-- Each id that a body looks up the attributes of is listed. -/
theorem Artifact.Aligned.mem_ids {a : Artifact} {ids memberIds : List String}
    (h : a.Aligned ids memberIds) {d : Declaration} (hd : d ∈ a.entities) {m : Member}
    (hm : m ∈ d.members) (hname : m.name = Schema.customAttributes) {id : String}
    (hid : m.type = Schema.attributesAt (literal id)) : id ∈ ids := by
  have hkey := Schema.attributesAt_injective ((h.attributesType d hd m hm hname).symm.trans hid)
  split at hkey
  · exact absurd hkey.symm (literal_ne_rootParameter id)
  · rw [← literal_injective hkey, ← h.names]
    exact List.mem_map_of_mem hd

/-! ### The text of the lookups -/

/-- The entries that give each id the declaration of that name, each on a line of its own. -/
def identitySource (ids : List String) : String :=
  String.join (ids.map (fun id => "  " ++ id ++ ": " ++ id ++ ";\n"))

/-- The record of links, the lookup of all schemas and that of the context family, with the types
that belong to them. -/
def lookupSources (ids memberIds : List String) : List String :=
  ["export interface BasicLink \x7b\n  id: string;\n  type: string;\n  name: string;\n\x7d\n",
    "export interface EntityTypeMap \x7b\n" ++ identitySource ids ++ "\x7d\n"
      ++ "export type EntityType = keyof EntityTypeMap;\n"
      ++ "export type EntityData<TEntityType extends EntityType = EntityType> = "
      ++ "EntityTypeMap[TEntityType];\n",
    "export interface TypedContextSubtypeMap \x7b\n" ++ identitySource memberIds ++ "\x7d\n"
      ++ "export type TypedContextSubtype = keyof TypedContextSubtypeMap;\n"]

/-- The lookups of a source agree as they are written, where `ids` are those of all schemas and
`memberIds` those of the context family. -/
structure Artifact.AlignedText (a : Artifact) (ids memberIds : List String) : Prop where
  /-- There is one declaration for each id, which declares it. -/
  declares : List.Forall₂ (fun d id => Declares d.source id) a.entities ids
  /-- The lookup of all schemas has a line for each id, that of the family one for each member. -/
  lookups : a.lookups.map sourceOfAll = lookupSources ids memberIds
  /-- The lookup of attributes comes last and has a line for each id. -/
  attributeMap : ∃ above lines, sourceOfAll a.attributes =
      above ++ "export interface TypedContextCustomAttributesMap \x7b\n" ++ String.join lines
        ++ "\x7d\n" ∧
    List.Forall₂ (fun line id => ∃ type, line = "  " ++ id ++ ": " ++ type ++ ";\n") lines ids
  /-- The parameter of the root ranges over the keys of the lookup of the family. -/
  root : ∀ d ∈ a.entities, d.name = "TypedContext" → ∃ rest, d.source =
    "export interface TypedContext<K extends TypedContextSubtype = TypedContextSubtype>" ++ rest
  /-- The root looks up custom attributes for its parameter, any other schema for itself. -/
  attributesType : ∀ d ∈ a.entities, ∀ m ∈ d.members, m.name = "custom_attributes" →
    m.source = "  " ++ (if m.isReadonly then "readonly " else "") ++ "custom_attributes"
      ++ (if m.isOptional then "?: " else ": ") ++ "Array<TypedContextCustomAttributesMap["
      ++ (if d.name = "TypedContext" then "K" else "\"" ++ d.name ++ "\"") ++ "]>;\n"

namespace Declaration

theorem source_identityMap (name : String) (ids : List String) :
    (identityMap name ids).source =
      "export interface " ++ name ++ " \x7b\n" ++ identitySource ids ++ "\x7d\n" := by
  have hentries : (ids.map fun id => Member.plain id (.named id)).map Member.source =
      ids.map (fun id => "  " ++ id ++ ": " ++ id ++ ";\n") := by
    rw [List.map_map]
    refine List.map_congr_left fun id _ => ?_
    rw [Function.comp_apply, Member.source_plain, TypeExpr.text_named]
  rw [identityMap, source_interface, hentries, String.append_empty, identitySource]

/-- The lookups are written as is spelled out. -/
theorem sources_lookups (ids memberIds : List String) :
    [[basicLink], entityMap ids, subtypeMap memberIds].map sourceOfAll =
      lookupSources ids memberIds := by
  have hlink : sourceOfAll [basicLink] =
      "export interface BasicLink \x7b\n  id: string;\n  type: string;\n  name: string;\n\x7d\n" := by
    decide +kernel
  have hentities : ("export interface EntityTypeMap \x7b\n" : String) =
      "export interface " ++ entityMapName ++ " \x7b\n" := by decide
  have hkeys : sourceOfAll [.typeAlias "EntityType" "" "keyof EntityTypeMap",
      .typeAlias "EntityData" "<TEntityType extends EntityType = EntityType>"
        "EntityTypeMap[TEntityType]"] =
      "export type EntityType = keyof EntityTypeMap;\n"
        ++ ("export type EntityData<TEntityType extends EntityType = EntityType> = "
        ++ "EntityTypeMap[TEntityType];\n") := by
    decide +kernel
  have hfamily : ("export interface TypedContextSubtypeMap \x7b\n" : String) =
      "export interface " ++ Schema.subtypeMap ++ " \x7b\n" := by decide
  have hsubtypes :
      sourceOfAll [.typeAlias Schema.subtypeKeys "" ("keyof " ++ Schema.subtypeMap)] =
      "export type TypedContextSubtype = keyof TypedContextSubtypeMap;\n" := by
    decide +kernel
  simp only [List.map_cons, List.map_nil, entityMap, subtypeMap, lookupSources, hlink,
    sourceOfAll_cons (identityMap _ _), hkeys, hsubtypes, source_identityMap, hentities, hfamily,
    String.append_assoc]

end Declaration

namespace Generation

variable {options : Options} {schemas : List Schema} {configurations : List AttributeConfiguration}
  {o : Output} {a : Artifact}

/-- A source is put together for the ids that are to be declared. -/
theorem exists_assemble_ids (h : generate options schemas configurations = .ok o)
    (ha : o.artifact = some a) :
    ∃ e, a = assemble options configurations e ∧ e.ids = declaredIds options.skipped schemas ∧
      e.memberIds = declaredIds options.skipped (schemas.filter Schema.isMember) := by
  obtain ⟨e, heq, hschemas⟩ := exists_assemble h ha
  refine ⟨e, heq, ?_, ?_⟩
  · rw [Entities.ids, hschemas, declaredIds_eq]
  · rw [Entities.memberIds, hschemas, List.filter_comm, declaredIds_eq]

/-- The declaration of the root starts with its parameter. -/
theorem source_of_root {c : Catalog} {s : Schema} {d : Declaration}
    (h : (c.declare s).declaration = .ok d) (hid : s.id? = some s.displayId)
    (hname : d.name = "TypedContext") : ∃ rest, d.source =
      "export interface TypedContext<K extends TypedContextSubtype = TypedContextSubtype>" ++ rest := by
  have hroot : s.isRoot = true :=
    (Catalog.isRoot_iff_of_id? hid).2 ((Catalog.name_of_declare h).symm.trans hname)
  have hopening : "export interface " ++ s.displayId ++ s.parameters =
      "export interface TypedContext<K extends TypedContextSubtype = TypedContextSubtype>" := by
    rw [← Catalog.name_of_declare h, hname, Schema.parameters, if_pos hroot]
    decide
  rw [(Catalog.interface_of_declare h (Schema.isSubtype_eq_false_of_isRoot hroot)).1, ← hopening]
  exact Declaration.exists_source_interface ..

/-- Custom attributes are looked up in the text as the declaration says. -/
theorem source_of_customAttributes {c : Catalog} {s : Schema} {d : Declaration}
    (h : (c.declare s).declaration = .ok d) (hid : s.id? = some s.displayId) {m : Member}
    (hm : m ∈ d.members) (hname : m.name = "custom_attributes") :
    m.source = "  " ++ (if m.isReadonly then "readonly " else "") ++ "custom_attributes"
      ++ (if m.isOptional then "?: " else ": ") ++ "Array<TypedContextCustomAttributesMap["
      ++ (if d.name = "TypedContext" then "K" else "\"" ++ d.name ++ "\"") ++ "]>;\n" := by
  have hopening : ("Array<TypedContextCustomAttributesMap[" : String) =
      "Array<" ++ Schema.attributeMap ++ "[" := by decide
  have hclosing : ("]>;\n" : String) = "]>" ++ ";\n" := by decide
  have htype : m.type.text = "Array<" ++ Schema.attributeMap ++ "["
      ++ (if d.name = "TypedContext" then "K" else "\"" ++ d.name ++ "\"") ++ "]>" := by
    rw [Catalog.type_of_customAttributes h hid hm hname, Schema.attributesAt, TypeExpr.text_named]
    rfl
  rw [Member.source, hname, htype, hopening, hclosing]
  simp only [String.append_assoc]

theorem alignedText_of_generate (h : generate options schemas configurations = .ok o)
    (ha : o.artifact = some a) :
    a.AlignedText (declaredIds options.skipped schemas)
      (declaredIds options.skipped (schemas.filter Schema.isMember)) := by
  have hdeclared (d : Declaration) (hd : d ∈ a.entities) : ∃ s : Schema,
      (Catalog.declare ⟨schemas⟩ s).declaration = .ok d ∧ s.id? = some s.displayId := by
    obtain ⟨s, -, hdecl, hdeclare⟩ := exists_of_mem_entities h ha hd
    exact ⟨s, hdeclare, (isDeclared_iff.1 hdecl).1⟩
  refine ⟨?_, ?_, ?_, fun d hd hname => ?_, fun d hd m hm hname => ?_⟩
  · rw [← names_entities h ha, List.forall₂_map_right_iff, List.forall₂_same]
    intro d hd
    obtain ⟨s, hdeclare, -⟩ := hdeclared d hd
    exact Catalog.declares_of_declare hdeclare
  · obtain ⟨e, rfl, hids, hmemberIds⟩ := exists_assemble_ids h ha
    rw [← hids, ← hmemberIds]
    exact Declaration.sources_lookups e.ids e.memberIds
  · obtain ⟨e, rfl, hids, -⟩ := exists_assemble_ids h ha
    have hattributes := Declaration.sourceOfAll_attributes configurations e.schemas
    refine ⟨_, e.schemas.map (AttributeTypes.derive configurations).entrySource, hattributes, ?_⟩
    rw [← hids, Entities.ids, List.forall₂_map_left_iff, List.forall₂_map_right_iff,
      List.forall₂_same]
    exact fun s _ => ⟨_, rfl⟩
  · obtain ⟨s, hdeclare, hid⟩ := hdeclared d hd
    exact source_of_root hdeclare hid hname
  · obtain ⟨s, hdeclare, hid⟩ := hdeclared d hd
    exact source_of_customAttributes hdeclare hid hm hname

theorem aligned_of_generate (h : generate options schemas configurations = .ok o)
    (ha : o.artifact = some a) :
    a.Aligned (declaredIds options.skipped schemas)
      (declaredIds options.skipped (schemas.filter Schema.isMember)) := by
  obtain ⟨e, rfl, hids, hmemberIds⟩ := exists_assemble_ids h ha
  refine ⟨names_entities h ha, nodup_names_auxiliary options configurations e, ?_, ?_,
    ⟨_, entries?_attributeMap options configurations e, ?_⟩, fun d hd m hm hname => ?_⟩
  · rw [← hids, entries?_entityMap]
  · rw [← hmemberIds, entries?_subtypeMap]
  · rw [← hids, Entities.ids, List.map_map]
    rfl
  · obtain ⟨s, -, hdecl, hdeclare⟩ := exists_of_mem_entities h ha hd
    exact Catalog.type_of_customAttributes hdeclare (isDeclared_iff.1 hdecl).1 hm hname

end Generation

open Generation

/-- **The lookups agree with each other and with the declarations.** A source has one
declaration for each schema that is to be declared, in the order of the catalog, and its count
says how many. Their ids are the keys of the lookup of all schemas and of that of attributes,
and those of the context family are the keys of its own, in the same order. So what a body
looks up for its custom attributes is there: for another schema than the root its own id, and
for the root any member of the family. All this holds of the text, as it is written. -/
theorem lookups_of_generate {options : Options} {schemas : List Schema}
    {configurations : List AttributeConfiguration} {o : Output} (hne : schemas ≠ [])
    (h : generate options schemas configurations = .ok o) :
    let ids := declaredIds options.skipped schemas
    let memberIds := declaredIds options.skipped (schemas.filter Schema.isMember)
    ∃ a, o.artifact = some a ∧ o.text = a.source ∧ a.AlignedText ids memberIds ∧
      a.Aligned ids memberIds ∧
      List.Forall₂ (fun s d => (Catalog.declare ⟨schemas⟩ s).declaration = .ok d)
        (schemas.filter (isDeclared options.skipped)) a.entities ∧
      o.schemaCount = ids.length ∧ memberIds.Sublist ids ∧
      ∀ d ∈ a.entities, ∀ m ∈ d.members, m.name = Schema.customAttributes →
        ∀ id, m.type = Schema.attributesAt (literal id) → id ∈ ids := by
  intro ids memberIds
  obtain ⟨s, hs⟩ := List.exists_mem_of_ne_nil schemas hne
  obtain ⟨a, ha⟩ := exists_artifact h hs
  have haligned : a.Aligned ids memberIds := aligned_of_generate h ha
  refine ⟨a, ha, Output.text_eq_source ha, alignedText_of_generate h ha, haligned,
    forall₂_entities h ha, ?_, ?_,
    fun d hd m hm hname id hid => haligned.mem_ids hd hm hname hid⟩
  · obtain ⟨o', ho', -, -, hcount⟩ := exists_generate configurations hne (generate_eq_ok h ha).1
    obtain rfl : o = o' := Except.ok.inj (h.symm.trans ho')
    rw [hcount, ← List.length_map Schema.displayId, ← declaredIds_eq]
  · exact (List.filter_sublist.filterMap Schema.id?).filter _

/-- The root, a schema without an id, one that is skipped, a subtype, and two of one id, the
second with custom attributes. -/
def mixedCatalog : List Schema :=
  [.plain "TypedContext" none [("custom_attributes", textDescriptor)],
    { Schema.plain "" none [] with givenId := none },
    .plain "Message" none [],
    { Schema.plain "Shot" none [] with aliasOf := some (.record Schema.subtypeMarker) },
    .plain "Asset" none [],
    .plain "Asset" none [("custom_attributes", textDescriptor)]]

/-- The second schema of the one id looks up its attributes, which are there. -/
theorem lookups_of_mixedCatalog :
    let ids := ["TypedContext", "Shot", "Asset", "Asset"]
    ∃ o a d m, mixedCatalog ≠ [] ∧ generate .withoutLegacy mixedCatalog [] = .ok o ∧
      o.artifact = some a ∧ o.text = a.source ∧ a.AlignedText ids ["TypedContext", "Shot"] ∧
      a.Aligned ids ["TypedContext", "Shot"] ∧ o.schemaCount = 4 ∧
      d ∈ a.entities ∧ m ∈ d.members ∧ m.name = Schema.customAttributes ∧
      m.type = Schema.attributesAt (literal "Asset") ∧ "Asset" ∈ ids := by
  intro ids
  have hne : mixedCatalog ≠ [] := List.cons_ne_nil _ _
  obtain ⟨o, a, d, m, ho, ha, hd, hm, hname, htype⟩ :
      ∃ o a d m, generate .withoutLegacy mixedCatalog [] = .ok o ∧ o.artifact = some a ∧
        d ∈ a.entities ∧ m ∈ d.members ∧ m.name = Schema.customAttributes ∧
        m.type = Schema.attributesAt (literal "Asset") :=
    ⟨_, _, _, _, rfl, rfl, .tail _ (.tail _ (.tail _ (.head _))), .head _, rfl, rfl⟩
  have hids : declaredIds Options.withoutLegacy.skipped mixedCatalog = ids := by decide
  obtain ⟨a', ha', htext, hwritten, haligned, -, hcount, -, hlookup⟩ := lookups_of_generate hne ho
  obtain rfl : a = a' := Option.some.inj (ha.symm.trans ha')
  rw [hids] at hwritten haligned hcount hlookup
  exact ⟨o, a, d, m, hne, ho, ha, htext, hwritten, haligned, hcount, hd, hm, hname, htype,
    hlookup d hd m hm hname "Asset" htype⟩

end EntityTypings
