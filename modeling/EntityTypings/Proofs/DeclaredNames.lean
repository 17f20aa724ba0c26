import EntityTypings.Proofs.Lookups

/-!
# Names that are declared

A source declares its schemas under their ids, as they are, and besides them lookups, the record of
links and the types for custom attributes under names of its own. Names are told apart only among
the types for the keys of custom attributes. So among the ids no name comes twice if no id does,
and among the other names none comes twice in any case (`nodup_auxiliaryNames`), but a schema can
have the id of what is declared anyway.

The main statement, `count_declared_names`, is that this is the only way for a name to be declared
twice, and `twice_declared_names` is a source where it happens with the record of links, with a
lookup and with the type for a key. Each declaration declares its name in the text, and where names
are identifiers it declares no other (`Declares.unique`), so that declarations can be counted there
as well.
-/

namespace EntityTypings

/-! ### Names in the text -/

/-- Up to what ends it, an identifier can be read off. -/
theorem IsIdentifier.takeWhile_append {name : String} (h : IsIdentifier name) {stop : String}
    (hstop : stop ∈ [" ", "<", "("]) (rest : List Char) :
    (name.toList ++ (stop.toList ++ rest)).takeWhile isIdentifierChar = name.toList := by
  have hends : (stop.toList ++ rest).takeWhile isIdentifierChar = [] := by
    simp only [List.mem_cons, List.not_mem_nil, or_false] at hstop
    rcases hstop with rfl | rfl | rfl <;> rfl
  rw [List.takeWhile_append_of_pos h, hends, List.append_nil]

/-- The openings of declarations differ before either is over. -/
theorem opening_unique {first second : String} {source : List Char}
    (hfirst : first ∈ ["export interface ", "export type ", "export function "])
    (hsecond : second ∈ ["export interface ", "export type ", "export function "])
    (h : first.toList <+: source) (h' : second.toList <+: source) : first = second := by
  have happart : ∀ a ∈ ["export interface ", "export type ", "export function "],
      ∀ b ∈ ["export interface ", "export type ", "export function "],
      a.toList <+: b.toList → a = b := by decide +kernel
  rcases List.prefix_or_prefix_of_prefix h h' with hprefix | hprefix
  · exact happart first hfirst second hsecond hprefix
  · exact (happart second hsecond first hfirst hprefix).symm

/-- **A text declares one name**, if names are identifiers. -/
theorem Declares.unique {source m n : String} (hm : Declares source m) (hn : Declares source n)
    (hmi : IsIdentifier m) (hni : IsIdentifier n) : m = n := by
  obtain ⟨opening, hopening, stop, hstop, after, hsource⟩ := hm
  obtain ⟨opening', hopening', stop', hstop', after', hsource'⟩ := hn
  simp only [String.toList_append, List.append_assoc] at hsource hsource'
  obtain rfl : opening = opening' := opening_unique hopening hopening'
    ⟨_, hsource⟩ ⟨_, hsource'⟩
  have hrest := List.append_cancel_left (hsource.trans hsource'.symm)
  have hnames := congrArg (List.takeWhile isIdentifierChar) hrest
  rw [hmi.takeWhile_append hstop, hni.takeWhile_append hstop'] at hnames
  exact String.toList_inj.1 hnames

namespace Generation

/-- The names that a source declares besides the ids of its schemas. -/
def auxiliaryNames (configurations : List AttributeConfiguration) : List String :=
  let types := AttributeTypes.derive configurations
  lookupNames ++ (Declaration.configurationTableName :: Declaration.rowTypes.map Declaration.name ++
    types.keys.map types.typeName ++ [Schema.attributeMap])

theorem names_auxiliary_eq (options : Options) (configurations : List AttributeConfiguration)
    (e : Entities) :
    (assemble options configurations e).auxiliary.map Declaration.name =
      auxiliaryNames configurations := by
  rw [names_auxiliary, Declaration.names_attributes]
  rfl

/-- Which names they are depends on the keys of custom attributes alone, and none comes twice. -/
theorem nodup_auxiliaryNames (configurations : List AttributeConfiguration) :
    (auxiliaryNames configurations).Nodup :=
  names_auxiliary_eq .default configurations ⟨[], []⟩ ▸ nodup_names_auxiliary _ _ _

theorem basicLink_mem_auxiliaryNames (configurations : List AttributeConfiguration) :
    Descriptor.basicLink ∈ auxiliaryNames configurations :=
  List.mem_append_left _ List.mem_cons_self

variable {options : Options} {schemas : List Schema} {configurations : List AttributeConfiguration}
  {o : Output} {a : Artifact}

/-- A source declares the ids of its schemas and its other names. -/
theorem names_declarations (h : generate options schemas configurations = .ok o)
    (ha : o.artifact = some a) :
    a.declarations.map Declaration.name =
      declaredIds options.skipped schemas ++ auxiliaryNames configurations := by
  obtain ⟨e, rfl, -⟩ := exists_assemble h ha
  rw [Artifact.declarations_eq, List.map_append, names_entities h ha, names_auxiliary_eq]

/-- What a source declares besides its schemas has parameters in brackets, if it has any. -/
theorem hasBracketedParameters_of_mem_auxiliary {e : Entities} {d : Declaration}
    (hd : d ∈ (assemble options configurations e).auxiliary) : d.HasBracketedParameters := by
  simp only [Artifact.auxiliary, assemble, List.flatten_cons, List.flatten_nil, List.append_nil,
    Declaration.entityMap, Declaration.subtypeMap, Declaration.attributes, Declaration.rowTypes,
    List.cons_append, List.nil_append, List.mem_cons, List.mem_append, List.mem_filterMap,
    List.not_mem_nil, or_false] at hd
  rcases hd with rfl | rfl | rfl | rfl | rfl | rfl | rfl | rfl | rfl | rfl | ⟨key, -, hkey⟩ | rfl
  all_goals try exact .inl rfl
  · exact .inr (by decide)
  · trivial
  · obtain ⟨t, -, rfl⟩ := Option.map_eq_some_iff.1 hkey
    trivial

/-- **Every declaration of a run declares its name.** -/
theorem declares_of_mem (h : generate options schemas configurations = .ok o)
    (ha : o.artifact = some a) {d : Declaration} (hd : d ∈ a.declarations) :
    Declares d.source d.name := by
  rw [Artifact.declarations_eq, List.mem_append] at hd
  rcases hd with hentity | hauxiliary
  · obtain ⟨s, -, -, hdeclare⟩ := exists_of_mem_entities h ha hentity
    exact Catalog.declares_of_declare hdeclare
  · obtain ⟨e, rfl, -⟩ := exists_assemble h ha
    exact Declaration.declares_source (hasBracketedParameters_of_mem_auxiliary hauxiliary)

/-- The names besides the ids are identifiers. -/
theorem isIdentifier_of_mem_auxiliaryNames {name : String}
    (h : name ∈ auxiliaryNames configurations) : IsIdentifier name := by
  have hfixed : ∀ n ∈ lookupNames ++ (Declaration.configurationTableName ::
      Declaration.rowTypes.map Declaration.name) ++ [Schema.attributeMap],
      IsIdentifier n := by decide
  simp only [auxiliaryNames, List.mem_append] at h
  rcases h with hlookup | (hrow | hkey) | hmap
  · exact hfixed name (List.mem_append_left _ (List.mem_append_left _ hlookup))
  · exact hfixed name (List.mem_append_left _ (List.mem_append_right _ hrow))
  · obtain ⟨key, hmem, rfl⟩ := List.mem_map.1 hkey
    exact AttributeTypes.isIdentifier_typeName hmem
  · exact hfixed name (List.mem_append_right _ hmap)

theorem nodup_declaredIds {skipped : List String} (hids : (schemas.filterMap Schema.id?).Nodup) :
    (declaredIds skipped schemas).Nodup :=
  hids.filter _

end Generation

/-- Where names are identifiers, a name is declared in the text as often as it is the name of a
declaration. -/
theorem countP_declares {ds : List Declaration} (h : ∀ d ∈ ds, Declares d.source d.name)
    (hnames : ∀ d ∈ ds, IsIdentifier d.name) {name : String} (hname : IsIdentifier name) :
    ds.countP (fun d => Declares d.source name) = (ds.map Declaration.name).count name := by
  rw [List.count, List.countP_map]
  refine List.countP_congr fun d hd => ?_
  simp only [decide_eq_true_eq, Function.comp_apply, beq_iff_eq]
  exact ⟨fun hdeclares => (h d hd).unique hdeclares (hnames d hd) hname,
    fun heq => heq ▸ h d hd⟩

open Generation

/-- **Which names are declared twice.** In a catalog where no id is given twice, a name is declared
once for being the id of a declared schema and once for being one of the other names. So no
two declarations have the same name exactly if no declared schema has the id of another
declaration, and the record of links is declared once exactly if no declared schema has its
name. The text is that of the declarations, each of which declares its name there, and if all ids
are identifiers, then what is declared in the text is counted in the same way. -/
theorem count_declared_names {options : Options} {schemas : List Schema}
    {configurations : List AttributeConfiguration} {o : Output} {a : Artifact}
    (hids : (schemas.filterMap Schema.id?).Nodup)
    (h : generate options schemas configurations = .ok o) (ha : o.artifact = some a) :
    let names := a.declarations.map Declaration.name
    let ids := declaredIds options.skipped schemas
    o.text = a.source ∧ (∀ d ∈ a.declarations, Declares d.source d.name) ∧
    (∀ name, names.count name =
      (if name ∈ ids then 1 else 0) + if name ∈ auxiliaryNames configurations then 1 else 0) ∧
    (names.Nodup ↔ ∀ id ∈ ids, id ∉ auxiliaryNames configurations) ∧
    (names.count Descriptor.basicLink = 1 ↔ Descriptor.basicLink ∉ ids) ∧
    ((∀ id ∈ ids, IsIdentifier id) → ∀ name, IsIdentifier name →
      a.declarations.countP (fun d => Declares d.source name) =
        (if name ∈ ids then 1 else 0) + if name ∈ auxiliaryNames configurations then 1 else 0) := by
  intro names ids
  have hnames : names = ids ++ auxiliaryNames configurations := names_declarations h ha
  have hnodup : ids.Nodup := nodup_declaredIds hids
  have hcount (name : String) : names.count name =
      (if name ∈ ids then 1 else 0) + if name ∈ auxiliaryNames configurations then 1 else 0 := by
    rw [hnames, List.count_append, hnodup.count, (nodup_auxiliaryNames configurations).count]
  have hdeclares : ∀ d ∈ a.declarations, Declares d.source d.name :=
    fun d hd => declares_of_mem h ha hd
  refine ⟨Output.text_eq_source ha, hdeclares, hcount, ?_, ?_, fun hidentifiers name hname => ?_⟩
  · rw [hnames, List.nodup_append', and_iff_right hnodup,
      and_iff_right (nodup_auxiliaryNames configurations), List.disjoint_left]
  · rw [hcount, if_pos (basicLink_mem_auxiliaryNames configurations)]
    by_cases hlink : Descriptor.basicLink ∈ ids
    · simp [hlink]
    · simp [hlink]
  · rw [countP_declares hdeclares (fun d hd => ?_) hname, hcount]
    have hd : d.name ∈ names := List.mem_map_of_mem hd
    rw [hnames, List.mem_append] at hd
    exact hd.elim (hidentifiers _) isIdentifier_of_mem_auxiliaryNames

/-- A custom attribute with the key `fps`. -/
def frameRate : AttributeConfiguration := ⟨"fps", "", "task", none, true, "number", .null⟩

/-- Schemas with ids of their own: the root, a subtype, and one whose id is the start of the names
for keys. -/
def apartCatalog : List Schema :=
  [.plain "TypedContext" none [],
    { Schema.plain "Shot" none [] with aliasOf := some (.record Schema.subtypeMarker) },
    .plain "CustomAttributeValue_" none []]

/-- So all names are declared once, and the text declares the record of links once. -/
theorem names_of_apartCatalog :
    ∃ o a, (apartCatalog.filterMap Schema.id?).Nodup ∧
      generate .default apartCatalog [frameRate] = .ok o ∧ o.artifact = some a ∧
      o.text = a.source ∧ (a.declarations.map Declaration.name).Nodup ∧
      (a.declarations.map Declaration.name).count "BasicLink" = 1 ∧
      a.declarations.countP (fun d => Declares d.source "BasicLink") = 1 := by
  have hids : (apartCatalog.filterMap Schema.id?).Nodup := by decide
  obtain ⟨o, a, ho, ha⟩ : ∃ o a, generate .default apartCatalog [frameRate] = .ok o ∧
      o.artifact = some a := ⟨_, _, rfl, rfl⟩
  obtain ⟨htext, -, -, hnodup, hlink, hdeclared⟩ := count_declared_names hids ho ha
  have hapart : ∀ id ∈ declaredIds Options.default.skipped apartCatalog,
      id ∉ auxiliaryNames [frameRate] := by decide +kernel
  have hidentifiers : ∀ id ∈ declaredIds Options.default.skipped apartCatalog,
      IsIdentifier id := by decide +kernel
  have hname : IsIdentifier "BasicLink" := by decide
  refine ⟨o, a, hids, ho, ha, htext, hnodup.2 hapart, hlink.2 (by decide), ?_⟩
  have hlisted : "BasicLink" ∈ auxiliaryNames [frameRate] := basicLink_mem_auxiliaryNames _
  rw [hdeclared hidentifiers "BasicLink" hname, if_neg (by decide), if_pos hlisted]

/-- Schemas with the ids of the record of links, of the keys of a lookup, and of the type for the
key of an attribute. -/
def clashingCatalog : List Schema :=
  ["BasicLink", "EntityType", "CustomAttributeValue_fps"].map (fun id => .plain id none [])

/-- The lines of the source for them. -/
def clashingLines : List String :=
  ["// Not intended to modify manually", "",
    "export interface BasicLink \x7b",
    "  __entity_type__?: \"BasicLink\";",
    "  __permissions?: Record<string, any>;",
    "\x7d", "",
    "export interface EntityType \x7b",
    "  __entity_type__?: \"EntityType\";",
    "  __permissions?: Record<string, any>;",
    "\x7d", "",
    "export interface CustomAttributeValue_fps \x7b",
    "  __entity_type__?: \"CustomAttributeValue_fps\";",
    "  __permissions?: Record<string, any>;",
    "\x7d", "",
    "export interface BasicLink \x7b",
    "  id: string;",
    "  type: string;",
    "  name: string;",
    "\x7d", "",
    "export interface EntityTypeMap \x7b",
    "  BasicLink: BasicLink;",
    "  EntityType: EntityType;",
    "  CustomAttributeValue_fps: CustomAttributeValue_fps;",
    "\x7d",
    "export type EntityType = keyof EntityTypeMap;",
    "export type EntityData<TEntityType extends EntityType = EntityType> = "
      ++ "EntityTypeMap[TEntityType];", "",
    "export interface TypedContextSubtypeMap \x7b",
    "\x7d",
    "export type TypedContextSubtype = keyof TypedContextSubtypeMap;", "",
    "export function getAttributeConfigurations() \x7b",
    "  return [",
    "    \x7b",
    "      name: \"fps\",",
    "      type: \"number\",",
    "      label: \"\",",
    "      entityType: \"task\",",
    "      default: null,",
    "      objectType: undefined,",
    "      isHierarchical: true,",
    "    \x7d,",
    "  ] as const;",
    "\x7d",
    "export type RuntimeCustomAttributeConfiguration = "
      ++ "ReturnType<typeof getAttributeConfigurations>[number];",
    "export type RuntimeCustomAttributeConfigurationName = "
      ++ "RuntimeCustomAttributeConfiguration[\"name\"];",
    "export type RuntimeCustomAttributeConfigurationLabel = "
      ++ "RuntimeCustomAttributeConfiguration[\"label\"];",
    "export type CustomAttributeValue_fps = "
      ++ "Omit<ContextCustomAttributeValue, \"key\" | \"value\"> & \x7b",
    "  key: \"fps\";",
    "  value: number;",
    "\x7d;",
    "export interface TypedContextCustomAttributesMap \x7b",
    "  BasicLink: never;",
    "  EntityType: never;",
    "  CustomAttributeValue_fps: never;",
    "\x7d"]

/-- **Names can be declared twice**, also where no id is given twice: each of the three is declared on
two lines of the source, and that of the record of links is so in the same way. -/
theorem twice_declared_names :
    ∃ o a, (clashingCatalog.filterMap Schema.id?).Nodup ∧
      generate .default clashingCatalog [frameRate] = .ok o ∧ o.artifact = some a ∧
      (∀ name ∈ ["BasicLink", "EntityType", "CustomAttributeValue_fps"],
        (a.declarations.map Declaration.name).count name = 2) ∧
      o.text = String.join (clashingLines.map (· ++ "\n")) ∧
      clashingLines.count "export interface BasicLink \x7b" = 2 ∧
      "export interface EntityType \x7b" ∈ clashingLines ∧
      "export type EntityType = keyof EntityTypeMap;" ∈ clashingLines ∧
      "export interface CustomAttributeValue_fps \x7b" ∈ clashingLines ∧
      "export type CustomAttributeValue_fps = "
        ++ "Omit<ContextCustomAttributeValue, \"key\" | \"value\"> & \x7b" ∈ clashingLines :=
  ⟨_, _, by decide, rfl, rfl, by decide +kernel,
    (Output.text_eq_source rfl).trans (by decide +kernel), by decide +kernel, by decide, by decide,
    by decide, by decide⟩

end EntityTypings
