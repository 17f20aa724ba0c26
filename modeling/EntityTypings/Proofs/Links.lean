import EntityTypings.Proofs.EffectiveMembers

/-!
# Links between declarations

The declaration of a schema can be built on that of another: an interface on the one that it
extends, a subtype on that of the root. `Declaration.link?` is the type that is named. The
lookups and the declarations for custom attributes are not built on others in this way. What a
declaration is built on is named in its text (`linksTo_source`), and a declaration of a schema
begins with the name that it declares (`declares_of_declare`).

A base is looked up among all schemas of the catalog, and a subtype is declared as the root
applied to its id whether or not there is a root. So a link can dangle, and
`dangling_links` is a source in which two do. The main statement, `link_declared_iff`, says
exactly which: those to a schema that is skipped, and those of subtypes in a catalog without
a root.
-/

namespace EntityTypings

/-- The type that the declaration is built on: the root for a subtype, and otherwise what is
extended, if anything is. -/
def Declaration.link? (d : Declaration) : Option String :=
  if d.isSubtypeAlias then some Schema.rootId else d.heritage?.map Heritage.base

/-! ### Declarations besides those of schemas -/

namespace Artifact

/-- What a source declares besides its schemas. -/
def auxiliary (a : Artifact) : List Declaration := a.lookups.flatten ++ a.attributes

theorem declarations_eq (a : Artifact) : a.declarations = a.entities ++ a.auxiliary :=
  List.append_assoc _ _ _

end Artifact

namespace Declaration

variable {d : Declaration}

theorem link?_of_mem_entityMap {ids : List String} (h : d ∈ entityMap ids) : d.link? = none := by
  simp only [entityMap, List.mem_cons, List.not_mem_nil, or_false] at h
  rcases h with rfl | rfl | rfl
  · rfl
  · decide
  · decide

theorem link?_of_mem_subtypeMap {ids : List String} (h : d ∈ subtypeMap ids) : d.link? = none := by
  simp only [subtypeMap, List.mem_cons, List.not_mem_nil, or_false] at h
  rcases h with rfl | rfl
  · rfl
  · decide

theorem link?_of_mem_attributes {configurations : List AttributeConfiguration}
    {schemas : List Schema} (h : d ∈ attributes configurations schemas) : d.link? = none := by
  simp only [attributes, rowTypes, List.cons_append, List.nil_append, List.mem_cons,
    List.mem_append, List.mem_filterMap, List.not_mem_nil, or_false] at h
  rcases h with rfl | rfl | rfl | rfl | ⟨key, -, hkey⟩ | rfl
  · rfl
  · decide
  · decide
  · decide
  · obtain ⟨t, -, rfl⟩ := Option.map_eq_some_iff.1 hkey
    rfl
  · rfl

end Declaration

namespace Generation

variable {options : Options} {schemas : List Schema} {configurations : List AttributeConfiguration}
  {o : Output} {a : Artifact} {d : Declaration}

theorem link?_of_mem_auxiliary {e : Entities}
    (h : d ∈ (assemble options configurations e).auxiliary) : d.link? = none := by
  rcases List.mem_append.1 h with hlookup | hattribute
  · simp only [assemble, List.flatten_cons, List.flatten_nil, List.append_nil, List.mem_append,
      List.mem_singleton] at hlookup
    rcases hlookup with rfl | hmap | hmap
    · rfl
    · exact Declaration.link?_of_mem_entityMap hmap
    · exact Declaration.link?_of_mem_subtypeMap hmap
  · exact Declaration.link?_of_mem_attributes hattribute

/-- Only the declarations of schemas are built on others. -/
theorem mem_entities_of_link? (h : generate options schemas configurations = .ok o)
    (ha : o.artifact = some a) (hd : d ∈ a.declarations) {target : String}
    (hlink : d.link? = some target) : d ∈ a.entities := by
  obtain ⟨-, rfl⟩ := generate_eq_ok h ha
  rw [Artifact.declarations_eq, List.mem_append] at hd
  refine hd.resolve_right fun haux => ?_
  rw [link?_of_mem_auxiliary haux] at hlink
  cases hlink

end Generation

/-! ### Declarations of schemas -/

namespace Catalog

variable {c : Catalog} {s : Schema} {d : Declaration}

/-- The text of a declared schema declares its name. -/
theorem declares_of_declare (h : (c.declare s).declaration = .ok d) : Declares d.source d.name := by
  refine Declaration.declares_source ?_
  cases hs : s.isSubtype with
  | true =>
    rw [declaration_of_isSubtype hs] at h
    cases h
    exact .inl rfl
  | false =>
    rw [(interface_of_declare h hs).1, interfaceOf, Declaration.HasBracketedParameters]
    unfold Schema.parameters
    split
    · exact .inr (by decide)
    · exact .inl rfl

/-- What the declaration of a schema is built on is what its text names. -/
theorem linksTo_source (h : (c.declare s).declaration = .ok d) {target : String}
    (hlink : d.link? = some target) : LinksTo d.source target := by
  unfold Declaration.link? at hlink
  cases hs : s.isSubtype with
  | true =>
    have halias : d.isSubtypeAlias = true := (isSubtypeAlias_of_declare h).trans hs
    rw [halias, if_pos rfl, Option.some.injEq] at hlink
    rw [declaration_of_isSubtype hs] at h
    cases h
    rw [← hlink, Schema.source_subtypeDeclaration]
    exact .applying s.displayId
  | false =>
    have halias : d.isSubtypeAlias = false := (isSubtypeAlias_of_declare h).trans hs
    rw [halias, if_neg Bool.false_ne_true] at hlink
    obtain ⟨heritage, hheritage, rfl⟩ := Option.map_eq_some_iff.1 hlink
    obtain ⟨parameters, hsource⟩ := Declaration.source_of_heritage? hheritage
    rw [hsource]
    exact .extending ..

end Catalog

namespace Generation

variable {options : Options} {schemas : List Schema} {configurations : List AttributeConfiguration}
  {o : Output} {a : Artifact} {d : Declaration}

/-- A declaration of a schema is that of one that is to be declared. -/
theorem exists_of_mem_entities (h : generate options schemas configurations = .ok o)
    (ha : o.artifact = some a) (hd : d ∈ a.entities) :
    ∃ s ∈ schemas, isDeclared options.skipped s = true ∧
      (Catalog.declare ⟨schemas⟩ s).declaration = .ok d := by
  rw [entities_of_generate h ha, List.mem_map] at hd
  obtain ⟨⟨s', d'⟩, hmem, rfl⟩ := hd
  obtain ⟨s, hs, hdeclared⟩ := List.mem_filterMap.1 hmem
  obtain ⟨hdecl, rfl, hdeclare⟩ := declared?_eq_some_iff.1 hdeclared
  exact ⟨_, hs, hdecl, hdeclare⟩

/-- The names of the declarations are the ids of the catalog that are not skipped. -/
theorem exists_entity_iff (h : generate options schemas configurations = .ok o)
    (ha : o.artifact = some a) {name : String} :
    (∃ e ∈ a.entities, e.name = name) ↔
      name ∉ options.skipped ∧ ∃ s ∈ schemas, s.id? = some name := by
  constructor
  · rintro ⟨e, he, rfl⟩
    obtain ⟨s, hs, hdecl, hdeclare⟩ := exists_of_mem_entities h ha he
    obtain ⟨hid, hskip⟩ := isDeclared_iff.1 hdecl
    rw [Catalog.name_of_declare hdeclare]
    exact ⟨hskip, s, hs, hid⟩
  · rintro ⟨hskip, s, hs, hid⟩
    have hname := (Schema.id?_eq_some_iff.1 hid).1
    subst hname
    obtain ⟨e, he, hdeclare⟩ := exists_declaration h ha hs (isDeclared_iff.2 ⟨hid, hskip⟩)
    exact ⟨e, he, Catalog.name_of_declare hdeclare⟩

end Generation

open Generation

/-- **Which links are to a declaration.** The text of a run is that of its declarations. What a
declaration is built on stands in its text, and is itself declared, as a schema, exactly if its id
is not skipped and, where it is the root that a subtype is built on, the catalog has a root. -/
theorem link_declared_iff {options : Options} {schemas : List Schema}
    {configurations : List AttributeConfiguration} {o : Output} {a : Artifact}
    (h : generate options schemas configurations = .ok o) (ha : o.artifact = some a)
    {d : Declaration} (hd : d ∈ a.declarations) {target : String}
    (hlink : d.link? = some target) :
    o.text = a.source ∧ LinksTo d.source target ∧ (∀ e ∈ a.entities, Declares e.source e.name) ∧
      ((∃ e ∈ a.entities, e.name = target) ↔ target ∉ options.skipped ∧
        (d.isSubtypeAlias = true → ∃ r ∈ schemas, r.id? = some Schema.rootId)) := by
  obtain ⟨s, hs, hdecl, hdeclare⟩ :=
    exists_of_mem_entities h ha (mem_entities_of_link? h ha hd hlink)
  refine ⟨Output.text_eq_source ha, Catalog.linksTo_source hdeclare hlink, fun e he => ?_, ?_⟩
  · obtain ⟨t, -, -, htdeclare⟩ := exists_of_mem_entities h ha he
    exact Catalog.declares_of_declare htdeclare
  rw [exists_entity_iff h ha]
  refine and_congr_right fun _ => ?_
  unfold Declaration.link? at hlink
  cases hal : d.isSubtypeAlias with
  | true =>
    rw [hal, if_pos rfl, Option.some.injEq] at hlink
    simp [hlink]
  | false =>
    -- What is extended was found in the catalog.
    have hsub : s.isSubtype = false := (isSubtypeAlias_of_declare hdeclare).symm.trans hal
    simp only [hal, Bool.false_eq_true, if_false, Catalog.heritage?_of_declare hdeclare hsub,
      Option.map_map] at hlink
    obtain ⟨b, hb, rfl⟩ := Option.map_eq_some_iff.1 hlink
    have hmem := Catalog.mem_of_find? (Catalog.find?_displayId_of_base? hb)
    exact ⟨fun _ hal => absurd hal Bool.false_ne_true, fun _ => ⟨b, hmem, Catalog.id?_of_base? hb⟩⟩

/-- A schema with a base and a subtype, in a catalog without a root. -/
def rootlessCatalog : List Schema :=
  [.plain "Thing" none [],
    sizedShot "Thing",
    { Schema.plain "Milestone" none [] with aliasOf := some (.record Schema.subtypeMarker) }]

/-- The interface has its base, and the subtype misses the root. -/
theorem links_of_rootlessCatalog :
    ∃ o a d e, generate .default rootlessCatalog [] = .ok o ∧ o.artifact = some a ∧
      o.text = a.source ∧
      d ∈ a.declarations ∧ d.link? = some "Thing" ∧ LinksTo d.source "Thing" ∧
      ((∃ t ∈ a.entities, t.name = "Thing") ↔ "Thing" ∉ Options.default.skipped ∧
        (d.isSubtypeAlias = true → ∃ r ∈ rootlessCatalog, r.id? = some Schema.rootId)) ∧
      e ∈ a.declarations ∧ e.link? = some "TypedContext" ∧ LinksTo e.source "TypedContext" ∧
      ((∃ t ∈ a.entities, t.name = "TypedContext") ↔ "TypedContext" ∉ Options.default.skipped ∧
        (e.isSubtypeAlias = true → ∃ r ∈ rootlessCatalog, r.id? = some Schema.rootId)) := by
  obtain ⟨o, a, ho, ha, d, e, hd, hdlink, he, helink⟩ :
      ∃ o a, generate .default rootlessCatalog [] = .ok o ∧ o.artifact = some a ∧
        ∃ d e, d ∈ a.declarations ∧ d.link? = some "Thing" ∧
          e ∈ a.declarations ∧ e.link? = some "TypedContext" :=
    ⟨_, _, rfl, rfl, _, _, .tail _ (.head _), rfl, .tail _ (.tail _ (.head _)), by decide⟩
  obtain ⟨htext, hdtext, -, hdiff⟩ := link_declared_iff ho ha hd hdlink
  obtain ⟨-, hetext, -, heiff⟩ := link_declared_iff ho ha he helink
  exact ⟨o, a, d, e, ho, ha, htext, hd, hdlink, hdtext, hdiff, he, helink, hetext, heiff⟩

/-- **Links can dangle**: the base of the one is skipped, and there is no root for the other. Nothing
that is declared has either name, and the texts of the two schemas declare neither. -/
theorem dangling_links :
    ∃ o a d e, generate { Options.default with skipped := ["Thing"] } rootlessCatalog [] = .ok o ∧
      o.artifact = some a ∧ o.text = a.source ∧
      d ∈ a.declarations ∧ d.heritage? = some ⟨"Thing", [Schema.entityType, Schema.permissions]⟩ ∧
      d.source = "export interface Shot extends Omit<Thing, \"__entity_type__\" | "
        ++ "\"__permissions\"> \x7b\n  size?: string;\n  __entity_type__?: \"Shot\";\n"
        ++ "  __permissions?: Record<string, any>;\n\x7d\n" ∧
      e ∈ a.declarations ∧ e = .typeAlias "Milestone" "" "TypedContext<\"Milestone\">" ∧
      e.source = "export type Milestone = TypedContext<\"Milestone\">;\n" ∧
      (∀ t ∈ a.declarations, t.name ≠ "Thing" ∧ t.name ≠ "TypedContext") ∧
      ∀ t ∈ a.entities, ¬Declares t.source "Thing" ∧ ¬Declares t.source "TypedContext" :=
  ⟨_, _, _, _, rfl, rfl, Output.text_eq_source rfl, .head _, rfl, by decide +kernel,
    .tail _ (.head _), rfl, by decide +kernel, by decide, by decide +kernel⟩

end EntityTypings
