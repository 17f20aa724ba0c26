import EntityTypings.Proofs.BaseWalk
import EntityTypings.Proofs.Run
import EntityTypings.Proofs.SourceTexts
import Mathlib.Logic.Relation

/-!
# Effective members

What the values of a declared type have: the members of the body, those of the
type that is extended unless they are left out, and for a subtype those of the
root. `Artifact.Effective` says this of the generated source alone, without the
catalog that it was made from; it is the least such relation, so that
declarations that extend each other in a circle have no members on that account.
`Artifact.Flattens` lists the same members with repetitions, to say that there
are none. What is extended, what is left out and which members a body has are what
is written: the text of a run is that of its declarations, `Artifact.source`.

A schema does not declare again what it inherits, and what counts as inherited
are all names along its base chain, whether or not they reach a declaration. So
the main statement, `effective_own_property_iff`, is an exact condition: a property
that a schema gives a type to is a member of the schema's values if, going up
from declaration to declaration, one comes to a schema that introduces it, or to
a subtype and the root has it. `lost_under_untyped_base` is a property that is lost.
-/

namespace EntityTypings

/-- Whether the declaration is the root applied to the id that is declared. -/
def Declaration.isSubtypeAlias : Declaration → Bool
  | .typeAlias n _ definition => definition = "TypedContext<\"" ++ n ++ "\">"
  | .interface _ _ _ _ | .attributeValue _ _ | .configurationTable _ => false

namespace Artifact

/-- `a.Effective d m`: the values of the type that `d` declares have a member named `m`. -/
inductive Effective (a : Artifact) : Declaration → String → Prop where
  /-- A member of the body. -/
  | own {d : Declaration} {m : String} : m ∈ d.memberNames → Effective a d m
  /-- A member of the type that is extended, if it is not left out. -/
  | inherited {d b : Declaration} {h : Heritage} {m : String} : d.heritage? = some h →
      a.entity? h.base = some b → m ∉ h.omitted → Effective a b m → Effective a d m
  /-- A member of the root, for a subtype. -/
  | aliased {d r : Declaration} {m : String} : d.isSubtypeAlias = true →
      a.entity? Schema.rootId = some r → Effective a r m → Effective a d m

/-- `a.Flattens d names`: the members that the values of the type have are `names`, with
those of the body first. A name that is both declared and taken over stands twice. -/
inductive Flattens (a : Artifact) : Declaration → List String → Prop where
  /-- Nothing is taken over. -/
  | own {d : Declaration} : d.heritage? = none → d.isSubtypeAlias = false →
      Flattens a d d.memberNames
  /-- What is extended follows, without what is left out. -/
  | inherited {d b : Declaration} {h : Heritage} {names : List String} : d.heritage? = some h →
      a.entity? h.base = some b → Flattens a b names →
      Flattens a d (d.memberNames ++ names.filter (· ∉ h.omitted))
  /-- A subtype has what the root has. -/
  | aliased {d r : Declaration} {names : List String} : d.isSubtypeAlias = true →
      a.entity? Schema.rootId = some r → Flattens a r names → Flattens a d names

/-- The values of the root have a member named `m`. -/
def RootHas (a : Artifact) (m : String) : Prop :=
  ∃ r, a.entity? Schema.rootId = some r ∧ a.Effective r m

variable {a : Artifact} {d : Declaration} {m : String}

theorem members_of_isSubtypeAlias (h : d.isSubtypeAlias = true) :
    d.memberNames = [] ∧ d.heritage? = none := by
  cases d with
  | typeAlias n p definition => exact ⟨rfl, rfl⟩
  | interface n p h ms => simp [Declaration.isSubtypeAlias] at h
  | attributeValue n ms => simp [Declaration.isSubtypeAlias] at h
  | configurationTable rows => simp [Declaration.isSubtypeAlias] at h

theorem isSubtypeAlias_of_heritage? {h : Heritage} (hd : d.heritage? = some h) :
    d.isSubtypeAlias = false := by
  rw [← Bool.not_eq_true]
  intro hal
  rw [(members_of_isSubtypeAlias hal).2] at hd
  cases hd

/-- The members of a subtype are those of the root. -/
theorem effective_iff_rootHas (h : d.isSubtypeAlias = true) : a.Effective d m ↔ a.RootHas m := by
  obtain ⟨hnames, hheritage⟩ := members_of_isSubtypeAlias h
  constructor
  · rintro (hm | ⟨hh, -, -, -⟩ | ⟨-, hr, hm⟩)
    · rw [hnames] at hm
      cases hm
    · rw [hheritage] at hh
      cases hh
    · exact ⟨_, hr, hm⟩
  · rintro ⟨r, hr, hm⟩
    exact .aliased h hr hm

/-- The members of anything else are those of the body and what is taken over. -/
theorem effective_iff_of_not_alias (h : d.isSubtypeAlias = false) :
    a.Effective d m ↔ m ∈ d.memberNames ∨ ∃ hh b, d.heritage? = some hh ∧
      a.entity? hh.base = some b ∧ m ∉ hh.omitted ∧ a.Effective b m := by
  constructor
  · rintro (hm | ⟨hh, hb, hom, hm⟩ | ⟨hal, -, -⟩)
    · exact .inl hm
    · exact .inr ⟨_, _, hh, hb, hom, hm⟩
    · rw [h] at hal
      cases hal
  · rintro (hm | ⟨hh, b, hheritage, hb, hom, hm⟩)
    · exact .own hm
    · exact .inherited hheritage hb hom hm

/-- The list of members has the members. -/
theorem Flattens.mem_iff {names : List String} (h : a.Flattens d names) :
    m ∈ names ↔ a.Effective d m := by
  induction h with
  | own hh hal => rw [effective_iff_of_not_alias hal]; simp [hh]
  | @inherited d b hh names hheritage hb _ ih =>
    rw [effective_iff_of_not_alias (isSubtypeAlias_of_heritage? hheritage), List.mem_append,
      List.mem_filter, ih, decide_eq_true_iff]
    refine or_congr_right ⟨fun ⟨hm, hom⟩ => ⟨hh, b, hheritage, hb, hom, hm⟩, ?_⟩
    rintro ⟨hh', b', hheritage', hb', hom, hm⟩
    rw [hheritage, Option.some.injEq] at hheritage'
    subst hheritage'
    rw [hb, Option.some.injEq] at hb'
    subst hb'
    exact ⟨hm, hom⟩
  | @aliased d r names hal hr _ ih =>
    rw [effective_iff_rootHas hal, ih]
    refine ⟨fun hm => ⟨r, hr, hm⟩, ?_⟩
    rintro ⟨r', hr', hm⟩
    rw [hr, Option.some.injEq] at hr'
    exact hr' ▸ hm

end Artifact

/-! ### Members of declared schemas -/

/-- A subtype is written as the root applied to its id. -/
theorem Schema.subtypeDeclaration_eq (s : Schema) :
    s.subtypeDeclaration = .typeAlias s.displayId "" ("TypedContext<\"" ++ s.displayId ++ "\">") := by
  have hopening : ("TypedContext<\"" : String) = rootId ++ "<" ++ "\"" := by decide
  have hclosing : ("\">" : String) = "\"" ++ ">" := by decide
  rw [subtypeDeclaration, literal, hopening, hclosing]
  simp only [String.append_assoc]

theorem Schema.source_subtypeDeclaration (s : Schema) :
    s.subtypeDeclaration.source =
      "export type " ++ s.displayId ++ " = TypedContext<\"" ++ s.displayId ++ "\">;\n" := by
  have hopening : (" = TypedContext<\"" : String) = " = " ++ "TypedContext<\"" := by decide
  have hclosing : ("\">;\n" : String) = "\">" ++ ";\n" := by decide
  rw [subtypeDeclaration_eq, hopening, hclosing]
  unfold Declaration.source
  simp only [String.append_empty, String.append_assoc]

section Declared

variable {a : Artifact} {c : Catalog} {skipped : List String} {s : Schema} {d : Declaration}
  {m : String}

theorem isSubtypeAlias_of_declare (h : (c.declare s).declaration = .ok d) :
    d.isSubtypeAlias = s.isSubtype := by
  cases hs : s.isSubtype with
  | true =>
    rw [Catalog.declaration_of_isSubtype hs, Schema.subtypeDeclaration_eq] at h
    cases h
    simp [Declaration.isSubtypeAlias]
  | false =>
    rw [(Catalog.interface_of_declare h hs).1]
    rfl

/-- The declaration of a subtype has the members of the root. -/
theorem effective_of_subtype_iff (h : (c.declare s).declaration = .ok d) (hs : s.isSubtype = true) :
    a.Effective d m ↔ a.RootHas m :=
  Artifact.effective_iff_rootHas ((isSubtypeAlias_of_declare h).trans hs)

/-- An interface has the members of its body, and those of its base that it does not
leave out. -/
theorem effective_of_interface_iff (h : (c.declare s).declaration = .ok d)
    (hs : s.isSubtype = false) :
    a.Effective d m ↔ m ∈ d.memberNames ∨ m ∉ c.omittedNames s ∧
      ∃ b db, c.base? s = some b ∧ a.entity? b.displayId = some db ∧ a.Effective db m := by
  rw [Artifact.effective_iff_of_not_alias ((isSubtypeAlias_of_declare h).trans hs),
    Catalog.heritage?_of_declare h hs]
  refine or_congr_right ⟨?_, ?_⟩
  · rintro ⟨hh, db, hheritage, hdb, hom, hm⟩
    obtain ⟨b, hb, rfl⟩ := Option.map_eq_some_iff.1 hheritage
    exact ⟨hom, b, db, hb, hdb, hm⟩
  · rintro ⟨hom, b, db, hb, hdb, hm⟩
    exact ⟨⟨b.displayId, c.omittedNames s⟩, db, by rw [hb]; rfl, hdb, hom, hm⟩

theorem effective_of_interface_base_iff (h : (c.declare s).declaration = .ok d)
    (hs : s.isSubtype = false) {b : Schema} {db : Declaration} (hb : c.base? s = some b)
    (hdb : a.entity? b.displayId = some db) :
    a.Effective d m ↔ m ∈ d.memberNames ∨ m ∉ c.omittedNames s ∧ a.Effective db m := by
  rw [effective_of_interface_iff h hs]
  simp [hb, hdb]

/-- A base that is not skipped has a declaration under its id. -/
theorem Artifact.Covers.base (hc : a.Covers c skipped) {b : Schema} (hb : c.base? s = some b)
    (hskip : b.displayId ∉ skipped) :
    ∃ db, a.entity? b.displayId = some db ∧ (c.declare b).declaration = .ok db :=
  hc.declared (Catalog.find?_displayId_of_base? hb) hskip

/-- What stands under the id of a base is the declaration of that base. -/
theorem Artifact.Covers.declare_base (hc : a.Covers c skipped) {b : Schema} {db : Declaration}
    (hb : c.base? s = some b) (hdb : a.entity? b.displayId = some db) :
    b.displayId ∉ skipped ∧ (c.declare b).declaration = .ok db := by
  obtain ⟨b', hb', hskip, hdecl⟩ := hc.origin hdb
  rw [Catalog.find?_displayId_of_base? hb, Option.some.injEq] at hb'
  exact ⟨hskip, hb' ▸ hdecl⟩

/-! ### Properties that reach a declaration -/

/-- The declaration of `s` is an interface that extends the declaration of `b`. -/
def Catalog.Extends (c : Catalog) (skipped : List String) (s b : Schema) : Prop :=
  s.isSubtype = false ∧ c.base? s = some b ∧ b.displayId ∉ skipped

/-- The schema gives the property a type, and none of its bases declares it. -/
def Catalog.Introduces (c : Catalog) (s : Schema) (name : String) : Prop :=
  s.isSubtype = false ∧ s.Types name ∧ name ∉ c.chainNames s

/-- From `s` one comes up to a declaration that supplies the property: that of a schema
that introduces it, or of a subtype while the root has it. -/
def Artifact.Reaches (a : Artifact) (c : Catalog) (skipped : List String) (s : Schema)
    (name : String) : Prop :=
  ∃ t, Relation.ReflTransGen (c.Extends skipped) s t ∧
    (c.Introduces t name ∨ t.isSubtype = true ∧ a.RootHas name)

/-- The names for which a declaration has rules of their own. -/
def specialNames : List String := [Schema.entityType, Schema.permissions, Schema.customAttributes]

theorem not_mem_omittedNames (h : m ∉ specialNames) : m ∉ c.omittedNames s := by
  simp only [specialNames, List.mem_cons, List.not_mem_nil, or_false, not_or] at h
  rw [Catalog.mem_omittedNames]
  rintro (hm | hm | ⟨hm, -⟩)
  · exact h.1 hm
  · exact h.2.1 hm
  · exact h.2.2 hm

/-- The body of an interface has a special property if the schema does. -/
theorem mem_memberNames_of_mem_specialNames (h : (c.declare s).declaration = .ok d)
    (hs : s.isSubtype = false) (hm : m ∈ specialNames) (hhas : s.has m = true) :
    m ∈ d.memberNames := by
  rw [Catalog.mem_memberNames_iff h hs]
  simp only [specialNames, List.mem_cons, List.not_mem_nil, or_false] at hm
  rcases hm with hm | hm | hm
  · exact .inl hm
  · exact .inr (.inl hm)
  · exact .inr (.inr (.inl ⟨hm, hhas⟩))

/-- The body of an interface has an ordinary property exactly if the schema introduces it. -/
theorem mem_memberNames_iff_introduces (h : (c.declare s).declaration = .ok d)
    (hs : s.isSubtype = false) (hdep : isDeprecated m = false) (hm : m ∉ specialNames) :
    m ∈ d.memberNames ↔ c.Introduces s m := by
  simp only [specialNames, List.mem_cons, List.not_mem_nil, or_false, not_or] at hm
  rw [Catalog.mem_memberNames_iff h hs]
  simp [Catalog.Introduces, hs, hdep, hm, and_comm]

/-- An ordinary member of a declaration was supplied by a declaration above. The
induction is on how the member is had, since the walk up need not end. -/
theorem Artifact.Effective.reaches (hc : a.Covers c skipped) (hm : a.Effective d m)
    (hdep : isDeprecated m = false) (hne : m ∉ specialNames) :
    ∀ s, (c.declare s).declaration = .ok d → a.Reaches c skipped s m := by
  induction hm with
  | @own d m hm =>
    intro s hd
    cases hs : s.isSubtype with
    | true =>
      rw [(members_of_isSubtypeAlias ((isSubtypeAlias_of_declare hd).trans hs)).1] at hm
      cases hm
    | false => exact ⟨s, .refl, .inl ((mem_memberNames_iff_introduces hd hs hdep hne).1 hm)⟩
  | @inherited d db h m hh hdb _ _ ih =>
    intro s hd
    have hs : s.isSubtype = false :=
      (isSubtypeAlias_of_declare hd).symm.trans (isSubtypeAlias_of_heritage? hh)
    rw [Catalog.heritage?_of_declare hd hs] at hh
    obtain ⟨b, hb, rfl⟩ := Option.map_eq_some_iff.1 hh
    obtain ⟨hskip, hdecl⟩ := hc.declare_base hb hdb
    obtain ⟨t, hst, ht⟩ := ih hdep hne b hdecl
    exact ⟨t, hst.head ⟨hs, hb, hskip⟩, ht⟩
  | @aliased d r m hal hr hm _ =>
    intro s hd
    exact ⟨s, .refl, .inr ⟨(isSubtypeAlias_of_declare hd).symm.trans hal, r, hr, hm⟩⟩

/-- What is supplied above is a member, since nothing ordinary is left out on the way. -/
theorem Artifact.Reaches.effective (hc : a.Covers c skipped) (h : a.Reaches c skipped s m)
    (hdep : isDeprecated m = false) (hne : m ∉ specialNames) :
    ∀ d, (c.declare s).declaration = .ok d → a.Effective d m := by
  obtain ⟨t, hst, ht⟩ := h
  induction hst using Relation.ReflTransGen.head_induction_on with
  | refl =>
    intro d hd
    rcases ht with hintro | ⟨hsub, hroot⟩
    · exact .own ((mem_memberNames_iff_introduces hd hintro.1 hdep hne).2 hintro)
    · exact (effective_of_subtype_iff hd hsub).2 hroot
  | head hext _ ih =>
    intro d hd
    obtain ⟨hs, hb, hskip⟩ := hext
    obtain ⟨db, hdb, hdecl⟩ := hc.base hb hskip
    exact (effective_of_interface_base_iff hd hs hb hdb).2
      (.inr ⟨not_mem_omittedNames hne, ih db hdecl⟩)

/-- If the walk up ends, passes no skipped schema and no subtype, and every schema on it
that declares the property gives it a type, then the topmost of these introduces it. -/
theorem reaches_of_endsAtTop (hend : c.EndsAtTop s)
    (hhas : ∃ t ∈ s :: c.baseChain s, t.has m = true) (hs : s.isSubtype = false)
    (htyped : s.has m = true → s.Types m)
    (hchain : ∀ b ∈ c.baseChain s,
      b.displayId ∉ skipped ∧ b.isSubtype = false ∧ (b.has m = true → b.Types m)) :
    a.Reaches c skipped s m := by
  induction hend using Catalog.EndsAtTop.induction with
  | top s _ _ hnil =>
    rw [hnil] at hhas
    obtain ⟨t, ht, hm⟩ := hhas
    rw [List.mem_singleton] at ht
    subst ht
    exact ⟨t, .refl, .inl ⟨hs, htyped hm, by simp [Catalog.chainNames, hnil]⟩⟩
  | step s b _ _ hb hcons ih =>
    rw [hcons] at hchain hhas
    obtain ⟨⟨hskip, hsub, hbtyped⟩, hrest⟩ := List.forall_mem_cons.1 hchain
    by_cases habove : ∃ t ∈ b :: c.baseChain b, t.has m = true
    · obtain ⟨t, hbt, ht⟩ := ih habove hsub hbtyped hrest
      exact ⟨t, hbt.head ⟨hs, hb, hskip⟩, ht⟩
    · have hown : s.has m = true := by
        obtain ⟨t, ht, hm⟩ := hhas
        rcases List.mem_cons.1 ht with rfl | ht
        · exact hm
        · exact absurd ⟨t, ht, hm⟩ habove
      refine ⟨s, .refl, .inl ⟨hs, htyped hown, ?_⟩⟩
      rwa [Catalog.mem_chainNames, hcons]

/-- One comes up to schemas of the base chain only, if the walk ends. -/
theorem mem_of_extends (hend : c.EndsAtTop s) {t : Schema}
    (h : Relation.ReflTransGen (c.Extends skipped) s t) : t ∈ s :: c.baseChain s := by
  induction h using Relation.ReflTransGen.head_induction_on with
  | refl => exact List.mem_cons_self
  | head hext _ ih =>
    obtain ⟨hcons, hbend⟩ := Catalog.baseChain_eq_cons hend hext.2.1
    rw [hcons]
    exact List.mem_cons_of_mem _ (ih hbend)

end Declared

/-! ### A schema's own properties -/

/-- A schema with an id, a base and properties, of which nothing else is said. -/
def Schema.plain (id : String) (base : Option String) (properties : List (String × Json)) :
    Schema :=
  ⟨some id, .ofList properties, base, none, [], [], [], []⟩

/-- The descriptor of a text. -/
def textDescriptor : Json := .object [("type", .string "string")]

open Generation

/-- **When a schema's values have the properties that it gives types to.** The text of a run is
that of its declarations. A property that is neither deprecated nor special reaches the
declaration exactly if, going up from interface to extended declaration, one comes to a schema
that introduces it or to a subtype of a root that has it. So it is there if the walk up the bases
ends, nothing on it is skipped or a subtype, and no base declares the property without a type. -/
theorem effective_own_property_iff {options : Options} {schemas : List Schema}
    {configurations : List AttributeConfiguration} {o : Output} {s : Schema} {name : String}
    (hrun : generate options schemas configurations = .ok o) (hs : s ∈ schemas)
    (hdecl : isDeclared options.skipped s = true) (hsub : s.isSubtype = false)
    (hdep : isDeprecated name = false) (htyped : s.Types name) :
    ∃ a d, o.artifact = some a ∧ o.text = a.source ∧ d ∈ a.entities ∧
      (Catalog.declare ⟨schemas⟩ s).declaration = .ok d ∧
      (a.Effective d name ↔
        name ∈ specialNames ∨ a.Reaches ⟨schemas⟩ options.skipped s name) ∧
      (Catalog.EndsAtTop ⟨schemas⟩ s →
        (∀ b ∈ Catalog.baseChain ⟨schemas⟩ s, b.displayId ∉ options.skipped ∧
          b.isSubtype = false ∧ (b.has name = true → b.Types name)) →
        a.Effective d name) := by
  obtain ⟨a, ha⟩ := exists_artifact hrun hs
  obtain ⟨d, hd, hdeclare⟩ := exists_declaration hrun ha hs hdecl
  have hc := covers_of_generate hrun ha
  have hiff : a.Effective d name ↔
      name ∈ specialNames ∨ a.Reaches ⟨schemas⟩ options.skipped s name := by
    by_cases hn : name ∈ specialNames
    · have hown := mem_memberNames_of_mem_specialNames hdeclare hsub hn htyped.has
      exact ⟨fun _ => .inl hn, fun _ => .own hown⟩
    · refine ⟨fun hm => .inr (hm.reaches hc hdep hn s hdeclare), ?_⟩
      rintro (h | h)
      · exact absurd h hn
      · exact h.effective hc hdep hn d hdeclare
  refine ⟨a, d, ha, Output.text_eq_source ha, hd, hdeclare, hiff,
    fun hend hchain => hiff.2 (.inr ?_)⟩
  exact reaches_of_endsAtTop hend ⟨s, List.mem_cons_self, htyped.has⟩ hsub (fun _ => htyped) hchain

/-- A schema with a base and a text named `size`. -/
def sizedShot (base : String) : Schema := .plain "Shot" (some base) [("size", textDescriptor)]

/-- Three schemas on a chain that all declare `size`. -/
def sizedChain : List Schema :=
  [.plain "Thing" none [("size", textDescriptor)],
    .plain "Asset" (some "Thing") [("name", textDescriptor), ("size", textDescriptor)],
    sizedShot "Asset"]

/-- The last of them does not declare `size` again, and has it from the first. -/
theorem effective_size_of_sizedChain :
    ∃ o s, generate .default sizedChain [] = .ok o ∧ s ∈ sizedChain ∧ s.id? = some "Shot" ∧
      isDeclared [] s = true ∧ s.isSubtype = false ∧ isDeprecated "size" = false ∧ s.Types "size" ∧
      ∃ a d, o.artifact = some a ∧ o.text = a.source ∧ d ∈ a.entities ∧
        (Catalog.declare ⟨sizedChain⟩ s).declaration = .ok d ∧ "size" ∉ d.memberNames ∧
        d.source = "export interface Shot extends Omit<Asset, \"__entity_type__\" | "
          ++ "\"__permissions\"> \x7b\n  __entity_type__?: \"Shot\";\n"
          ++ "  __permissions?: Record<string, any>;\n\x7d\n" ∧
        a.Effective d "size" := by
  obtain ⟨o, ho⟩ : ∃ o, generate .default sizedChain [] = .ok o := ⟨_, rfl⟩
  have hmem : sizedShot "Asset" ∈ sizedChain := .tail _ (.tail _ (.head _))
  have htyped : (sizedShot "Asset").Types "size" := by decide
  obtain ⟨a, d, ha, htext, hd, hdeclare, -, heff⟩ :=
    effective_own_property_iff ho hmem rfl rfl (by decide) htyped
  have hwritten : (Catalog.declare ⟨sizedChain⟩ (sizedShot "Asset")).declaration =
      .ok (.interface "Shot" "" (some ⟨"Asset", ["__entity_type__", "__permissions"]⟩)
        (sizedShot "Asset").addedMembers) := rfl
  obtain rfl := Except.ok.inj (hdeclare.symm.trans hwritten)
  exact ⟨o, _, ho, hmem, rfl, rfl, rfl, by decide, htyped, a, _, ha, htext, hd, hdeclare,
    by decide, by decide +kernel, heff (by decide) (by decide)⟩

/-- A base that gives no type to `size`, and a schema based on it that does. -/
def untypedBase : List Schema :=
  [.plain "Thing" none [("size", .object [])],
    sizedShot "Thing"]

/-- **A property can be lost**: the schema does not declare `size` because its base does,
and the base does not because it has no type for it. So neither of the two texts has it. -/
theorem lost_under_untyped_base :
    ∃ o s a d, generate .default untypedBase [] = .ok o ∧ s ∈ untypedBase ∧
      isDeclared [] s = true ∧ s.isSubtype = false ∧ isDeprecated "size" = false ∧ s.Types "size" ∧
      o.artifact = some a ∧ o.text = a.source ∧ d ∈ a.entities ∧
      (Catalog.declare ⟨untypedBase⟩ s).declaration = .ok d ∧ ¬ a.Effective d "size" ∧
      a.entities.map Declaration.source =
        ["export interface Thing \x7b\n  __entity_type__?: \"Thing\";\n"
            ++ "  __permissions?: Record<string, any>;\n\x7d\n",
          "export interface Shot extends Omit<Thing, \"__entity_type__\" | \"__permissions\"> \x7b\n"
            ++ "  __entity_type__?: \"Shot\";\n  __permissions?: Record<string, any>;\n\x7d\n"] := by
  obtain ⟨o, a, ho, ha, hblocks⟩ : ∃ o a, generate .default untypedBase [] = .ok o ∧
      o.artifact = some a ∧ a.entities.map Declaration.source = _ :=
    ⟨_, _, rfl, rfl, rfl⟩
  have hmem : sizedShot "Thing" ∈ untypedBase := .tail _ (.head _)
  have hend : Catalog.EndsAtTop ⟨untypedBase⟩ (sizedShot "Thing") := by decide
  obtain ⟨d, hd, hdeclare⟩ := exists_declaration ho ha hmem rfl
  refine ⟨o, _, a, d, ho, hmem, rfl, rfl, by decide, by decide, ha, Output.text_eq_source ha, hd,
    hdeclare, fun heff => ?_, hblocks.trans (by decide +kernel)⟩
  obtain ⟨t, hst, ht⟩ := heff.reaches (covers_of_generate ho ha) (by decide) (by decide) _ hdeclare
  have hmem : t ∈ [sizedShot "Thing", .plain "Thing" none [("size", .object [])]] :=
    mem_of_extends hend hst
  rw [List.mem_cons, List.mem_singleton] at hmem
  rcases hmem with rfl | rfl <;> rcases ht with ⟨-, htyped, hnew⟩ | ⟨hsub, -⟩
  · exact hnew (by decide)
  · cases hsub
  · exact absurd htyped (by decide)
  · cases hsub

end EntityTypings
