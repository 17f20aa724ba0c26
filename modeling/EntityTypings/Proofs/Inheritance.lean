import EntityTypings.Proofs.InterfaceBodies

/-!
# Inheritance along a base chain

Two statements on catalogs in which every id is given once and nothing is
skipped, both by induction from the top of a base chain downwards.

On a well-behaved chain (`Catalog.WellBehaved`) a declaration comes to have
exactly the names that are declared on the chain, and each of them once
(`effective_iff_declared_on_chain`). The custom attributes are the exception: each
interface leaves out those of its base, so that it has them only if its own
schema declares them.

On any chain that ends, what an interface declares again without leaving it out
of its base comes from the root, by way of a subtype on the chain
(`redeclared_iff_rootHas`); a subtype is declared as the root, but counts in the
chain with its own properties. `redeclared_over_subtype` is such a name.
-/

namespace EntityTypings

namespace Catalog

/-- A base chain on which inheritance is as plain as it looks. -/
structure WellBehaved (c : Catalog) (s : Schema) : Prop where
  /-- The chain ends at a schema without a base. -/
  endsAtTop : c.EndsAtTop s
  /-- No schema on it is a subtype. -/
  not_isSubtype : ∀ b ∈ s :: c.baseChain s, b.isSubtype = false
  /-- No schema on it declares a name that the generator adds. -/
  unreserved : ∀ b ∈ s :: c.baseChain s,
    b.has Schema.entityType = false ∧ b.has Schema.permissions = false
  /-- Every schema on it gives a type to what it declares, deprecated names and the
  custom attributes apart. -/
  typed : ∀ b ∈ s :: c.baseChain s, ∀ name ∈ b.properties.names, isDeprecated name = false →
    name ≠ Schema.customAttributes → b.Types name

/-- The base of a schema on a well-behaved chain has a well-behaved chain. -/
theorem WellBehaved.base {c : Catalog} {s b : Schema} (h : c.WellBehaved s)
    (hb : c.base? s = some b) : c.WellBehaved b := by
  obtain ⟨hcons, hend⟩ := baseChain_eq_cons h.endsAtTop hb
  have hsub : ∀ t ∈ b :: c.baseChain b, t ∈ s :: c.baseChain s := fun t ht => by
    rw [hcons]
    exact List.mem_cons_of_mem _ ht
  exact ⟨hend, fun t ht => h.not_isSubtype t (hsub t ht), fun t ht => h.unreserved t (hsub t ht),
    fun t ht => h.typed t (hsub t ht)⟩

/-- A name that the declaration of a schema has on a well-behaved chain. -/
def HasName (c : Catalog) (s : Schema) (m : String) : Prop :=
  m = Schema.entityType ∨ m = Schema.permissions ∨
    (m = Schema.customAttributes ∧ s.has m = true) ∨
    (m ≠ Schema.customAttributes ∧ isDeprecated m = false ∧
      ∃ b ∈ s :: c.baseChain s, b.has m = true)

variable {c : Catalog} {s b : Schema} {d : Declaration} {m : String}

/-- The body of an interface has the names that its schema has and no base of it. -/
theorem WellBehaved.mem_memberNames_iff (h : c.WellBehaved s)
    (hd : (c.declare s).declaration = .ok d) :
    m ∈ d.memberNames ↔ m = Schema.entityType ∨ m = Schema.permissions ∨
      (m = Schema.customAttributes ∧ s.has m = true) ∨
      (m ≠ Schema.customAttributes ∧ isDeprecated m = false ∧ m ∉ c.chainNames s ∧
        s.has m = true) := by
  rw [Catalog.mem_memberNames_iff hd (h.not_isSubtype s List.mem_cons_self)]
  refine or_congr_right (or_congr_right ⟨?_, ?_⟩)
  · rintro (hca | ⟨hdep, hnew, hty⟩)
    · exact .inl hca
    · by_cases hca : m = Schema.customAttributes
      · exact .inl ⟨hca, hty.has⟩
      · exact .inr ⟨hca, hdep, hnew, hty.has⟩
  · rintro (hca | ⟨hca, hdep, hnew, hhas⟩)
    · exact .inl hca
    · exact .inr ⟨hdep, hnew, h.typed s List.mem_cons_self m (NameMap.contains_iff.1 hhas) hdep hca⟩

/-- The names of an interface are those of its body and those of its base that it does
not leave out, and no name is both. -/
theorem WellBehaved.hasName_iff (h : c.WellBehaved s) (hb : c.base? s = some b)
    (hd : (c.declare s).declaration = .ok d) :
    (c.HasName s m ↔ m ∈ d.memberNames ∨ c.HasName b m ∧ m ∉ c.omittedNames s) ∧
      (m ∈ d.memberNames → c.HasName b m → m ∈ c.omittedNames s) := by
  obtain ⟨hcons, -⟩ := baseChain_eq_cons h.endsAtTop hb
  have hchain : m ∈ c.chainNames s ↔ ∃ t ∈ b :: c.baseChain b, t.has m = true := by
    rw [mem_chainNames, hcons]
  have hbase : b.has m = true → m ∈ c.chainNames s := fun hm =>
    hchain.2 ⟨b, List.mem_cons_self, hm⟩
  have hall : (∃ t ∈ s :: b :: c.baseChain b, t.has m = true) ↔
      s.has m = true ∨ m ∈ c.chainNames s := by
    rw [hchain]
    simp only [List.mem_cons, exists_eq_or_imp]
  rw [h.mem_memberNames_iff hd, mem_omittedNames, HasName, HasName, hcons]
  by_cases hadded : m = Schema.entityType ∨ m = Schema.permissions
  · rcases hadded with rfl | rfl <;> simp
  rw [not_or] at hadded
  simp only [hadded.1, hadded.2, false_or]
  by_cases hca : m = Schema.customAttributes
  · simp only [hca, true_and, ne_eq, not_true_eq_false, false_and, or_false] at hbase ⊢
    exact ⟨⟨.inl, fun hm => hm.elim id fun hm => absurd (hbase hm.1) hm.2⟩, fun _ => hbase⟩
  · rw [hall, ← hchain]
    simp only [hca, false_and, false_or, not_false_eq_true, and_true, ne_eq, true_and]
    refine ⟨⟨?_, ?_⟩, fun hown hinh => absurd hinh.2 hown.2.1⟩
    · rintro ⟨hdep, hm⟩
      by_cases hin : m ∈ c.chainNames s
      · exact .inr ⟨hdep, hin⟩
      · exact .inl ⟨hdep, hin, hm.resolve_right hin⟩
    · rintro (⟨hdep, -, hm⟩ | ⟨hdep, hin⟩)
      · exact ⟨hdep, .inl hm⟩
      · exact ⟨hdep, .inr hin⟩

end Catalog

/-! ### Well-behaved chains -/

/-- On a well-behaved chain the members of a declaration can be listed, and the list has
the names of the chain without repetition. -/
theorem exists_flattens_of_wellBehaved {a : Artifact} {c : Catalog} (hc : a.Covers c [])
    {s : Schema} (h : c.WellBehaved s) :
    ∀ d, (c.declare s).declaration = .ok d →
      ∃ names, a.Flattens d names ∧ names.Nodup ∧ ∀ m, m ∈ names ↔ c.HasName s m := by
  have hend := h.endsAtTop
  induction hend using Catalog.EndsAtTop.induction with
  | top s _ hb hnil =>
    intro d hd
    have hs := h.not_isSubtype s List.mem_cons_self
    obtain ⟨he, hp⟩ := h.unreserved s List.mem_cons_self
    refine ⟨d.memberNames, .own ?_ ((isSubtypeAlias_of_declare hd).trans hs),
      Catalog.memberNames_nodup hd hs he hp, fun m => ?_⟩
    · rw [Catalog.heritage?_of_declare hd hs, hb]
      rfl
    · rw [h.mem_memberNames_iff hd, Catalog.HasName, hnil]
      simp [Catalog.chainNames, hnil]
  | step s b _ _ hb _ ih =>
    intro d hd
    have hs := h.not_isSubtype s List.mem_cons_self
    obtain ⟨he, hp⟩ := h.unreserved s List.mem_cons_self
    obtain ⟨db, hdb, hdeclare⟩ := hc.base hb List.not_mem_nil
    obtain ⟨names, hflat, hnodup, hmem⟩ := ih (h.base hb) db hdeclare
    refine ⟨_, .inherited (by rw [Catalog.heritage?_of_declare hd hs, hb]; rfl) hdb hflat, ?_,
      fun m => ?_⟩
    · refine List.nodup_append.2 ⟨Catalog.memberNames_nodup hd hs he hp, hnodup.filter _, ?_⟩
      rintro x hx y hy rfl
      obtain ⟨hy, hom⟩ := List.mem_filter.1 hy
      exact of_decide_eq_true hom ((h.hasName_iff hb hd).2 hx ((hmem x).1 hy))
    · rw [List.mem_append, List.mem_filter, hmem, decide_eq_true_iff, (h.hasName_iff hb hd).1]

open Generation

variable {options : Options} {schemas : List Schema} {configurations : List AttributeConfiguration}
  {o : Output} {s : Schema} {id : String}

/-- **Inheritance neither loses nor repeats a name.** Where every id is given once and
nothing is skipped, the declaration of a schema on a well-behaved chain has, besides the
two added names, exactly the names declared on the chain that are not deprecated; the
custom attributes it has if and only if the schema declares them itself; and no name
comes to it twice. The text of the run is that of the declarations. -/
theorem effective_iff_declared_on_chain
    (hrun : generate options schemas configurations = .ok o) (hskip : options.skipped = [])
    (hids : (schemas.filterMap Schema.id?).Nodup) (hs : s ∈ schemas) (hid : s.id? = some id)
    (hchain : Catalog.WellBehaved ⟨schemas⟩ s) :
    ∃ a d, o.artifact = some a ∧ o.text = a.source ∧ a.entity? id = some d ∧
      (∀ m, m ≠ Schema.customAttributes → (a.Effective d m ↔
        m = Schema.entityType ∨ m = Schema.permissions ∨ isDeprecated m = false ∧
          ∃ b ∈ s :: Catalog.baseChain ⟨schemas⟩ s, b.has m = true)) ∧
      (a.Effective d Schema.customAttributes ↔ s.has Schema.customAttributes = true) ∧
      ∃ names, a.Flattens d names ∧ names.Nodup := by
  obtain ⟨a, ha⟩ := exists_artifact hrun hs
  have hc := covers_of_generate hrun ha
  rw [hskip] at hc
  obtain ⟨d, hd, hdeclare⟩ :=
    hc.declared (Catalog.find?_eq_some_of_mem hids hs hid) List.not_mem_nil
  obtain ⟨names, hflat, hnodup, hmem⟩ := exists_flattens_of_wellBehaved hc hchain d hdeclare
  have heff (m : String) : a.Effective d m ↔ Catalog.HasName ⟨schemas⟩ s m :=
    hflat.mem_iff.symm.trans (hmem m)
  refine ⟨a, d, ha, Output.text_eq_source ha, hd, fun m hm => ?_, ?_, names, hflat, hnodup⟩
  · rw [heff]
    simp [Catalog.HasName, hm]
  · rw [heff]
    simp [Catalog.HasName, Schema.customAttributes, Schema.entityType, Schema.permissions]

/-- A chain of three schemas, with a name that all declare, a deprecated name, and custom
attributes at both ends. -/
def attributedChain : List Schema :=
  [.plain "Thing" none [("custom_attributes", .object []), ("size", textDescriptor)],
    .plain "Asset" (some "Thing")
      [("_code", .null), ("name", textDescriptor), ("size", textDescriptor)],
    .plain "Shot" (some "Asset") [("custom_attributes", .object []), ("size", textDescriptor)]]

/-- Its last schema has the name from the one above it, and custom attributes of its own. -/
theorem effective_names_of_attributedChain :
    ∃ o s, generate .default attributedChain [] = .ok o ∧
      (attributedChain.filterMap Schema.id?).Nodup ∧ s ∈ attributedChain ∧ s.id? = some "Shot" ∧
      Catalog.WellBehaved ⟨attributedChain⟩ s ∧
      ∃ a d, o.artifact = some a ∧ o.text = a.source ∧ a.entity? "Shot" = some d ∧
        d.source = "export interface Shot extends Omit<Asset, \"__entity_type__\" | "
          ++ "\"__permissions\" | \"custom_attributes\"> \x7b\n"
          ++ "  custom_attributes?: Array<TypedContextCustomAttributesMap[\"Shot\"]>;\n"
          ++ "  __entity_type__?: \"Shot\";\n  __permissions?: Record<string, any>;\n\x7d\n" ∧
        a.Effective d "name" ∧ ¬ a.Effective d "_code" ∧ a.Effective d "custom_attributes" ∧
        ∃ names, a.Flattens d names ∧ names.Nodup := by
  obtain ⟨o, a₀, ho, ha₀, hshot⟩ : ∃ o a, generate .default attributedChain [] = .ok o ∧
      o.artifact = some a ∧ (a.entity? "Shot").map Declaration.source = _ := ⟨_, _, rfl, rfl, rfl⟩
  have hmem : Schema.plain "Shot" (some "Asset")
      [("custom_attributes", .object []), ("size", textDescriptor)] ∈ attributedChain :=
    .tail _ (.tail _ (.head _))
  have hids : (attributedChain.filterMap Schema.id?).Nodup := by decide
  have hchain : Catalog.WellBehaved ⟨attributedChain⟩ (.plain "Shot" (some "Asset")
      [("custom_attributes", .object []), ("size", textDescriptor)]) :=
    ⟨by decide, by decide, by decide, by decide⟩
  obtain ⟨a, d, ha, htext, hd, hnames, hattributes, hlist⟩ :=
    effective_iff_declared_on_chain ho rfl hids hmem rfl hchain
  obtain rfl : a₀ = a := Option.some.inj (ha₀.symm.trans ha)
  rw [hd] at hshot
  exact ⟨o, _, ho, hids, hmem, rfl, hchain, a₀, d, ha, htext, hd,
    (Option.some.inj hshot).trans (by decide +kernel), (hnames _ (by decide)).2 (by decide),
    fun h => absurd ((hnames _ (by decide)).1 h) (by decide), hattributes.2 (by decide), hlist⟩

/-! ### Names declared again -/

/-- A name that no schema of a chain declares is a member of an interface on it exactly
if it is one of its base. -/
theorem effective_iff_effective_base {a : Artifact} {c : Catalog} {s b : Schema}
    {d db : Declaration} {m : String} (hd : (c.declare s).declaration = .ok d)
    (hs : s.isSubtype = false) (hb : c.base? s = some b) (hdb : a.entity? b.displayId = some db)
    (he : m ≠ Schema.entityType) (hp : m ≠ Schema.permissions) (hown : s.has m = false)
    (hnew : ∀ t ∈ c.baseChain s, t.has m = false) : a.Effective d m ↔ a.Effective db m := by
  have hbody : m ∉ d.memberNames :=
    Catalog.not_mem_memberNames_of_has_eq_false hd hs he hp hown
  have hom : m ∉ c.omittedNames s := by
    rw [Catalog.mem_omittedNames]
    rintro (h | h | ⟨-, h⟩)
    · exact he h
    · exact hp h
    · exact Catalog.not_mem_chainNames_iff.2 hnew h
  rw [effective_of_interface_base_iff hd hs hb hdb]
  exact ⟨fun h => (h.resolve_left hbody).2, fun h => .inr ⟨hom, h⟩⟩

/-- A name that no schema of a chain declares reaches a declaration on it only by way of
a subtype, from the root. -/
theorem effective_iff_through_subtype {a : Artifact} {c : Catalog} {skipped : List String}
    {m : String} (hc : a.Covers c skipped) {b : Schema} (hend : c.EndsAtTop b)
    (hskip : ∀ t ∈ c.baseChain b, t.displayId ∉ skipped) (he : m ≠ Schema.entityType)
    (hp : m ≠ Schema.permissions) (hnew : ∀ t ∈ b :: c.baseChain b, t.has m = false) :
    ∀ db, (c.declare b).declaration = .ok db →
      (a.Effective db m ↔ (∃ t ∈ b :: c.baseChain b, t.isSubtype = true) ∧ a.RootHas m) := by
  induction hend using Catalog.EndsAtTop.induction with
  | top b _ hb hnil =>
    intro db hdb
    rw [hnil] at hnew ⊢
    cases hs : b.isSubtype with
    | true => simp [effective_of_subtype_iff hdb hs, hs]
    | false =>
      have hbody := Catalog.not_mem_memberNames_of_has_eq_false hdb hs he hp
        (hnew b List.mem_cons_self)
      simp [effective_of_interface_iff hdb hs, hb, hs, hbody]
  | step b b' _ _ hb hcons ih =>
    intro db hdb
    obtain ⟨hown, habove⟩ := List.forall_mem_cons.1 hnew
    cases hs : b.isSubtype with
    | true => simp [effective_of_subtype_iff hdb hs, hs]
    | false =>
      rw [hcons] at hskip ⊢
      obtain ⟨hskip', hskip⟩ := List.forall_mem_cons.1 hskip
      obtain ⟨db', hdb', hdeclare⟩ := hc.base hb hskip'
      rw [effective_iff_effective_base hdb hs hb hdb' he hp hown habove,
        ih hskip (hcons ▸ habove) db' hdeclare]
      refine and_congr_left fun _ => ⟨fun ⟨t, ht, h⟩ => ⟨t, List.mem_cons_of_mem _ ht, h⟩, ?_⟩
      rintro ⟨t, ht, h⟩
      rcases List.mem_cons.1 ht with rfl | ht
      · rw [hs] at h
        cases h
      · exact ⟨t, ht, h⟩

/-- **What is declared again comes from the root.** Where every id is given once and nothing
is skipped, take an interface that extends a base, on a chain that ends. A name in its body
that it does not leave out of the base is a member of the base exactly if the chain has a
subtype and the root has the name. On a chain without subtypes, all that is declared again
is left out of the base. Body and list of what is left out are what the text of the run says. -/
theorem redeclared_iff_rootHas (hrun : generate options schemas configurations = .ok o)
    (hskip : options.skipped = []) (hids : (schemas.filterMap Schema.id?).Nodup) (hs : s ∈ schemas)
    (hid : s.id? = some id) (hend : Catalog.EndsAtTop ⟨schemas⟩ s) {a : Artifact} {d : Declaration}
    {h : Heritage} (ha : o.artifact = some a) (hd : a.entity? id = some d)
    (hh : d.heritage? = some h) :
    o.text = a.source ∧
    (∃ parameters, d.source =
      "export interface " ++ id ++ parameters ++ " extends Omit<" ++ h.base ++ ", "
        ++ " | ".intercalate (h.omitted.map (fun m => "\"" ++ m ++ "\"")) ++ "> \x7b\n"
        ++ String.join (d.members.map Member.source) ++ "\x7d\n") ∧
    ∃ b, a.entity? h.base = some b ∧ ∀ m ∈ d.memberNames, m ∉ h.omitted →
      (a.Effective b m ↔
        (∃ t ∈ Catalog.baseChain ⟨schemas⟩ s, t.isSubtype = true) ∧ a.RootHas m) := by
  have hc := covers_of_generate hrun ha
  rw [hskip] at hc
  obtain ⟨s', hs', -, hdeclare⟩ := hc.origin hd
  rw [Catalog.find?_eq_some_of_mem hids hs hid, Option.some.injEq] at hs'
  subst hs'
  have hsub : s.isSubtype = false :=
    (isSubtypeAlias_of_declare hdeclare).symm.trans (Artifact.isSubtypeAlias_of_heritage? hh)
  refine ⟨Output.text_eq_source ha, ?_, ?_⟩
  · have hname : d.name = id := by simpa using List.find?_some hd
    exact hname ▸ Declaration.source_of_heritage? hh
  rw [Catalog.heritage?_of_declare hdeclare hsub] at hh
  obtain ⟨b, hb, rfl⟩ := Option.map_eq_some_iff.1 hh
  obtain ⟨db, hdb, hdeclareb⟩ := hc.base hb List.not_mem_nil
  obtain ⟨hcons, hbend⟩ := Catalog.baseChain_eq_cons hend hb
  refine ⟨db, hdb, fun m hm hom => ?_⟩
  have hnew := Catalog.not_mem_chainNames_iff.1
    (Catalog.not_mem_chainNames_of_mem_memberNames hdeclare hsub hm hom)
  rw [Catalog.mem_omittedNames, not_or, not_or] at hom
  rw [hcons] at hnew ⊢
  exact effective_iff_through_subtype hc hbend (fun _ _ => List.not_mem_nil) hom.1 hom.2.1 hnew
    db hdeclareb

/-- The root, with a name. -/
def namedContext : Schema := .plain "TypedContext" none [("name", textDescriptor)]

/-- A subtype that has nothing of its own. -/
def bareShot : Schema :=
  { Schema.plain "Shot" none [] with aliasOf := some (.record Schema.subtypeMarker) }

/-- A schema whose base is the subtype. -/
def clip : Schema :=
  .plain "Clip" (some "Shot") [("length", textDescriptor), ("name", textDescriptor)]

/-- The three together. -/
def subtypeChain : List Schema := [namedContext, bareShot, clip]

/-- The declarations of the three. -/
def subtypeChainSources : List String :=
  ["export interface TypedContext<K extends TypedContextSubtype = TypedContextSubtype> \x7b\n"
      ++ "  name?: string;\n  __entity_type__?: K;\n"
      ++ "  __permissions?: Record<string, any>;\n\x7d\n",
    "export type Shot = TypedContext<\"Shot\">;\n",
    "export interface Clip extends Omit<Shot, \"__entity_type__\" | \"__permissions\"> \x7b\n"
      ++ "  length?: string;\n  name?: string;\n  __entity_type__?: \"Clip\";\n"
      ++ "  __permissions?: Record<string, any>;\n\x7d\n"]

theorem exists_run_subtypeChain :
    ∃ o a d, generate .default subtypeChain [] = .ok o ∧ o.artifact = some a ∧
      a.entities.map Declaration.source = subtypeChainSources ∧
      a.Covers ⟨subtypeChain⟩ [] ∧ a.entity? "Clip" = some d ∧
      (Catalog.declare ⟨subtypeChain⟩ clip).declaration = .ok d ∧
      d.heritage? = some ⟨"Shot", [Schema.entityType, Schema.permissions]⟩ ∧ a.RootHas "name" := by
  obtain ⟨o, a, ho, ha, hblocks⟩ : ∃ o a, generate .default subtypeChain [] = .ok o ∧
      o.artifact = some a ∧ a.entities.map Declaration.source = _ := ⟨_, _, rfl, rfl, rfl⟩
  have hc := covers_of_generate ho ha
  have hclip : Catalog.find? ⟨subtypeChain⟩ "Clip" = some clip := rfl
  have hcontext : Catalog.find? ⟨subtypeChain⟩ "TypedContext" = some namedContext := rfl
  obtain ⟨d, hd, hdeclare⟩ := hc.declared hclip List.not_mem_nil
  obtain ⟨r, hr, hroot⟩ := hc.declared hcontext List.not_mem_nil
  refine ⟨o, a, d, ho, ha, hblocks.trans (by decide +kernel), hc, hd, hdeclare, ?_, r, hr, .own ?_⟩
  · rw [Catalog.heritage?_of_declare hdeclare rfl]
    rfl
  · rw [Catalog.mem_memberNames_iff hroot rfl]
    decide

theorem redeclared_name_of_subtypeChain :
    ∃ o a d h, generate .default subtypeChain [] = .ok o ∧
      (subtypeChain.filterMap Schema.id?).Nodup ∧ clip ∈ subtypeChain ∧ clip.id? = some "Clip" ∧
      Catalog.EndsAtTop ⟨subtypeChain⟩ clip ∧ o.artifact = some a ∧ a.entity? "Clip" = some d ∧
      d.heritage? = some h ∧ o.text = a.source ∧
      ∃ b, a.entity? h.base = some b ∧ "name" ∈ d.memberNames ∧ "name" ∉ h.omitted ∧
        (a.Effective b "name" ↔
          (∃ t ∈ Catalog.baseChain ⟨subtypeChain⟩ clip, t.isSubtype = true) ∧
            a.RootHas "name") := by
  obtain ⟨o, a, d, ho, ha, -, -, hd, hdeclare, hh, -⟩ := exists_run_subtypeChain
  have hmem : clip ∈ subtypeChain := .tail _ (.tail _ (.head _))
  have hbody : "name" ∈ d.memberNames := by
    rw [Catalog.mem_memberNames_iff hdeclare rfl]
    decide
  obtain ⟨htext, -, b, hb, hiff⟩ :=
    redeclared_iff_rootHas ho rfl (by decide) hmem rfl (by decide) ha hd hh
  exact ⟨o, a, d, _, ho, by decide, hmem, rfl, by decide, ha, hd, hh, htext, b, hb, hbody,
    by decide, hiff _ hbody (by decide)⟩

/-- **Over a subtype a name can be declared again without being left out**: the chain has
no `name`, so that the schema declares it, but the subtype has it from the root. -/
theorem redeclared_over_subtype :
    ∃ o a d h b, generate .default subtypeChain [] = .ok o ∧
      (subtypeChain.filterMap Schema.id?).Nodup ∧ clip ∈ subtypeChain ∧ clip.id? = some "Clip" ∧
      Catalog.EndsAtTop ⟨subtypeChain⟩ clip ∧ o.artifact = some a ∧ a.entity? "Clip" = some d ∧
      d.heritage? = some h ∧ a.entity? h.base = some b ∧
      "name" ∈ d.memberNames ∧ a.Effective b "name" ∧ "name" ∉ h.omitted ∧
      o.text = a.source ∧ a.entities.map Declaration.source = subtypeChainSources := by
  obtain ⟨o, a, d, ho, ha, hblocks, hc, hd, hdeclare, hh, hroot⟩ := exists_run_subtypeChain
  have hshot : Catalog.find? ⟨subtypeChain⟩ "Shot" = some bareShot := rfl
  obtain ⟨b, hb, hdeclareb⟩ := hc.declared hshot List.not_mem_nil
  refine ⟨o, a, d, _, b, ho, by decide, .tail _ (.tail _ (.head _)), rfl, by decide, ha, hd, hh, hb,
    ?_, (effective_of_subtype_iff hdeclareb rfl).2 hroot, by decide, Output.text_eq_source ha,
    hblocks⟩
  rw [Catalog.mem_memberNames_iff hdeclare rfl]
  decide

end EntityTypings
