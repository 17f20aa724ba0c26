import EntityTypings.Proofs.Correspondence
import EntityTypings.Proofs.CutOffWalk
import EntityTypings.Proofs.Lookups

/-!
# The fields of a subtype

A subtype of the context family is declared as the root applied to its id, whatever its fields
hold. They could still show elsewhere: a schema based on the subtype inherits the names of its
properties and walks on to its base, and custom attributes apply to schemas by what these
declare. The main statement, `generate_subtype_congr`, is that they do not show: unless an
interface that is declared has the subtype on its base chain, any fields in their place give the
same run.

Where several schemas have the id of the subtype, the chain leads to the first of them, and only
that one has to be off the chain. A base that only repeats an id that was met is not followed, but
its id is still what an interface extends. So in the catalog with the other fields the bases are
the same schemas on the chain, and have the same ids off it (`base?_replaced`).
-/

namespace EntityTypings

/-! ### Schemas with the same id and alias -/

namespace Schema

/-- The two schemas have the same id, or none, and the same mark that they are an alias. -/
structure SameIdentity (s t : Schema) : Prop where
  /-- The ids are the same. -/
  id? : t.id? = s.id?
  /-- The marks are the same. -/
  aliasOf : t.aliasOf = s.aliasOf

namespace SameIdentity

variable {s t : Schema} (h : s.SameIdentity t)

include h

theorem displayId : t.displayId = s.displayId := by
  rw [← id?_getD, h.id?, id?_getD]

theorem isRoot : t.isRoot = s.isRoot := by
  simp only [Schema.isRoot, h.id?]

theorem isSubtype : t.isSubtype = s.isSubtype := by
  simp only [Schema.isSubtype, h.aliasOf, h.isRoot]

theorem isMember : t.isMember = s.isMember := by
  simp only [Schema.isMember, h.isRoot, h.isSubtype]

/-- Members of the context family bear attributes whatever they declare, and nothing else that an
attribute goes by is a field besides id and alias. -/
theorem appliesTo (hs : s.isMember = true) (a : AttributeConfiguration) :
    a.appliesTo t = a.appliesTo s := by
  have hbears : t.bearsAttributes = s.bearsAttributes := by
    simp only [bearsAttributes, h.isMember, hs, Bool.true_or]
  have hshow : AttributeConfiguration.isShowAlias t = AttributeConfiguration.isShowAlias s := by
    simp only [AttributeConfiguration.isShowAlias, aliasTarget?, h.aliasOf]
  simp only [AttributeConfiguration.appliesTo, hbears, h.id?, hshow]

theorem shownAlike (hs : s.isMember = true) : s.ShownAlike t where
  displayId := h.displayId
  isMember := h.isMember
  schemaType types := by
    simp only [AttributeTypes.schemaType, AttributeTypes.applicableKeys, h.appliesTo hs]

/-- Subtypes with the same id are declared alike in any two catalogs. -/
theorem declare (hs : s.isSubtype = true) (c c' : Catalog) : c'.declare t = c.declare s := by
  rw [Catalog.declare_of_isSubtype hs, Catalog.declare_of_isSubtype (h.isSubtype.trans hs)]
  simp only [subtypeDeclaration, h.displayId]

end SameIdentity

end Schema

/-- The declaration of a subtype as it is written, with the words between the ids put together. -/
theorem Schema.aliasText_subtype (id : String) :
    Declaration.aliasText id "" (rootId ++ "<" ++ literal id ++ ">") =
      "export type " ++ id ++ " = TypedContext<\"" ++ id ++ "\">;" := by
  apply String.toList_inj.1
  unfold Declaration.aliasText literal
  simp only [String.toList_append, List.append_assoc]
  rfl

/-- The declaration of a subtype is one line, which shows the id alone. -/
theorem Schema.lines_subtypeDeclaration (s : Schema) :
    s.subtypeDeclaration.lines =
      [⟨0, "export type " ++ s.displayId ++ " = TypedContext<\"" ++ s.displayId ++ "\">;"⟩] := by
  rw [← aliasText_subtype]
  rfl

/-! ### Another schema in one place -/

namespace Catalog

variable {before after : List Schema} {s t t' : Schema}

/-- An id finds a schema before the place, the one in the place, or one after it. -/
theorem find?_split (before after : List Schema) (t : Schema) (id : String) :
    find? ⟨before ++ t :: after⟩ id =
      (find? ⟨before⟩ id).or (if t.id? = some id then some t else find? ⟨after⟩ id) := by
  simp only [find?, List.find?_append]
  by_cases hid : t.id? = some id
  · rw [if_pos hid, List.find?_cons_of_pos (by simpa using hid)]
  · rw [if_neg hid, List.find?_cons_of_neg (by simpa using hid)]

section Replaced

variable (hsame : t.SameIdentity t')

include hsame

/-- Ids find schemas of the same id. -/
theorem map_displayId_find?_replaced (id : String) :
    (find? ⟨before ++ t' :: after⟩ id).map Schema.displayId =
      (find? ⟨before ++ t :: after⟩ id).map Schema.displayId := by
  rw [find?_split, find?_split, hsame.id?]
  cases find? ⟨before⟩ id with
  | some b => rfl
  | none => split <;> simp [hsame.displayId]

/-- What is found stays unless it is the schema in the place, with none of its id before. -/
theorem find?_replaced {id : String} {b : Schema}
    (h : find? ⟨before ++ t :: after⟩ id = some b) (hb : b = t → ∃ u ∈ before, u.id? = t.id?) :
    find? ⟨before ++ t' :: after⟩ id = some b := by
  rw [find?_split] at h ⊢
  rw [hsame.id?]
  cases hbefore : find? ⟨before⟩ id with
  | some u =>
    rw [hbefore] at h
    exact h
  | none =>
    rw [hbefore, Option.none_or] at h
    rw [Option.none_or]
    by_cases hid : t.id? = some id
    · rw [if_pos hid, Option.some.injEq] at h
      obtain ⟨u, hu, hut⟩ := hb h.symm
      rw [find?, List.find?_eq_none] at hbefore
      exact absurd (hut.trans hid) (by simpa using hbefore u hu)
    · rwa [if_neg hid] at h ⊢

/-- An interface whose chain does not lead to the schema in the place is declared as before. -/
theorem declare_replaced (hfree : s.isSubtype = false →
      t ∈ baseChain ⟨before ++ t :: after⟩ s → ∃ u ∈ before, u.id? = t.id?) :
    declare ⟨before ++ t' :: after⟩ s = declare ⟨before ++ t :: after⟩ s := by
  refine declare_eq_of_chainNames_eq fun hs => ?_
  have hid (u : Schema) : (base? ⟨before ++ t' :: after⟩ u).map Schema.displayId =
      (base? ⟨before ++ t :: after⟩ u).map Schema.displayId := by
    unfold base?
    cases u.base with
    | none => rfl
    | some i => exact map_displayId_find?_replaced hsame i
  have hchain : baseChain ⟨before ++ t' :: after⟩ s = baseChain ⟨before ++ t :: after⟩ s := by
    refine baseChain_eq_of_base? (fun u _ => hid u) fun u _ b hb hbase => ?_
    obtain ⟨i, hi, hfind⟩ := base?_eq_some_iff.1 hbase
    refine base?_eq_some_iff.2 ⟨i, hi, find?_replaced hsame hfind ?_⟩
    rintro rfl
    exact hfree hs hb
  exact ⟨by simp only [chainNames, hchain], hid s⟩

end Replaced

end Catalog

/-! ### Runs -/

namespace Generation

variable {options : Options} {before after : List Schema} {t t' : Schema}

/-- With other fields of a subtype that no interface is based on, the run has the same outcome. -/
theorem generate_subtype_congr (hsub : t.isSubtype = true) (hsame : t.SameIdentity t')
    (hfree : ∀ s ∈ before ++ t :: after, isDeclared options.skipped s = true →
      s.isSubtype = false → t ∈ Catalog.baseChain ⟨before ++ t :: after⟩ s →
        ∃ u ∈ before, u.id? = t.id?) (configurations : List AttributeConfiguration) :
    generate options (before ++ t' :: after) configurations =
      generate options (before ++ t :: after) configurations := by
  apply generate_eq_of_sameOutcome
  have hstays : ∀ s ∈ before ++ t :: after,
      SameOutcome ⟨before ++ t :: after⟩ ⟨before ++ t' :: after⟩ options.skipped s s := by
    intro s hs
    refine ⟨rfl, fun _ => ⟨rfl, rfl, fun _ => rfl⟩, fun hdecl => ?_⟩
    exact Catalog.declare_replaced hsame (hfree s hs hdecl)
  have hmember : t.isMember = true := by rw [Schema.isMember, hsub, Bool.or_true]
  apply forall₂_replaced
  · intro s hs
    exact hstays s (List.mem_append_left _ hs)
  · exact ⟨hsame.id?, fun _ => hsame.shownAlike hmember, fun _ => hsame.declare hsub _ _⟩
  · intro s hs
    exact hstays s (List.mem_append_right _ (List.mem_cons_of_mem _ hs))

/-- Before the declaration of a schema stand those of the schemas before it. -/
theorem exists_entities_split {configurations : List AttributeConfiguration} {o : Output}
    {a : Artifact} (h : generate options (before ++ t :: after) configurations = .ok o)
    (ha : o.artifact = some a) (ht : isDeclared options.skipped t = true) :
    ∃ ds d ds', a.entities = ds ++ d :: ds' ∧
      ds.length = (before.filter (isDeclared options.skipped)).length ∧
      (Catalog.declare ⟨before ++ t :: after⟩ t).declaration = .ok d := by
  obtain ⟨hbefore, hafter⟩ :=
    List.forall_mem_append.1 (List.findSome?_eq_none_iff.1 (generate_eq_ok h ha).1)
  obtain ⟨d, hd⟩ := exists_of_failure?_eq_none (hafter t List.mem_cons_self) ht
  rw [entities_of_generate h ha, List.filterMap_append,
    List.filterMap_cons_some (declared?_eq_some_iff (p := (t, d)).2 ⟨ht, rfl, hd⟩),
    List.map_append, List.map_cons]
  refine ⟨_, d, _, rfl, ?_, hd⟩
  rw [← map_fst_declared hbefore, List.length_map, List.length_map]

end Generation

open Generation

/-- **The fields of a subtype do not show.** Take an alias of `Task`, given by a record, which has
an id and is not the root, and which no declared interface has on its base chain, unless the
chain leads to an earlier schema of the same id. Any schema with this id and alias in its place
gives the same run: the same failure, or the same source, problems and number of schemas. If the
run succeeds and the id is not skipped, the declaration is a single line that shows the id alone,
after the declarations of the schemas before. -/
theorem fields_of_subtype_not_read {options : Options} {before after : List Schema}
    {t t' : Schema} {id : String} (hid : t.id? = some id) (hroot : id ≠ Schema.rootId)
    (halias : t.aliasOf = some (.record "Task")) (hsame : t.SameIdentity t')
    (hfree : ∀ s ∈ before ++ t :: after, isDeclared options.skipped s = true →
      s.isSubtype = false → t ∈ Catalog.baseChain ⟨before ++ t :: after⟩ s →
        ∃ u ∈ before, u.id? = some id) (configurations : List AttributeConfiguration) :
    generate options (before ++ t' :: after) configurations =
      generate options (before ++ t :: after) configurations ∧
    ∀ o, generate options (before ++ t :: after) configurations = .ok o → id ∉ options.skipped →
      ∃ a ds d ds', o.artifact = some a ∧ a.entities = ds ++ d :: ds' ∧
        ds.length = (before.filter (isDeclared options.skipped)).length ∧
        d.lines = [⟨0, "export type " ++ id ++ " = TypedContext<\"" ++ id ++ "\">;"⟩] := by
  have hsub : t.isSubtype = true := by
    simp [Schema.isSubtype, Schema.isRoot, halias, hid, hroot, Schema.subtypeMarker]
  refine ⟨generate_subtype_congr hsub hsame ?_ configurations, fun o ho hskip => ?_⟩
  · rw [hid]
    exact hfree
  · obtain ⟨a, ha⟩ := exists_artifact ho (s := t) (by simp)
    have hdisplay : t.displayId = id := (Schema.id?_eq_some_iff.1 hid).1
    have hdecl : isDeclared options.skipped t = true := by simpa [isDeclared, hid] using hskip
    obtain ⟨ds, d, ds', hentities, hlength, hd⟩ := exists_entities_split ho ha hdecl
    rw [Catalog.declaration_of_isSubtype hsub] at hd
    cases hd
    exact ⟨a, ds, _, ds', ha, hentities, hlength, hdisplay ▸ t.lines_subtypeDeclaration⟩

/-- A subtype with a base, custom attributes and a property of a type that is not known. -/
def describedShot : Schema :=
  { Schema.plain "Shot" (some "Thing")
      [("custom_attributes", textDescriptor), ("note", .object [("type", .string "bogus")])] with
    aliasOf := some (.record "Task"), required := ["note"] }

/-- The root, and a schema that only the subtype is based on. -/
def aboveShot : List Schema :=
  [.plain "TypedContext" none [("name", textDescriptor)],
    .plain "Thing" none [("note", textDescriptor)]]

/-- An interface of the same id that names it as its base: that is the subtype, but the walk stops
before it. -/
def besideShot : List Schema := [.plain "Shot" (some "Shot") [("size", textDescriptor)]]

/-- The fields of the subtype do not show, nor does it fail. -/
theorem fields_of_describedShot_not_read :
    let bare := { Schema.plain "Shot" none [] with aliasOf := some (.record "Task") }
    ∃ o a ds d ds', Catalog.base? ⟨aboveShot ++ describedShot :: besideShot⟩
        (.plain "Shot" (some "Shot") [("size", textDescriptor)]) = some describedShot ∧
      generate .default (aboveShot ++ describedShot :: besideShot) collidingAttributes = .ok o ∧
      generate .default (aboveShot ++ bare :: besideShot) collidingAttributes = .ok o ∧
      o.artifact = some a ∧ a.entities = ds ++ d :: ds' ∧ ds.length = 2 ∧
      d.lines = [⟨0, "export type Shot = TypedContext<\"Shot\">;"⟩] := by
  intro bare
  have hchains : ∀ s ∈ aboveShot ++ describedShot :: besideShot, s.isSubtype = false →
      ∀ b ∈ Catalog.baseChain ⟨aboveShot ++ describedShot :: besideShot⟩ s,
        b.id? ≠ describedShot.id? := by decide
  have hsame : describedShot.SameIdentity bare := ⟨rfl, rfl⟩
  have hfree : ∀ s ∈ aboveShot ++ describedShot :: besideShot,
      isDeclared Options.default.skipped s = true → s.isSubtype = false →
      describedShot ∈ Catalog.baseChain ⟨aboveShot ++ describedShot :: besideShot⟩ s →
        ∃ u ∈ aboveShot, u.id? = some "Shot" :=
    fun s hs _ hsub hmem => absurd rfl (hchains s hs hsub describedShot hmem)
  obtain ⟨hother, hline⟩ :=
    fields_of_subtype_not_read rfl (by decide) rfl hsame hfree collidingAttributes
  obtain ⟨o, ho⟩ : ∃ o, generate .default (aboveShot ++ describedShot :: besideShot)
      collidingAttributes = .ok o := ⟨_, rfl⟩
  obtain ⟨a, ds, d, ds', ha, hentities, hlength, hlines⟩ := hline o ho (by decide)
  exact ⟨o, a, ds, d, ds', rfl, ho, hother.trans ho, ha, hentities, hlength, hlines⟩

end EntityTypings
