import EntityTypings.Proofs.CutOffWalk
import EntityTypings.Proofs.EffectiveMembers

/-!
# Skipping and removing

Schemas whose ids are skipped are not declared, but they stay in the catalog: they can be
found as bases, and the schemas based on them inherit their names. Here the run is compared
with one on a catalog from which they are removed (`Catalog.without`) and where nothing is
skipped.

The main statement, `generate_without`, is that the two have the same outcome, provided
that no skipped schema is on the base chain of one that is declared and no subtype. What
has to be shown is that a declared schema comes out the same in both catalogs. Ids that
are not skipped find the same schemas, also where ids are given more than once, and the walk
up the bases never leaves those ids, also where it leads in a circle.
-/

namespace EntityTypings

namespace Generation

/-- Whether a schema stays when the skipped ones are removed: it has no id, or one that is
not skipped. -/
def isKept (skipped : List String) (s : Schema) : Bool := s.id?.all (fun id => id ∉ skipped)

end Generation

namespace Catalog

open Generation

/-- The catalog without the schemas that are skipped. -/
def without (c : Catalog) (skipped : List String) : Catalog :=
  ⟨c.schemas.filter (isKept skipped)⟩

/-- The declaration of a schema is to be made of schemas that are not skipped: its own id is
not, and none is on its base chain. -/
structure FreeOf (c : Catalog) (skipped : List String) (s : Schema) : Prop where
  /-- The schema itself is not skipped. -/
  own : s.displayId ∉ skipped
  /-- No schema on its base chain is. -/
  chain : ∀ b ∈ c.baseChain s, b.displayId ∉ skipped

variable {c c' : Catalog} {skipped : List String} {s t b : Schema}

/-- Of several schemas with one id either all are removed or none. -/
theorem find?_without (id : String) :
    (c.without skipped).find? id = if id ∈ skipped then none else c.find? id := by
  have hkept (s : Schema) : (isKept skipped s = true ∧ s.id? = some id) ↔
      id ∉ skipped ∧ s.id? = some id :=
    and_congr_left fun hid => by simp [isKept, hid]
  simp only [without, find?, List.find?_filter, decide_eq_true_eq, hkept]
  by_cases hskip : id ∈ skipped <;> simp [hskip]

/-- A base that is not skipped stays the base. -/
theorem base?_without (h : ∀ b, c.base? t = some b → b.displayId ∉ skipped) :
    (c.without skipped).base? t = c.base? t := by
  simp only [base?] at h ⊢
  cases hi : t.base with
  | none => rfl
  | some i =>
    simp only [hi, Option.bind_some, find?_without] at h ⊢
    by_cases hskip : i ∈ skipped
    · cases hb : c.find? i with
      | none => simp
      | some b =>
        have hid : b.displayId = i := (Schema.id?_eq_some_iff.1 (id?_of_find? hb)).1
        exact absurd (hid ▸ hskip) (h b hb)
    · rw [if_neg hskip]

/-- The walk up the bases never comes to a skipped schema: it would be followed there, unless
it has the id of a schema before it, none of which is skipped. -/
theorem FreeOf.displayId_not_mem (h : c.FreeOf skipped s) (ht : t ∈ s :: c.baseChain s)
    (hb : c.base? t = some b) : b.displayId ∉ skipped := by
  rcases (walk_baseChain c s).displayId_mem ht hb with hself | ⟨u, hu, hid⟩
  · rw [List.mem_singleton.1 hself]
    exact h.own
  · exact hid ▸ h.chain u hu

/-- The schemas on the chain have the same bases without the skipped schemas. -/
theorem FreeOf.base?_without (h : c.FreeOf skipped s) (ht : t ∈ s :: c.baseChain s) :
    (c.without skipped).base? t = c.base? t :=
  Catalog.base?_without fun _ hb => h.displayId_not_mem ht hb

theorem FreeOf.baseChain_without (h : c.FreeOf skipped s) :
    (c.without skipped).baseChain s = c.baseChain s :=
  baseChain_eq_of_base?_eq fun _ ht => h.base?_without ht

/-- A schema that is a subtype, or to be made of schemas that are not skipped, has the same
declaration without those that are. -/
theorem declare_without (h : s.isSubtype = false → c.FreeOf skipped s) :
    (c.without skipped).declare s = c.declare s :=
  declare_eq_of_chainNames_eq fun hs =>
    ⟨by simp only [chainNames, (h hs).baseChain_without],
      by rw [(h hs).base?_without List.mem_cons_self]⟩

end Catalog

namespace Generation

/-- Schemas that are declared alike in another catalog are declared there without anything
skipped, if the skipped ones among them are left out. -/
theorem declareAll_filter_isKept {c c' : Catalog} {skipped : List String} {l : List Schema}
    (h : ∀ s ∈ l, isDeclared skipped s = true → c'.declare s = c.declare s) :
    declareAll c' [] (l.filter (isKept skipped)) = declareAll c skipped l := by
  induction l with
  | nil => rfl
  | cons s rest ih =>
    obtain ⟨hs, hrest⟩ := List.forall_mem_cons.1 h
    have ih := ih hrest
    cases hid : s.id? with
    | none =>
      rw [List.filter_cons_of_pos (by simp [isKept, hid])]
      simp only [declareAll, hid, ih]
    | some id =>
      by_cases hskip : id ∈ skipped
      · rw [List.filter_cons_of_neg (by simp [isKept, hid, hskip])]
        simp only [declareAll, hid, hskip, if_true, ih]
      · have hdeclare := hs (by simp [isDeclared, hid, hskip])
        rw [List.filter_cons_of_pos (by simp [isKept, hid, hskip])]
        simp only [declareAll, hid, hskip, List.not_mem_nil, if_false, hdeclare, ih]

/-- **Skipping is removing.** Let a schema be left that is not skipped, and let no schema with
a skipped id be on the base chain of one that is declared and no subtype. Then the run has the
same outcome as the run on the catalog without the skipped schemas in which nothing is skipped:
the same failure, or the same source, problems and number of schemas. -/
theorem generate_without {options : Options} {schemas : List Schema}
    (hkept : ∃ s ∈ schemas, isKept options.skipped s = true)
    (hchain : ∀ s ∈ schemas, isDeclared options.skipped s = true → s.isSubtype = false →
      ∀ b ∈ Catalog.baseChain ⟨schemas⟩ s, b.displayId ∉ options.skipped)
    (configurations : List AttributeConfiguration) :
    generate { options with skipped := [] } (schemas.filter (isKept options.skipped))
      configurations = generate options schemas configurations := by
  obtain ⟨s, hs, hs'⟩ := hkept
  have hne : schemas ≠ [] := List.ne_nil_of_mem hs
  have hne' : schemas.filter (isKept options.skipped) ≠ [] :=
    List.ne_nil_of_mem (List.mem_filter.2 ⟨hs, hs'⟩)
  have hdeclare : ∀ s ∈ schemas, isDeclared options.skipped s = true →
      (Catalog.without ⟨schemas⟩ options.skipped).declare s = Catalog.declare ⟨schemas⟩ s :=
    fun s hs hdecl => Catalog.declare_without fun hsub =>
      ⟨(isDeclared_iff.1 hdecl).2, hchain s hs hdecl hsub⟩
  unfold generate
  rw [if_neg (by simpa using hne'), if_neg (by simpa using hne)]
  exact congrArg (Except.map _) (declareAll_filter_isKept hdeclare)

end Generation

/-- A catalog with two legacy schemas of one id, of which the second has a base, two schemas of
one id that is not skipped, a circle of bases and a subtype based on what is skipped. -/
def legacyCatalog : List Schema :=
  [.plain "Message" none [("text", textDescriptor)],
    .plain "Asset" (some "Shot") [("name", textDescriptor), ("size", textDescriptor)],
    .plain "Message" (some "Asset") [("size", textDescriptor)],
    .plain "Asset" (some "Thing") [("name", textDescriptor)],
    .plain "Shot" (some "Asset") [("length", textDescriptor), ("size", textDescriptor)],
    { Schema.plain "Milestone" (some "Message") [("text", textDescriptor)] with
      aliasOf := some (.record Schema.subtypeMarker) }]

open Generation in
theorem generate_legacyCatalog_without :
    (∃ s ∈ legacyCatalog, isKept legacySchemas s = true) ∧
    (∀ s ∈ legacyCatalog, isDeclared legacySchemas s = true → s.isSubtype = false →
      ∀ b ∈ Catalog.baseChain ⟨legacyCatalog⟩ s, b.displayId ∉ legacySchemas) ∧
    generate .default (legacyCatalog.filter (isKept legacySchemas)) [] =
      generate .withoutLegacy legacyCatalog [] ∧
    ∃ o, generate .withoutLegacy legacyCatalog [] = .ok o ∧ o.schemaCount = 4 := by
  have hkept : ∃ s ∈ legacyCatalog, isKept legacySchemas s = true := by decide
  have hchain : ∀ s ∈ legacyCatalog, isDeclared legacySchemas s = true → s.isSubtype = false →
      ∀ b ∈ Catalog.baseChain ⟨legacyCatalog⟩ s, b.displayId ∉ legacySchemas := by decide
  exact ⟨hkept, hchain, @generate_without .withoutLegacy _ hkept hchain [], _, rfl, rfl⟩

end EntityTypings
