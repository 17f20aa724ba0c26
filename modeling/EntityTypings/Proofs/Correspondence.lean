import EntityTypings.Proofs.Run
import Mathlib.Data.List.Forall2

/-!
# Runs that correspond

Two runs can read different catalogs and still do the same, schema by schema. What a run takes
from one schema is little: its id, and, if it is to be declared, how it is declared and what
the lookups show of it (`Schema.ShownAlike`). `SameOutcome` relates two schemas that give the
same of each, and `generate_eq_of_sameOutcome` is the step from the schemas to the runs.

Nothing is said here on when two schemas are declared alike. That depends on the schemas that
they are based on, and is proved for each kind of difference on its own.
-/

namespace EntityTypings

/-- Lists whose elements correspond have the same images under functions that agree on
what corresponds. -/
theorem map_eq_map_of_forall₂ {α β γ : Type} {R : α → β → Prop} {f : α → γ} {g : β → γ}
    {l : List α} {l' : List β} (h : List.Forall₂ R l l') (hfg : ∀ a b, R a b → f a = g b) :
    l.map f = l'.map g := by
  have himages : List.Forall₂ (· = ·) (l.map f) (l'.map g) := List.rel_map hfg h
  rwa [List.forall₂_eq_eq_eq] at himages

/-- Lists that differ in one place correspond if what stands there does and the rest corresponds
to itself. -/
theorem forall₂_replaced {α : Type} {R : α → α → Prop} {before after : List α} {a b : α}
    (hbefore : ∀ x ∈ before, R x x) (hab : R a b) (hafter : ∀ x ∈ after, R x x) :
    List.Forall₂ R (before ++ a :: after) (before ++ b :: after) :=
  List.rel_append (List.forall₂_same.2 hbefore) (.cons hab (List.forall₂_same.2 hafter))

/-- The lookups of a source show the same of both schemas. -/
structure Schema.ShownAlike (s t : Schema) : Prop where
  /-- Both are listed under the same id. -/
  displayId : t.displayId = s.displayId
  /-- Both are listed in the context family, or none is. -/
  isMember : t.isMember = s.isMember
  /-- The same custom attributes apply. -/
  schemaType : ∀ types : AttributeTypes, types.schemaType t = types.schemaType s

namespace Generation

/-- Declared schemas that correspond: shown alike, with the same declaration. -/
def SameDeclared (p q : Schema × Declaration) : Prop := p.1.ShownAlike q.1 ∧ p.2 = q.2

/-- The source shows no more of the declared schemas than the lookups and their declarations. -/
theorem assemble_congr {declared declared' : List (Schema × Declaration)}
    (h : List.Forall₂ SameDeclared declared declared') (options : Options)
    (configurations : List AttributeConfiguration) (diagnostics : List Diagnostic) :
    assemble options configurations ⟨declared', diagnostics⟩ =
      assemble options configurations ⟨declared, diagnostics⟩ := by
  have hdeclarations : declared.map Prod.snd = declared'.map Prod.snd :=
    map_eq_map_of_forall₂ h fun _ _ hpq => hpq.2
  have hids : declared.map (fun p => p.1.displayId) = declared'.map (fun p => p.1.displayId) :=
    map_eq_map_of_forall₂ h fun _ _ hpq => hpq.1.displayId.symm
  have hmembers : (declared.filter (fun p => p.1.isMember)).map (fun p => p.1.displayId) =
      (declared'.filter (fun p => p.1.isMember)).map (fun p => p.1.displayId) := by
    refine map_eq_map_of_forall₂ (List.rel_filter ?_ h) fun _ _ hpq => hpq.1.displayId.symm
    intro p q hpq
    show p.1.isMember = true ↔ q.1.isMember = true
    rw [hpq.1.isMember]
  have htypes (types : AttributeTypes) :
      declared.map (fun p => Member.plain p.1.displayId (types.schemaType p.1)) =
        declared'.map (fun p => Member.plain p.1.displayId (types.schemaType p.1)) :=
    map_eq_map_of_forall₂ h fun _ _ hpq => by rw [hpq.1.displayId, hpq.1.schemaType]
  simp only [assemble, Entities.ids, Entities.memberIds, Entities.schemas, Declaration.attributes,
    Declaration.attributeMap, List.filter_map, List.map_map, Function.comp_def, hdeclarations,
    hids, hmembers, htypes]

/-- What the run on `c` takes from `s` is what that on `c'` takes from `t`. -/
structure SameOutcome (c c' : Catalog) (skipped : List String) (s t : Schema) : Prop where
  /-- Both have the same id, or none. -/
  id? : t.id? = s.id?
  /-- If they are to be declared, the lookups show the same. -/
  shownAlike : isDeclared skipped s = true → s.ShownAlike t
  /-- If they are to be declared, it is with the same outcome. -/
  declare : isDeclared skipped s = true → c'.declare t = c.declare s

namespace SameOutcome

variable {c c' : Catalog} {skipped : List String} {s t : Schema}
  (h : SameOutcome c c' skipped s t)

include h

theorem isDeclared_eq : isDeclared skipped t = isDeclared skipped s := by
  unfold isDeclared
  rw [h.id?]

theorem failure?_eq : failure? c' skipped t = failure? c skipped s := by
  unfold failure?
  rw [h.isDeclared_eq]
  cases hs : isDeclared skipped s with
  | false => rfl
  | true => rw [h.declare hs]

theorem declared?_rel : Option.Rel SameDeclared (declared? c skipped s) (declared? c' skipped t) := by
  unfold declared?
  rw [h.isDeclared_eq]
  cases hs : isDeclared skipped s with
  | false => exact .none
  | true =>
    rw [h.declare hs]
    cases (c.declare s).declaration with
    | error f => exact .none
    | ok d => exact .some ⟨h.shownAlike hs, rfl⟩

theorem found_eq : found c' skipped t = found c skipped s := by
  unfold found
  rw [h.id?]
  cases hid : s.id? with
  | none => rfl
  | some id =>
    by_cases hskip : id ∈ skipped
    · simp [hskip]
    · have hs : isDeclared skipped s = true := by simp [isDeclared, hid, hskip]
      simp [hskip, h.declare hs]

end SameOutcome

/-- **Runs correspond if their schemas do.** Two runs have the same outcome if they take the
same from the schemas in the same place. -/
theorem generate_eq_of_sameOutcome {schemas schemas' : List Schema} (options : Options)
    (h : List.Forall₂ (SameOutcome ⟨schemas⟩ ⟨schemas'⟩ options.skipped) schemas schemas')
    (configurations : List AttributeConfiguration) :
    generate options schemas' configurations = generate options schemas configurations := by
  have hfailure : schemas.map (failure? ⟨schemas⟩ options.skipped) =
      schemas'.map (failure? ⟨schemas'⟩ options.skipped) :=
    map_eq_map_of_forall₂ h fun _ _ hst => hst.failure?_eq.symm
  have hfound : schemas.map (found ⟨schemas⟩ options.skipped) =
      schemas'.map (found ⟨schemas'⟩ options.skipped) :=
    map_eq_map_of_forall₂ h fun _ _ hst => hst.found_eq.symm
  have hdeclared : List.Forall₂ SameDeclared
      (schemas.filterMap (declared? ⟨schemas⟩ options.skipped))
      (schemas'.filterMap (declared? ⟨schemas'⟩ options.skipped)) :=
    List.rel_filterMap (fun _ _ hst => hst.declared?_rel) h
  by_cases hne : schemas = []
  · subst hne
    cases h
    rfl
  have hne' : schemas' ≠ [] := fun hnil => hne (List.length_eq_zero_iff.1 (by simp [h.length_eq, hnil]))
  have hfirst : schemas'.findSome? (failure? ⟨schemas'⟩ options.skipped) =
      schemas.findSome? (failure? ⟨schemas⟩ options.skipped) := by
    simpa [List.findSome?_map] using (congrArg (List.findSome? id) hfailure).symm
  rw [generate_of_ne_nil options configurations hne, generate_of_ne_nil options configurations hne',
    hfirst, List.flatMap_def, List.flatMap_def, hfound, assemble_congr hdeclared,
    hdeclared.length_eq]

end Generation

end EntityTypings
