import EntityTypings.Proofs.Correspondence

/-!
# What a run depends on

A run reads less of its schemas than they hold. Of a schema without an id it reads
nothing but that the id is missing. Of the descriptors of any other schema it reads
those of the properties that the schema is to declare itself, and even these only if
the schema is declared and no subtype; from the rest of the properties it takes
their names.

The main statement, `generate_congr`, says so for two lists of schemas of which those
in the same place differ in nothing that is read. It is proved from the outside
inwards: what is found under an id, the walk up the bases and the inherited names
are the same but for descriptors (`Schema.SameOutline`), and so each schema has the
same outcome.
-/

namespace EntityTypings

/-! ### Schemas that differ in descriptors -/

namespace Schema

/-- The two schemas differ at most in the descriptors of their properties. -/
def SameOutline (s t : Schema) : Prop :=
  ∃ p : NameMap Json, p.names = s.properties.names ∧ t = { s with properties := p }

/-- Neither of the two schemas has an id, or they differ at most in descriptors. -/
def Matches (s t : Schema) : Prop := s.id? = none ∧ t.id? = none ∨ s.SameOutline t

variable {s t : Schema}

theorem SameOutline.refl (s : Schema) : s.SameOutline s := ⟨s.properties, rfl, rfl⟩

theorem SameOutline.id? (h : s.SameOutline t) : t.id? = s.id? := by
  obtain ⟨p, -, rfl⟩ := h
  rfl

theorem SameOutline.displayId (h : s.SameOutline t) : t.displayId = s.displayId := by
  obtain ⟨p, -, rfl⟩ := h
  rfl

theorem SameOutline.isMember (h : s.SameOutline t) : t.isMember = s.isMember := by
  obtain ⟨p, -, rfl⟩ := h
  rfl

theorem SameOutline.isSubtype (h : s.SameOutline t) : t.isSubtype = s.isSubtype := by
  obtain ⟨p, -, rfl⟩ := h
  rfl

/-- The same custom attributes apply. -/
theorem SameOutline.schemaType (h : s.SameOutline t) (types : AttributeTypes) :
    types.schemaType t = types.schemaType s := by
  obtain ⟨p, hp, rfl⟩ := h
  have hbears : bearsAttributes { s with properties := p } = s.bearsAttributes := by
    simp only [bearsAttributes, has, NameMap.contains, hp]
    rfl
  have happlies (a : AttributeConfiguration) :
      a.appliesTo { s with properties := p } = a.appliesTo s := by
    simp only [AttributeConfiguration.appliesTo, hbears]
    rfl
  simp only [AttributeTypes.schemaType, AttributeTypes.applicableKeys, happlies]

theorem SameOutline.shownAlike (h : s.SameOutline t) : s.ShownAlike t :=
  ⟨h.displayId, h.isMember, h.schemaType⟩

/-- Of the schema itself, typing its properties reads no descriptors: it is given them. -/
theorem SameOutline.resolveAll (h : s.SameOutline t) (props : List (String × Json)) :
    t.resolveAll props = s.resolveAll props := by
  obtain ⟨p, -, rfl⟩ := h
  induction props with
  | nil => rfl
  | cons q rest ih =>
    simp only [Schema.resolveAll, ih]
    rfl

theorem Matches.id? (h : s.Matches t) : t.id? = s.id? := by
  rcases h with ⟨hs, ht⟩ | h
  · rw [hs, ht]
  · exact h.id?

end Schema

/-! ### Walks in step -/

namespace Catalog

section Walk

variable {c c' : Catalog} (hc : List.Forall₂ Schema.Matches c.schemas c'.schemas) {s t : Schema}

include hc

/-- What is found under an id is the same but for descriptors. -/
theorem find?_sameOutline (id : String) :
    Option.Rel Schema.SameOutline (c.find? id) (c'.find? id) := by
  obtain ⟨l⟩ := c
  obtain ⟨l'⟩ := c'
  simp only [find?] at hc ⊢
  induction hc with
  | nil => exact .none
  | @cons s t _ _ hst _ ih =>
    by_cases hid : s.id? = some id
    · rw [List.find?_cons_of_pos (by simp [hid]), List.find?_cons_of_pos (by simp [hst.id?, hid])]
      rcases hst with ⟨hnone, -⟩ | hst
      · rw [hnone] at hid
        cases hid
      · exact .some hst
    · rw [List.find?_cons_of_neg (by simp [hid]), List.find?_cons_of_neg (by simp [hst.id?, hid])]
      exact ih

theorem base?_sameOutline (hst : s.SameOutline t) :
    Option.Rel Schema.SameOutline (c.base? s) (c'.base? t) := by
  obtain ⟨p, -, rfl⟩ := hst
  simp only [base?]
  cases s.base with
  | none => exact .none
  | some id => exact find?_sameOutline hc id

theorem basesWithin_sameOutline (bound : Nat) (met : List String) (hst : s.SameOutline t) :
    List.Forall₂ Schema.SameOutline (c.basesWithin bound met s) (c'.basesWithin bound met t) := by
  induction bound generalizing met s t with
  | zero => exact .nil
  | succ n ih =>
    have hbase := base?_sameOutline hc hst
    unfold basesWithin
    generalize c.base? s = b at hbase ⊢
    generalize c'.base? t = b' at hbase ⊢
    cases hbase with
    | none => exact .nil
    | some hb =>
      simp only [hb.displayId]
      split
      · exact .nil
      · exact .cons hb (ih _ hb)

theorem baseChain_sameOutline (hst : s.SameOutline t) :
    List.Forall₂ Schema.SameOutline (c.baseChain s) (c'.baseChain t) := by
  unfold baseChain
  rw [hst.displayId, ← hc.length_eq]
  exact basesWithin_sameOutline hc _ _ hst

/-- The same names are inherited. -/
theorem chainNames_eq_of_sameOutline (hst : s.SameOutline t) : c'.chainNames t = c.chainNames s := by
  simp only [chainNames, List.flatMap_def]
  refine congrArg List.flatten (map_eq_map_of_forall₂ (baseChain_sameOutline hc hst) ?_).symm
  rintro b b' ⟨p, hp, rfl⟩
  exact hp.symm

/-- The declaration takes over the same from that of the base. -/
theorem heritage?_eq_of_sameOutline (hst : s.SameOutline t) : c'.heritage? t = c.heritage? s := by
  rw [heritage?_eq, heritage?_eq]
  simp only [omittedNames, chainNames_eq_of_sameOutline hc hst]
  have hbase := base?_sameOutline hc hst
  generalize c.base? s = b at hbase ⊢
  generalize c'.base? t = b' at hbase ⊢
  cases hbase with
  | none => rfl
  | some hb => simp [hb.displayId]

/-- A schema that is no subtype is to declare the same names. -/
theorem declares_eq_of_sameOutline (hst : s.SameOutline t) (hs : s.isSubtype = false)
    (name : String) : c'.declares t name = c.declares s name := by
  simp only [declares, inheritedNames_of_not_isSubtype hs,
    inheritedNames_of_not_isSubtype (hst.isSubtype.trans hs), chainNames_eq_of_sameOutline hc hst]

end Walk

/-! ### Descriptors that are read -/

/-- Where the schema is declared and no subtype, the other one has the same descriptors for
the names that the schema is to declare. -/
def ReadsAlike (c : Catalog) (skipped : List String) (s t : Schema) : Prop :=
  Generation.isDeclared skipped s = true → s.isSubtype = false →
    t.properties.entries.filter (fun p => c.declares s p.1) = c.candidates s

theorem ReadsAlike.refl (c : Catalog) (skipped : List String) (s : Schema) :
    c.ReadsAlike skipped s s := fun _ _ => rfl

/-- The two schemas are declared with the same outcome. -/
theorem ReadsAlike.declare {c c' : Catalog} {skipped : List String} {s t : Schema}
    (hread : c.ReadsAlike skipped s t)
    (hc : List.Forall₂ Schema.Matches c.schemas c'.schemas) (hst : s.SameOutline t)
    (hdecl : Generation.isDeclared skipped s = true) : c'.declare t = c.declare s := by
  unfold Catalog.declare
  rw [hst.isSubtype]
  cases hs : s.isSubtype with
  | true =>
    obtain ⟨p, -, rfl⟩ := hst
    rfl
  | false =>
    have hcandidates : c'.candidates t = c.candidates s := by
      rw [← hread hdecl hs]
      exact List.filter_congr fun p _ => declares_eq_of_sameOutline hc hst hs p.1
    have hinterface : c'.interfaceOf t = c.interfaceOf s := by
      funext members
      simp only [interfaceOf, heritage?_eq_of_sameOutline hc hst]
      obtain ⟨p, -, rfl⟩ := hst
      rfl
    simp only [resolve, hcandidates, hst.resolveAll, hinterface, Bool.false_eq_true, if_false]

end Catalog

/-! ### Runs -/

namespace Generation

/-- Schemas that are read alike have the same outcome. -/
theorem sameOutcome_of_readsAlike {c c' : Catalog} {skipped : List String} {s t : Schema}
    (hc : List.Forall₂ Schema.Matches c.schemas c'.schemas) (hst : s.Matches t)
    (hread : c.ReadsAlike skipped s t) : SameOutcome c c' skipped s t := by
  rcases hst with ⟨hnone, hnone'⟩ | hst
  · have hs : isDeclared skipped s ≠ true := by simp [isDeclared, hnone]
    exact ⟨hnone'.trans hnone.symm, fun h => absurd h hs, fun h => absurd h hs⟩
  · exact ⟨hst.id?, fun _ => hst.shownAlike, hread.declare hc hst⟩

/-- **What a run depends on.** Two runs have the same outcome if the schemas in the same
place have no ids, or differ at most in the descriptors of properties that they are not to
declare. -/
theorem generate_congr {schemas schemas' : List Schema} (options : Options)
    (h : List.Forall₂ (fun s t => s.Matches t ∧
      Catalog.ReadsAlike ⟨schemas⟩ options.skipped s t) schemas schemas')
    (configurations : List AttributeConfiguration) :
    generate options schemas' configurations = generate options schemas configurations := by
  have hc : List.Forall₂ Schema.Matches schemas schemas' := h.imp fun _ _ hst => hst.1
  exact generate_eq_of_sameOutcome options
    (h.imp fun _ _ hst => sameOutcome_of_readsAlike hc hst.1 hst.2) configurations

end Generation

end EntityTypings
