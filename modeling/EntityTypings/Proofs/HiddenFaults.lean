import EntityTypings.Proofs.Dependence
import EntityTypings.Proofs.FailedRun
import EntityTypings.Proofs.EffectiveMembers

/-!
# Faults that a run does not see

A descriptor that cannot be read ends the run, but only if it is read. A run does not
read the descriptors of a subtype, which is declared as an alias of the root and has no
members of its own, nor those of a property that some base of the schema has, because
the schema does not declare it again; the custom attributes, which every schema
declares again, are read in any case. `Catalog.Hides` says which properties these are.

The main statement, `fault_ends_run_unless_hidden`, is that there are no others: the
fault of a property that is not hidden ends the run, and what stands in the place of
a hidden descriptor makes no difference to the outcome. `unnoticed_faults` is a run
that succeeds over one fault of each kind.
-/

namespace EntityTypings

/-! ### Faults of a schema -/

/-- The schema has a property of this name, which is not deprecated, and its descriptor has
the fault. -/
structure Schema.FaultyProperty (s : Schema) (name : String) (fault : DescriptorFault) : Prop where
  /-- The property is not deprecated. -/
  not_deprecated : isDeprecated name = false
  /-- Its descriptor has the fault. -/
  faulty : ∃ j, (name, j) ∈ s.properties.entries ∧ Descriptor.ofJson j = .error fault

theorem Schema.FaultyProperty.mem_names {s : Schema} {name : String} {fault : DescriptorFault}
    (h : s.FaultyProperty name fault) : name ∈ s.properties.names := by
  obtain ⟨j, hj, -⟩ := h.faulty
  exact List.mem_map_of_mem hj

/-- The schema with another descriptor for a property. -/
def Schema.withDescriptor (s : Schema) (name : String) (j : Json) : Schema :=
  { s with properties := s.properties.insert name j }

namespace Catalog

/-- A run does not read the descriptor of the property: the schema is a subtype, or some base
of it has the property, which is not the custom attributes. -/
def Hides (c : Catalog) (s : Schema) (name : String) : Prop :=
  s.isSubtype = true ∨ name ≠ Schema.customAttributes ∧ ∃ b ∈ c.baseChain s, b.has name = true

instance (c : Catalog) (s : Schema) (name : String) : Decidable (c.Hides s name) :=
  inferInstanceAs (Decidable (_ ∨ _))

variable {c : Catalog} {skipped : List String} {s : Schema} {name : String}

/-- A schema that is no subtype does not declare what is hidden. -/
theorem Hides.declares_eq_false (h : c.Hides s name) (hs : s.isSubtype = false) :
    c.declares s name = false := by
  rcases h with hsub | ⟨hne, hb⟩
  · rw [hs] at hsub
    cases hsub
  · have hin : name ∈ c.chainNames s := mem_chainNames.2 hb
    rw [← Bool.not_eq_true, declares_iff hs]
    rintro ⟨-, hca | hnew⟩
    · exact hne hca
    · exact hnew hin

/-- The fault of a declared schema counts unless it is hidden. -/
theorem faultAt_of_not_hides {fault : DescriptorFault}
    (hdecl : ∃ id, s.id? = some id ∧ id ∉ skipped) (hfault : s.FaultyProperty name fault)
    (h : ¬ c.Hides s name) : c.FaultAt skipped s name fault := by
  rw [Hides, not_or, not_and_or, not_not] at h
  obtain ⟨hs, hown⟩ := h
  refine ⟨hdecl, by simpa using hs, hfault.not_deprecated, hown.imp_right fun hnone b hb => ?_,
    hfault.faulty⟩
  rw [← Bool.not_eq_true]
  exact fun hhas => hnone ⟨b, hb, hhas⟩

/-- Another descriptor for a hidden property is not read either. -/
theorem Hides.readsAlike (h : c.Hides s name) (j : Json) :
    c.ReadsAlike skipped s (s.withDescriptor name j) := by
  intro _ hs
  exact NameMap.filter_insertSorted j (h.declares_eq_false hs) s.properties.entries

end Catalog

theorem Schema.sameOutline_withDescriptor {s : Schema} {name : String} (j : Json)
    (h : name ∈ s.properties.names) : s.SameOutline (s.withDescriptor name j) :=
  ⟨s.properties.insert name j, NameMap.names_insert_of_mem j h, rfl⟩

/-! ### The run -/

/-- In a catalog where one hidden descriptor is another, the run has the same outcome. -/
theorem generate_withDescriptor {options : Generation.Options} {before after : List Schema}
    {s : Schema} {name : String} (hname : name ∈ s.properties.names)
    (h : Catalog.Hides ⟨before ++ s :: after⟩ s name) (j : Json)
    (configurations : List AttributeConfiguration) :
    generate options (before ++ s.withDescriptor name j :: after) configurations =
      generate options (before ++ s :: after) configurations := by
  refine Generation.generate_congr options ?_ configurations
  have hrest (t : Schema) : t.Matches t ∧
      Catalog.ReadsAlike ⟨before ++ s :: after⟩ options.skipped t t :=
    ⟨.inr (.refl t), .refl _ _ t⟩
  exact forall₂_replaced (fun t _ => hrest t)
    ⟨.inr (Schema.sameOutline_withDescriptor j hname), h.readsAlike j⟩ (fun t _ => hrest t)

/-- **A fault ends the run unless it is hidden.** Take a declared schema with a property
that is not deprecated and has a faulty descriptor. If the property is not hidden, the run
fails. If it is, its descriptor is not read: with any other in its place, the run has the
same outcome. -/
theorem fault_ends_run_unless_hidden {options : Generation.Options} {before after : List Schema}
    {s : Schema} {name : String} {fault : DescriptorFault}
    (hdecl : ∃ id, s.id? = some id ∧ id ∉ options.skipped)
    (hfault : s.FaultyProperty name fault) (configurations : List AttributeConfiguration) :
    (¬ Catalog.Hides ⟨before ++ s :: after⟩ s name →
      ∃ f, generate options (before ++ s :: after) configurations = .error f) ∧
    (Catalog.Hides ⟨before ++ s :: after⟩ s name → ∀ j,
      generate options (before ++ s.withDescriptor name j :: after) configurations =
        generate options (before ++ s :: after) configurations) := by
  refine ⟨fun hseen => ?_, fun hhidden j => generate_withDescriptor hfault.mem_names hhidden j _⟩
  have hcounts : (Generation.failure? ⟨before ++ s :: after⟩ options.skipped s).isSome = true :=
    failure?_isSome_iff_hasFault.2 ⟨name, fault, Catalog.faultAt_of_not_hides hdecl hfault hseen⟩
  have hsome : ((before ++ s :: after).findSome?
      (Generation.failure? ⟨before ++ s :: after⟩ options.skipped)).isSome = true :=
    List.findSome?_isSome_iff.2 ⟨s, by simp, hcounts⟩
  obtain ⟨f, hf⟩ := Option.isSome_iff_exists.1 hsome
  exact ⟨f, Generation.generate_eq_error_iff.2 hf⟩

/-- A descriptor of a type that no catalog uses. -/
def unknownDescriptor : Json := .object [("type", .string "bogus")]

/-- A schema without a base that has a size and custom attributes. -/
def sizedThing : Schema :=
  .plain "Thing" none [("custom_attributes", .object []), ("size", textDescriptor)]

/-- A schema on it with a fault that is hidden, as the base has a size. -/
def resizedCut : Schema := .plain "Cut" (some "Thing") [("size", unknownDescriptor)]

/-- A schema on it with a fault that is not hidden, though the base has custom attributes. -/
def attributedCut : Schema :=
  .plain "Cut" (some "Thing") [("custom_attributes", unknownDescriptor)]

/-- A subtype with a fault, which is hidden. -/
def faultyShot : Schema :=
  { Schema.plain "Shot" none [("fps", unknownDescriptor)] with
    aliasOf := some (.record Schema.subtypeMarker) }

theorem faultyProperty_unknownDescriptor {s : Schema} {name : String}
    (hdep : isDeprecated name = false) (h : (name, unknownDescriptor) ∈ s.properties.entries) :
    s.FaultyProperty name (.unknownType "bogus") :=
  ⟨hdep, unknownDescriptor, h, by decide⟩

theorem fault_of_custom_attributes_ends_run :
    (∃ id, attributedCut.id? = some id ∧ id ∉ Generation.Options.default.skipped) ∧
      attributedCut.FaultyProperty "custom_attributes" (.unknownType "bogus") ∧
      ¬ Catalog.Hides ⟨[sizedThing] ++ [attributedCut]⟩ attributedCut "custom_attributes" ∧
      (∃ f, generate .default ([sizedThing] ++ [attributedCut]) [] = .error f) ∧
    (∃ id, resizedCut.id? = some id ∧ id ∉ Generation.Options.default.skipped) ∧
      resizedCut.FaultyProperty "size" (.unknownType "bogus") ∧
      Catalog.Hides ⟨[sizedThing] ++ [resizedCut]⟩ resizedCut "size" ∧
      generate .default ([sizedThing] ++ [resizedCut.withDescriptor "size" textDescriptor]) [] =
        generate .default ([sizedThing] ++ [resizedCut]) [] := by
  have hattributed : attributedCut.FaultyProperty "custom_attributes" (.unknownType "bogus") :=
    faultyProperty_unknownDescriptor (by decide) (.head _)
  have hresized : resizedCut.FaultyProperty "size" (.unknownType "bogus") :=
    faultyProperty_unknownDescriptor (by decide) (.head _)
  have hseen : ¬ Catalog.Hides ⟨[sizedThing] ++ [attributedCut]⟩ attributedCut
    "custom_attributes" := by decide
  have hhidden : Catalog.Hides ⟨[sizedThing] ++ [resizedCut]⟩ resizedCut "size" := by decide
  exact ⟨⟨"Cut", rfl, by decide⟩, hattributed, hseen,
    (fault_ends_run_unless_hidden ⟨"Cut", rfl, by decide⟩ hattributed []).1 hseen,
    ⟨"Cut", rfl, by decide⟩, hresized, hhidden,
    (fault_ends_run_unless_hidden ⟨"Cut", rfl, by decide⟩ hresized []).2 hhidden textDescriptor⟩

/-- **Faults can go unnoticed**: the run succeeds and reports nothing on either schema. -/
theorem unnoticed_faults :
    ∃ o, generate .default [sizedThing, resizedCut, faultyShot] [] = .ok o ∧
      ∀ s ∈ [resizedCut, faultyShot], ∃ id name fault, s.id? = some id ∧
        id ∉ Generation.Options.default.skipped ∧ s.FaultyProperty name fault ∧
        ∀ d ∈ o.diagnostics.items, d.schemaId ≠ id := by
  refine ⟨_, rfl, fun s hs => ?_⟩
  simp only [List.mem_cons, List.not_mem_nil, or_false] at hs
  rcases hs with rfl | rfl
  · exact ⟨"Cut", "size", .unknownType "bogus", rfl, by decide,
      faultyProperty_unknownDescriptor (by decide) (.head _), by decide⟩
  · exact ⟨"Shot", "fps", .unknownType "bogus", rfl, by decide,
      faultyProperty_unknownDescriptor (by decide) (.head _), by decide⟩

end EntityTypings
