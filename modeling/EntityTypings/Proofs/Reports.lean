import EntityTypings.Proofs.EffectiveMembers
import Mathlib.Data.List.TakeWhile

/-!
# What a run reports

The problems that a run finds are collected on the way through all schemas. Here they
are said schema by schema, and for each schema by conditions on its properties alone:
`Catalog.UntypedAt` says which properties are reported, and `Generation.reports` lists
what is reported for a schema, in order of name.

The main statement, `diagnostics_of_generate`, is that a run which succeeds reports
these and nothing else, in the order of the catalog; that only an empty catalog counts
as an error; and that a catalog whose schemas all have ids and all of whose
descriptors are typed is generated without problems. That the list is right also where
a run fails half-way is `diagnostics_resolveAll`.
-/

namespace EntityTypings

/-! ### Untyped properties -/

namespace Schema

/-- Whether a property is left out because its descriptor gives no type. -/
def isUntyped (p : String × Json) : Bool :=
  match Descriptor.ofJson p.2 with
  | .ok d => p.1 ≠ customAttributes ∧ d = .untyped
  | .error _ => false

theorem isUntyped_iff {p : String × Json} :
    isUntyped p = true ↔ p.1 ≠ customAttributes ∧ Descriptor.ofJson p.2 = .ok .untyped := by
  unfold isUntyped
  split <;> simp [*]

/-- A property is left out exactly if it gets no type. -/
theorem isUntyped_iff_memberType? {s : Schema} {p : String × Json} {d : Descriptor}
    (h : Descriptor.ofJson p.2 = .ok d) :
    isUntyped p = true ↔ s.memberType? p.1 d = none := by
  rw [← Option.not_isSome_iff_eq_none, memberType?_isSome_iff h, isUntyped_iff, h, not_or,
    Except.ok.injEq, ne_eq, not_not]

/-- **What resolving reports**: the untyped properties before the first faulty one. -/
theorem diagnostics_resolveAll (s : Schema) (props : List (String × Json)) :
    (s.resolveAll props).diagnostics =
      ((props.takeWhile (fun p => (s.fault? p).isNone)).filter isUntyped).map
        (fun p => .untypedProperty s.displayId p.1) := by
  induction props with
  | nil => rfl
  | cons p rest ih =>
    cases hp : s.fault? p with
    | some f =>
      rw [resolveAll_cons_of_fault hp, List.takeWhile_cons_of_neg (by simp [hp])]
      rfl
    | none =>
      obtain ⟨d, hd⟩ := fault?_eq_none_iff.1 hp
      have huntyped : isUntyped p = true ↔ s.memberType? p.1 d = none :=
        isUntyped_iff_memberType? hd
      rw [List.takeWhile_cons_of_pos (by simp [hp])]
      simp only [resolveAll, hd]
      cases ht : s.memberType? p.1 d with
      | none => rw [List.filter_cons_of_pos (huntyped.2 ht), List.map_cons, ih]
      | some t => rw [List.filter_cons_of_neg (by simp [huntyped, ht]), ih]

end Schema

namespace Catalog

/-- A property that a schema would declare, but whose descriptor gives it no type. -/
structure UntypedAt (c : Catalog) (s : Schema) (name : String) : Prop where
  /-- The property is not deprecated. -/
  not_deprecated : isDeprecated name = false
  /-- It is not the custom attributes, whose type does not come from their descriptor. -/
  not_customAttributes : name ≠ Schema.customAttributes
  /-- No base has it. -/
  own : ∀ b ∈ c.baseChain s, b.has name = false
  /-- Its descriptor is untyped. -/
  untyped : ∃ j, (name, j) ∈ s.properties.entries ∧ Descriptor.ofJson j = .ok .untyped

/-- The untyped properties among the candidates. -/
def untypedNames (c : Catalog) (s : Schema) : List String :=
  ((c.candidates s).filter Schema.isUntyped).map Prod.fst

variable {c : Catalog} {s : Schema}

theorem mem_untypedNames (hs : s.isSubtype = false) {name : String} :
    name ∈ c.untypedNames s ↔ c.UntypedAt s name := by
  simp only [untypedNames, List.mem_map, List.mem_filter, mem_candidates, Schema.isUntyped_iff]
  constructor
  · rintro ⟨p, ⟨⟨hp, hdecl⟩, hca, huntyped⟩, rfl⟩
    obtain ⟨hdep, hown⟩ := (declares_iff hs).1 hdecl
    exact ⟨hdep, hca, not_mem_chainNames_iff.1 (hown.resolve_left hca), p.2, hp, huntyped⟩
  · rintro ⟨hdep, hca, hown, j, hj, huntyped⟩
    have hdecl : c.declares s name = true :=
      (declares_iff hs).2 ⟨hdep, .inr (not_mem_chainNames_iff.2 hown)⟩
    exact ⟨(name, j), ⟨⟨hj, hdecl⟩, hca, huntyped⟩, rfl⟩

/-- The untyped properties are in strictly increasing order of name. -/
theorem untypedNames_sorted (c : Catalog) (s : Schema) :
    (c.untypedNames s).Pairwise (· < ·) :=
  List.pairwise_map.2 ((candidates_sorted c s).filter _)

/-- A schema whose candidates can all be read reports the untyped ones. -/
theorem diagnostics_of_read
    (hread : ∀ p ∈ c.candidates s, ∃ d, Descriptor.ofJson p.2 = .ok d) :
    (c.resolve s).diagnostics = (c.untypedNames s).map (.untypedProperty s.displayId) := by
  have hall : ∀ p ∈ c.candidates s, (s.fault? p).isNone = true := fun p hp => by
    rw [Schema.fault?_eq_none_iff.2 (hread p hp)]
    rfl
  rw [resolve, Schema.diagnostics_resolveAll, List.takeWhile_eq_self_iff.2 hall, untypedNames,
    List.map_map]
  rfl

/-- A schema that could be declared reports all its untyped properties. -/
theorem diagnostics_of_declare {d : Declaration} (h : (c.declare s).declaration = .ok d)
    (hs : s.isSubtype = false) :
    (c.declare s).diagnostics = (c.untypedNames s).map (.untypedProperty s.displayId) := by
  obtain ⟨-, hread⟩ := interface_of_declare h hs
  rw [← diagnostics_of_read hread]
  simp only [declare, hs, Bool.false_eq_true, if_false]

end Catalog

namespace Generation

/-! ### One schema -/

/-- What a run reports for a schema that it does not fail on. -/
def reports (c : Catalog) (skipped : List String) (s : Schema) : List Diagnostic :=
  match s.id? with
  | none => [.missingSchemaId]
  | some id =>
    if id ∈ skipped ∨ s.isSubtype = true then []
    else (c.untypedNames s).map (.untypedProperty id)

variable {c : Catalog} {skipped : List String} {s : Schema}

theorem found_eq_reports (h : failure? c skipped s = none) :
    found c skipped s = reports c skipped s := by
  unfold found reports
  cases hid : s.id? with
  | none => rfl
  | some id =>
    by_cases hskip : id ∈ skipped
    · simp [hskip]
    · cases hs : s.isSubtype with
      | true => simp [hskip, Catalog.declare_of_isSubtype hs]
      | false =>
        obtain ⟨d, hd⟩ := exists_of_failure?_eq_none h (by simp [isDeclared, hid, hskip])
        have hname : s.displayId = id := (Schema.id?_eq_some_iff.1 hid).1
        simp [hskip, Catalog.diagnostics_of_declare hd hs, hname]

/-- What is reported for a schema is a warning. -/
theorem severity_of_mem_reports {d : Diagnostic} (h : d ∈ reports c skipped s) :
    d.severity = .warning := by
  unfold reports at h
  split at h
  · rw [List.mem_singleton] at h
    subst h
    rfl
  · split at h
    · cases h
    · obtain ⟨name, -, rfl⟩ := List.mem_map.1 h
      rfl

/-- Nothing is reported for a schema with an id whose descriptors are all typed. -/
theorem reports_eq_nil (hid : s.id? ≠ none)
    (htyped : ∀ name j, (name, j) ∈ s.properties.entries →
      ∃ d, Descriptor.ofJson j = .ok d ∧ d ≠ .untyped) : reports c skipped s = [] := by
  unfold reports
  split
  · rename_i hnone
    exact absurd hnone hid
  · split
    · rfl
    · rename_i hcond
      have hs : s.isSubtype = false := by
        simpa using fun hsub => hcond (.inr hsub)
      rw [List.map_eq_nil_iff, List.eq_nil_iff_forall_not_mem]
      intro name hname
      obtain ⟨j, hj, huntyped⟩ := ((Catalog.mem_untypedNames hs).1 hname).untyped
      obtain ⟨d, hd, hne⟩ := htyped name j hj
      rw [huntyped] at hd
      cases hd
      exact hne rfl

/-- A schema whose descriptors can all be read does not fail. -/
theorem failure?_eq_none_of_read
    (hread : ∀ name j, (name, j) ∈ s.properties.entries → ∃ d, Descriptor.ofJson j = .ok d) :
    failure? c skipped s = none := by
  rw [Option.eq_none_iff_forall_ne_some]
  intro f hf
  obtain ⟨-, hdeclare⟩ := failure?_eq_some_iff.1 hf
  cases hs : s.isSubtype with
  | true =>
    rw [Catalog.declaration_of_isSubtype hs] at hdeclare
    cases hdeclare
  | false =>
    have hnone : (c.candidates s).findSome? s.fault? = none :=
      List.findSome?_eq_none_iff.2 fun p hp =>
        Schema.fault?_eq_none_iff.2 (hread p.1 p.2 (Catalog.mem_candidates.1 hp).1)
    rw [Catalog.declaration_of_not_isSubtype hs, hnone] at hdeclare
    cases hdeclare

end Generation

/-! ### The text -/

theorem Line.render_ne_empty (l : Line) : l.render ≠ "" := by
  unfold Line.render
  split
  · decide
  · simp [String.append_eq_empty_iff]

/-- A source is never empty: below the preamble there is at least an empty line. -/
theorem Artifact.text_ne_empty (a : Artifact) : a.text ≠ "" := by
  have hlines : ∃ l rest, a.lines = l :: rest := by
    simp only [Artifact.lines, preambleLines]
    cases a.preamble with
    | nil => exact ⟨_, _, rfl⟩
    | cons m ms => exact ⟨_, _, rfl⟩
  obtain ⟨l, rest, hl⟩ := hlines
  rw [Artifact.text, hl, renderLines, List.map_cons, String.join_cons]
  exact fun hempty => Line.render_ne_empty _ (String.append_eq_empty_iff.1 hempty).1

namespace Generation

variable {options : Options} {schemas : List Schema} {configurations : List AttributeConfiguration}
  {o : Output}

theorem text_eq_empty_iff (h : generate options schemas configurations = .ok o) :
    o.text = "" ↔ schemas = [] := by
  rw [← artifact_eq_none_iff h, Output.text]
  cases o.artifact with
  | none => simp
  | some a => simp [Artifact.text_ne_empty]

/-- A run that succeeds on schemas reports for each what there is to report. -/
theorem items_of_generate (h : generate options schemas configurations = .ok o)
    (hne : schemas ≠ []) :
    o.diagnostics.items = schemas.flatMap (reports ⟨schemas⟩ options.skipped) := by
  rw [generate_of_ne_nil options configurations hne] at h
  split at h
  · cases h
  · rename_i hnone
    cases h
    simp only [List.flatMap_def]
    exact congrArg List.flatten (List.map_congr_left fun s hs =>
      found_eq_reports (List.findSome?_eq_none_iff.1 hnone s hs))

theorem hasErrors_iff (h : generate options schemas configurations = .ok o) :
    o.diagnostics.hasErrors = true ↔ schemas = [] := by
  by_cases hne : schemas = []
  · subst hne
    cases h
    simp [Diagnostics.hasErrors, Diagnostic.noSchemas, Diagnostic.severity,
      DiagnosticCode.severity]
  · simp only [hne, iff_false, Diagnostics.hasErrors, List.any_eq_true, items_of_generate h hne,
      List.mem_flatMap]
    rintro ⟨d, ⟨s, -, hd⟩, hsev⟩
    rw [severity_of_mem_reports hd] at hsev
    cases hsev

end Generation

/-- **What a run reports.** A run that succeeds on no schemas reports that there are none. On
others it reports, schema by schema in the order of the catalog, a missing id, and for the
schemas that are declared and no subtypes the untyped properties in order of name. So only an
empty catalog counts as an error, and gives an empty source; and where all ids are there
and all descriptors typed, the run succeeds without problems. -/
theorem diagnostics_of_generate (options : Generation.Options) (schemas : List Schema)
    (configurations : List AttributeConfiguration) :
    (∀ o, generate options schemas configurations = .ok o →
      o.errors = o.diagnostics.items.map Diagnostic.message ∧
      (schemas = [] →
        o.diagnostics.items = [.noSchemas] ∧ o.text = "" ∧ o.schemaCount = 0) ∧
      (schemas ≠ [] → ∃ untyped : Schema → List String,
        (∀ s ∈ schemas, s.isSubtype = false → (untyped s).Pairwise (· < ·) ∧
          ∀ name, name ∈ untyped s ↔ Catalog.UntypedAt ⟨schemas⟩ s name) ∧
        o.diagnostics.items = schemas.flatMap (fun s =>
          match s.id? with
          | none => [.missingSchemaId]
          | some id =>
            if id ∈ options.skipped ∨ s.isSubtype = true then []
            else (untyped s).map (.untypedProperty id))) ∧
      (o.diagnostics.hasErrors = true ↔ schemas = []) ∧ (o.text = "" ↔ schemas = [])) ∧
    (schemas ≠ [] → (∀ s ∈ schemas, s.id? ≠ none ∧ ∀ name j, (name, j) ∈ s.properties.entries →
        ∃ d, Descriptor.ofJson j = .ok d ∧ d ≠ .untyped) →
      ∃ o, generate options schemas configurations = .ok o ∧ o.errors = [] ∧ o.text ≠ "") := by
  refine ⟨fun o h => ⟨rfl, ?_, fun hne => ?_, Generation.hasErrors_iff h,
    Generation.text_eq_empty_iff h⟩, fun hne htyped => ?_⟩
  · rintro rfl
    cases h
    exact ⟨rfl, rfl, rfl⟩
  · exact ⟨Catalog.untypedNames ⟨schemas⟩, fun s _ hs =>
      ⟨Catalog.untypedNames_sorted _ s, fun name => Catalog.mem_untypedNames hs⟩,
      Generation.items_of_generate h hne⟩
  · have hnone : schemas.findSome? (Generation.failure? ⟨schemas⟩ options.skipped) = none :=
      List.findSome?_eq_none_iff.2 fun s hs => Generation.failure?_eq_none_of_read fun name j hj =>
        (((htyped s hs).2 name j hj).imp fun _ hd => hd.1)
    obtain ⟨o, ho⟩ : ∃ o, generate options schemas configurations = .ok o := by
      rw [Generation.generate_of_ne_nil options configurations hne, hnone]
      exact ⟨_, rfl⟩
    have hitems : o.diagnostics.items = [] := by
      rw [Generation.items_of_generate ho hne, List.flatMap_eq_nil_iff]
      exact fun s hs => Generation.reports_eq_nil (htyped s hs).1 (htyped s hs).2
    refine ⟨o, ho, ?_, fun hempty => hne ((Generation.text_eq_empty_iff ho).1 hempty)⟩
    rw [Generation.Output.errors, Diagnostics.messages, hitems, List.map_nil]

/-- A schema with untyped properties, of which one is deprecated, one inherited and one the
custom attributes. -/
def untypedAsset : Schema :=
  .plain "Asset" (some "Message") [("_code", .object []), ("custom_attributes", .object []),
    ("note", .object []), ("size", .object []), ("unit", textDescriptor)]

/-- With it a schema without an id, its base, which is skipped, and a subtype; they all have
untyped properties too. -/
def untypedCatalog : List Schema :=
  [{ Schema.plain "" none [("note", .object [])] with givenId := none },
    .plain "Message" none [("size", .object [])],
    { Schema.plain "Shot" none [("note", .object [])] with
      aliasOf := some (.record Schema.subtypeMarker) },
    untypedAsset]

/-- A catalog in which all descriptors are typed. -/
def typedCatalog : List Schema :=
  [.plain "Asset" none [("unit", textDescriptor)],
    .plain "Shot" (some "Asset") [("note", textDescriptor)]]

/-- In the first catalog the missing id is reported, and the untyped properties of `Asset` that it
declares. In the second there is nothing to report. -/
theorem reports_of_untypedCatalog :
    (∃ (o : Generation.Output) (untyped : Schema → List String),
      generate .withoutLegacy untypedCatalog [] = .ok o ∧ untypedCatalog ≠ [] ∧
      o.diagnostics.items =
        .missingSchemaId :: (untyped untypedAsset).map (.untypedProperty "Asset") ∧
      "note" ∈ untyped untypedAsset ∧ "size" ∉ untyped untypedAsset ∧
      o.diagnostics.hasErrors = false ∧ o.text ≠ "") ∧
    ∃ o : Generation.Output, generate .withoutLegacy typedCatalog [] = .ok o ∧ o.errors = [] ∧
      o.text ≠ "" := by
  constructor
  · obtain ⟨o, ho⟩ : ∃ o, generate .withoutLegacy untypedCatalog [] = .ok o := ⟨_, rfl⟩
    have hne : untypedCatalog ≠ [] := List.cons_ne_nil _ _
    obtain ⟨-, -, hitems, herrors, htext⟩ :=
      (diagnostics_of_generate .withoutLegacy untypedCatalog []).1 o ho
    obtain ⟨untyped, hnames, hlist⟩ := hitems hne
    have hmem : untypedAsset ∈ untypedCatalog := .tail _ (.tail _ (.tail _ (.head _)))
    obtain ⟨-, hasset⟩ := hnames _ hmem rfl
    refine ⟨o, untyped, ho, hne, ?_, (hasset "note").2 ?_, fun hsize => ?_, ?_, fun hempty => ?_⟩
    · rw [hlist]
      simp only [untypedCatalog, List.flatMap_cons, List.flatMap_nil, List.append_nil]
      rfl
    · exact ⟨by decide, by decide, by decide, .object [], .tail _ (.tail _ (.head _)), rfl⟩
    · exact absurd ((hasset "size").1 hsize).own (by decide)
    · rw [← Bool.not_eq_true, herrors]
      exact hne
    · exact hne (htext.1 hempty)
  · have hall : ∀ s ∈ typedCatalog, s.id? ≠ none ∧
        ∀ e ∈ s.properties.entries, e.2 = textDescriptor := by
      intro s hs
      simp only [typedCatalog, List.mem_cons, List.not_mem_nil, or_false] at hs
      rcases hs with rfl | rfl <;>
        exact ⟨by decide, fun e he => by rw [List.mem_singleton.1 (NameMap.mem_of_mem_ofList he)]⟩
    refine (diagnostics_of_generate .withoutLegacy typedCatalog []).2 (List.cons_ne_nil _ _)
      fun s hs => ⟨(hall s hs).1, fun name j hj => ?_⟩
    have hj' : j = textDescriptor := (hall s hs).2 (name, j) hj
    subst hj'
    exact ⟨_, rfl, nofun⟩

end EntityTypings
