import EntityTypings.Proofs.Run

/-!
# When a run fails

A run ends at the first faulty property that it comes to, and it comes to few:
`Catalog.FaultAt` says which faults count, in terms of the catalog alone. The
schema has to be declared and no subtype, and the property one that the schema
declares itself. The fault of a property that is inherited, deprecated or of a
skipped schema goes unnoticed.

`findSome?_eq_some_iff_least` says what is found first in a list in order of
name. With it, `failure?_eq_some_iff_least` picks the property of a schema and
`generate_eq_error_iff_first` the schema.
-/

namespace EntityTypings

/-- What is found first in a list sorted by name is found at the least name. -/
theorem findSome?_eq_some_iff_least {α β : Type} {l : List (String × α)}
    (hl : l.Pairwise (fun p q => p.1 < q.1)) {g : String × α → Option β} {y : β} :
    l.findSome? g = some y ↔ ∃ p ∈ l, g p = some y ∧ ∀ q ∈ l, g q ≠ none → p.1 ≤ q.1 := by
  constructor
  · intro h
    obtain ⟨before, p, after, rfl, hp, hbefore⟩ := List.findSome?_eq_some_iff.1 h
    obtain ⟨-, hafter, -⟩ := List.pairwise_append.1 hl
    refine ⟨p, by simp, hp, fun q hq hne => ?_⟩
    rcases List.mem_append.1 hq with hq | hq
    · exact absurd (hbefore q hq) hne
    · rcases List.mem_cons.1 hq with rfl | hq
      · exact String.le_refl _
      · exact Std.le_of_lt ((List.pairwise_cons.1 hafter).1 q hq)
  · rintro ⟨p, hp, hy, hleast⟩
    obtain ⟨before, after, rfl⟩ := List.append_of_mem hp
    obtain ⟨-, -, hbefore⟩ := List.pairwise_append.1 hl
    refine List.findSome?_eq_some_iff.2 ⟨before, p, after, rfl, hy, fun q hq => ?_⟩
    have hlt := hbefore q hq p List.mem_cons_self
    cases hg : g q with
    | none => rfl
    | some z =>
      have hle := hleast q (List.mem_append_left _ hq) (by rw [hg]; exact Option.some_ne_none z)
      exact absurd hlt (String.not_lt.2 hle)

/-! ### Faults that count -/

/-- A property that a run comes to when it declares the schema has a faulty descriptor. -/
structure Catalog.FaultAt (c : Catalog) (skipped : List String) (s : Schema) (name : String)
    (fault : DescriptorFault) : Prop where
  /-- The schema has an id, which is not skipped. -/
  declared : ∃ id, s.id? = some id ∧ id ∉ skipped
  /-- A subtype declares no properties. -/
  not_isSubtype : s.isSubtype = false
  /-- The property is not deprecated. -/
  not_deprecated : isDeprecated name = false
  /-- No base has it, unless it is the custom attributes. -/
  own : name = Schema.customAttributes ∨ ∀ b ∈ c.baseChain s, b.has name = false
  /-- Its descriptor has the fault. -/
  faulty : ∃ j, (name, j) ∈ s.properties.entries ∧ Descriptor.ofJson j = .error fault

/-- A schema has a fault that counts. -/
def Catalog.HasFault (c : Catalog) (skipped : List String) (s : Schema) : Prop :=
  ∃ name fault, c.FaultAt skipped s name fault

section Schema

variable {c : Catalog} {skipped : List String} {s : Schema} {name : String}

/-- The faults that count are those of the candidates. -/
theorem faultAt_iff {fault : DescriptorFault} :
    c.FaultAt skipped s name fault ↔
      Generation.isDeclared skipped s = true ∧ s.isSubtype = false ∧
        ∃ j, (name, j) ∈ c.candidates s ∧ Descriptor.ofJson j = .error fault := by
  have hdeclared : Generation.isDeclared skipped s = true ↔
      ∃ id, s.id? = some id ∧ id ∉ skipped := by
    simp [Generation.isDeclared, Option.any_eq_true]
  rw [hdeclared]
  constructor
  · rintro ⟨hid, hs, hdep, hown, j, hj, hfault⟩
    have hdeclares : c.declares s name = true :=
      (Catalog.declares_iff hs).2 ⟨hdep, hown.imp_right Catalog.not_mem_chainNames_iff.2⟩
    exact ⟨hid, hs, j, Catalog.mem_candidates.2 ⟨hj, hdeclares⟩, hfault⟩
  · rintro ⟨hid, hs, j, hj, hfault⟩
    obtain ⟨hj, hdeclares⟩ := Catalog.mem_candidates.1 hj
    obtain ⟨hdep, hown⟩ := (Catalog.declares_iff hs).1 hdeclares
    exact ⟨hid, hs, hdep, hown.imp_right Catalog.not_mem_chainNames_iff.1, j, hj, hfault⟩

/-- What a schema fails with is the fault of its candidates that comes first. -/
theorem failure?_eq_some_iff_findSome? {f : Failure} :
    Generation.failure? c skipped s = some f ↔
      Generation.isDeclared skipped s = true ∧ s.isSubtype = false ∧
        (c.candidates s).findSome? s.fault? = some f := by
  rw [Generation.failure?_eq_some_iff]
  refine and_congr_right fun _ => ?_
  cases hs : s.isSubtype with
  | true => simp [Catalog.declaration_of_isSubtype hs]
  | false =>
    rw [Catalog.declaration_of_not_isSubtype hs]
    cases (c.candidates s).findSome? s.fault? <;> simp

/-- **A schema fails with the fault that has the least name.** -/
theorem failure?_eq_some_iff_least {f : Failure} :
    Generation.failure? c skipped s = some f ↔
      ∃ name fault, c.FaultAt skipped s name fault ∧
        (∀ n e, c.FaultAt skipped s n e → name ≤ n) ∧ f = .property s.displayId name fault := by
  rw [failure?_eq_some_iff_findSome?,
    findSome?_eq_some_iff_least (Catalog.candidates_sorted c s)]
  constructor
  · rintro ⟨hdecl, hs, ⟨name, j⟩, hj, hf, hleast⟩
    obtain ⟨fault, hfault, rfl⟩ := Schema.fault?_eq_some_iff.1 hf
    refine ⟨name, fault, faultAt_iff.2 ⟨hdecl, hs, j, hj, hfault⟩, fun n e hne => ?_, rfl⟩
    obtain ⟨-, -, i, hi, he⟩ := faultAt_iff.1 hne
    refine hleast (n, i) hi ?_
    rw [Schema.fault?_eq_some_iff.2 ⟨e, he, rfl⟩]
    exact Option.some_ne_none _
  · rintro ⟨name, fault, hat, hleast, rfl⟩
    obtain ⟨hdecl, hs, j, hj, hfault⟩ := faultAt_iff.1 hat
    refine ⟨hdecl, hs, (name, j), hj, Schema.fault?_eq_some_iff.2 ⟨fault, hfault, rfl⟩, ?_⟩
    intro q hq hne
    obtain ⟨f, hf⟩ := Option.ne_none_iff_exists'.1 hne
    obtain ⟨e, he, -⟩ := Schema.fault?_eq_some_iff.1 hf
    exact hleast q.1 e (faultAt_iff.2 ⟨hdecl, hs, q.2, hq, he⟩)

/-- A schema fails exactly if it has a fault that counts. -/
theorem failure?_isSome_iff_hasFault :
    (Generation.failure? c skipped s).isSome = true ↔ c.HasFault skipped s := by
  constructor
  · intro h
    obtain ⟨f, hf⟩ := Option.isSome_iff_exists.1 h
    obtain ⟨name, fault, hat, -, -⟩ := failure?_eq_some_iff_least.1 hf
    exact ⟨name, fault, hat⟩
  · rintro ⟨name, fault, hat⟩
    obtain ⟨hdecl, hs, j, hj, hfault⟩ := faultAt_iff.1 hat
    have hsome : (s.fault? (name, j)).isSome = true :=
      Option.isSome_of_eq_some (Schema.fault?_eq_some_iff.2 ⟨fault, hfault, rfl⟩)
    obtain ⟨f, hf⟩ := Option.isSome_iff_exists.1 (List.findSome?_isSome_iff.2 ⟨_, hj, hsome⟩)
    exact Option.isSome_of_eq_some (failure?_eq_some_iff_findSome?.2 ⟨hdecl, hs, hf⟩)

theorem failure?_eq_none_iff_not_hasFault :
    Generation.failure? c skipped s = none ↔ ¬ c.HasFault skipped s := by
  rw [← failure?_isSome_iff_hasFault, Option.not_isSome_iff_eq_none]

end Schema

/-! ### The run -/

/-- **When a run fails, and with what.** A run fails exactly if a schema of the catalog has
a fault that counts, whatever the custom attributes are. It fails with that of the first
such schema, and within the schema with that of the least name; the failure has the id of
the schema, the name and the fault, and violates the contract of the catalog. -/
theorem generate_eq_error_iff_first (options : Generation.Options) (schemas : List Schema)
    (configurations : List AttributeConfiguration) :
    ((∃ f, generate options schemas configurations = .error f) ↔
      ∃ s ∈ schemas, Catalog.HasFault ⟨schemas⟩ options.skipped s) ∧
    ∀ f, generate options schemas configurations = .error f ↔
      ∃ before s after id name fault, schemas = before ++ s :: after ∧
        (∀ t ∈ before, ¬ Catalog.HasFault ⟨schemas⟩ options.skipped t) ∧
        Catalog.FaultAt ⟨schemas⟩ options.skipped s name fault ∧
        (∀ n e, Catalog.FaultAt ⟨schemas⟩ options.skipped s n e → name ≤ n) ∧
        s.id? = some id ∧ f = .property id name fault ∧ f.isContractViolation = true := by
  simp only [Generation.generate_eq_error_iff]
  constructor
  · rw [← Option.isSome_iff_exists, List.findSome?_isSome_iff]
    exact exists_congr fun s => and_congr_right fun _ => failure?_isSome_iff_hasFault
  · intro f
    rw [List.findSome?_eq_some_iff]
    constructor
    · rintro ⟨before, s, after, hsplit, hf, hbefore⟩
      obtain ⟨name, fault, hat, hleast, rfl⟩ := failure?_eq_some_iff_least.1 hf
      obtain ⟨id, hid, -⟩ := hat.declared
      refine ⟨before, s, after, id, name, fault, hsplit, ?_, hat, hleast, hid, ?_, rfl⟩
      · exact fun t ht => failure?_eq_none_iff_not_hasFault.1 (hbefore t ht)
      · rw [(Schema.id?_eq_some_iff.1 hid).1]
    · rintro ⟨before, s, after, id, name, fault, hsplit, hbefore, hat, hleast, hid, rfl, -⟩
      refine ⟨before, s, after, hsplit,
        failure?_eq_some_iff_least.2 ⟨name, fault, hat, hleast, ?_⟩, ?_⟩
      · rw [(Schema.id?_eq_some_iff.1 hid).1]
      · exact fun t ht => failure?_eq_none_iff_not_hasFault.2 (hbefore t ht)

end EntityTypings
