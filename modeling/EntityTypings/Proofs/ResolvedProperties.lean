import EntityTypings.Proofs.Reports

/-!
# What resolving comes to

Resolving is a loop over filtered properties that types each, reports some and stops at a fault.
Here its outcome is said by conditions on the schema and its catalog alone. `IsCompared` says which
names a schema is compared with: those of the root for a subtype, where there is a root, and
otherwise those of its bases. `IsCandidate` says which properties are gone through, `LeftOut` which
of them are reported, and `DeclaredAs` what a member that is declared looks like.

The main statement, `resolve_exactly`, is that a schema all of whose candidates can be read gives
these members and these reports, both in strictly increasing order of name, and that otherwise it
fails with the fault of the least faulty candidate, the reports before it being kept. It holds of
every schema, of subtypes too, whose properties a run does not declare.
-/

namespace EntityTypings

/-- In a list sorted by name, what stands before an entry has the lesser names. -/
theorem mem_before_iff_lt {α : Type} {before after : List (String × α)} {p q : String × α}
    (h : (before ++ p :: after).Pairwise (fun a b => a.1 < b.1)) (hq : q ∈ before ++ p :: after) :
    q ∈ before ↔ q.1 < p.1 := by
  obtain ⟨-, hafter, hbefore⟩ := List.pairwise_append.1 h
  constructor
  · intro hmem
    exact hbefore q hmem p List.mem_cons_self
  · intro hlt
    rcases List.mem_append.1 hq with hmem | hmem
    · exact hmem
    · rcases List.mem_cons.1 hmem with rfl | hmem
      · exact absurd hlt (String.lt_irrefl _)
      · have hgt := (List.pairwise_cons.1 hafter).1 q hmem
        exact absurd (String.lt_trans hlt hgt) (String.lt_irrefl _)

namespace Catalog

variable {c : Catalog} {s : Schema}

/-! ### Candidates -/

/-- The schema is compared with others that have a property of this name. -/
def IsCompared (c : Catalog) (s : Schema) (name : String) : Prop :=
  match s.isSubtype, c.root? with
  | true, some root => root.has name = true
  | _, _ => ∃ b ∈ c.baseChain s, b.has name = true

theorem mem_inheritedNames_iff {name : String} :
    name ∈ c.inheritedNames s ↔ c.IsCompared s name := by
  unfold inheritedNames IsCompared
  cases s.isSubtype with
  | false => exact mem_chainNames
  | true =>
    cases c.root? with
    | none => exact mem_chainNames
    | some root => exact NameMap.contains_iff.symm

/-- A property that the schema is to declare itself. -/
structure IsCandidate (c : Catalog) (s : Schema) (name : String) (j : Json) : Prop where
  /-- The schema has the property, with this descriptor. -/
  own : (name, j) ∈ s.properties.entries
  /-- The property is not deprecated. -/
  not_deprecated : isDeprecated name = false
  /-- It is the custom attributes, or nothing that the schema is compared with has it. -/
  new : name = Schema.customAttributes ∨ ¬c.IsCompared s name

theorem mem_candidates_iff {name : String} {j : Json} :
    (name, j) ∈ c.candidates s ↔ c.IsCandidate s name j := by
  have hdeclares : c.declares s name = true ↔
      isDeprecated name = false ∧ (name = Schema.customAttributes ∨ ¬c.IsCompared s name) := by
    rw [← mem_inheritedNames_iff]
    simp [declares]
  rw [mem_candidates, hdeclares]
  constructor
  · rintro ⟨hown, hdep, hnew⟩
    exact ⟨hown, hdep, hnew⟩
  · rintro ⟨hown, hdep, hnew⟩
    exact ⟨hown, hdep, hnew⟩

/-! ### Members -/

/-- What a member looks like that is declared for a property of the schema. -/
structure DeclaredAs (c : Catalog) (s : Schema) (m : Member) : Prop where
  /-- The property is a candidate that can be read. Its type is that of its descriptor, which
  therefore is typed; that of the custom attributes does not depend on their descriptor. -/
  type : ∃ j d, c.IsCandidate s m.name j ∧ Descriptor.ofJson j = .ok d ∧
    if m.name = Schema.customAttributes then m.type = s.attributesType
    else d.propertyType? m.name = some m.type
  /-- It may not be assigned to if it is immutable or computed. -/
  isReadonly : m.isReadonly = true ↔ m.name ∈ s.immutable ∨ m.name ∈ s.computed
  /-- It may be missing unless it is required or identifies an entity. -/
  isOptional : m.isOptional = true ↔ m.name ∉ s.required ∧ m.name ∉ s.primaryKey

/-- The members that are declared are those of the candidates that have one. -/
theorem mem_filterMap_member?_iff {m : Member} :
    m ∈ (c.candidates s).filterMap s.member? ↔ c.DeclaredAs s m := by
  have htype {t : TypeExpr} {name : String} {d : Descriptor} :
      s.memberType? name d = some t ↔
        if name = Schema.customAttributes then t = s.attributesType
        else d.propertyType? name = some t := by
    unfold Schema.memberType?
    split
    · exact ⟨fun h => (Option.some.inj h).symm, fun h => by rw [h]⟩
    · exact Iff.rfl
  rw [List.mem_filterMap]
  constructor
  · rintro ⟨⟨name, j⟩, hmem, hm⟩
    unfold Schema.member? at hm
    split at hm
    · rename_i d hd
      obtain ⟨t, ht, rfl⟩ := Option.map_eq_some_iff.1 hm
      refine ⟨⟨j, d, mem_candidates_iff.1 hmem, hd, htype.1 ht⟩, ?_, ?_⟩
      · simp [Schema.member, Schema.isImmutable]
      · simp [Schema.member, Schema.isRequired]
    · cases hm
  · rintro ⟨⟨j, d, hcandidate, hd, ht⟩, hreadonly, hoptional⟩
    refine ⟨(m.name, j), mem_candidates_iff.2 hcandidate, ?_⟩
    have hr : s.isImmutable m.name = m.isReadonly := by
      rw [Bool.eq_iff_iff, hreadonly]
      simp [Schema.isImmutable]
    have ho : (!s.isRequired m.name) = m.isOptional := by
      rw [Bool.eq_iff_iff, hoptional]
      simp [Schema.isRequired]
    simp only [Schema.member?, hd, htype.2 ht, Option.map_some, Schema.member, hr, ho]

/-- A candidate that can be read has a member unless it is untyped. -/
theorem mem_names_members_iff {name : String} :
    name ∈ ((c.candidates s).filterMap s.member?).map Member.name ↔
      ∃ j d, c.IsCandidate s name j ∧ Descriptor.ofJson j = .ok d ∧
        (name = Schema.customAttributes ∨ d ≠ .untyped) := by
  rw [mem_names_filterMap_member?_iff]
  simp only [← mem_candidates_iff, mem_candidates, and_assoc]

/-! ### Reports -/

/-- A candidate that is left out, because its descriptor gives it no type. -/
structure LeftOut (c : Catalog) (s : Schema) (name : String) : Prop where
  /-- It is not the custom attributes. -/
  not_customAttributes : name ≠ Schema.customAttributes
  /-- Its descriptor is untyped. -/
  untyped : ∃ j, c.IsCandidate s name j ∧ Descriptor.ofJson j = .ok .untyped

theorem exists_mem_isUntyped_iff {name : String} :
    (∃ p ∈ c.candidates s, Schema.isUntyped p = true ∧ p.1 = name) ↔ c.LeftOut s name := by
  simp only [Schema.isUntyped_iff]
  constructor
  · rintro ⟨p, hp, ⟨hca, huntyped⟩, rfl⟩
    exact ⟨hca, p.2, mem_candidates_iff.1 hp, huntyped⟩
  · rintro ⟨hca, j, hcandidate, huntyped⟩
    exact ⟨(name, j), mem_candidates_iff.2 hcandidate, ⟨hca, huntyped⟩, rfl⟩

theorem mem_untypedNames_iff {name : String} : name ∈ c.untypedNames s ↔ c.LeftOut s name := by
  rw [untypedNames, ← exists_mem_isUntyped_iff]
  simp only [List.mem_map, List.mem_filter, and_assoc]

/-! ### The outcome -/

/-- All candidates of the schema can be read. -/
def AllRead (c : Catalog) (s : Schema) : Prop :=
  ∀ name j, c.IsCandidate s name j → ∃ d, Descriptor.ofJson j = .ok d

theorem allRead_iff : c.AllRead s ↔ (c.candidates s).findSome? s.fault? = none := by
  rw [List.findSome?_eq_none_iff]
  constructor
  · rintro h ⟨name, j⟩ hp
    exact Schema.fault?_eq_none_iff.2 (h name j (mem_candidates_iff.1 hp))
  · intro h name j hcandidate
    exact Schema.fault?_eq_none_iff.1 (h (name, j) (mem_candidates_iff.2 hcandidate))

/-- Where all candidates can be read, the members and the reports are those of all of them. -/
theorem resolve_of_allRead (h : c.AllRead s) :
    (c.resolve s).members = .ok ((c.candidates s).filterMap s.member?) ∧
      (c.resolve s).diagnostics = (c.untypedNames s).map (.untypedProperty s.displayId) := by
  have hread : ∀ p ∈ c.candidates s, ∃ d, Descriptor.ofJson p.2 = .ok d := by
    rintro ⟨name, j⟩ hp
    exact h name j (mem_candidates_iff.1 hp)
  refine ⟨?_, diagnostics_of_read hread⟩
  rw [resolve, Schema.members_resolveAll, allRead_iff.1 h]

/-- Where some candidate is faulty, the least of them ends the resolving, and what is reported are
the lesser ones that are left out. -/
theorem resolve_of_not_allRead (h : ¬c.AllRead s) :
    ∃ name j fault, c.IsCandidate s name j ∧ Descriptor.ofJson j = .error fault ∧
      (∀ n i, c.IsCandidate s n i → n < name → ∃ d, Descriptor.ofJson i = .ok d) ∧
      (c.resolve s).members = .error (.property s.displayId name fault) ∧
      ∃ untyped : List String, untyped.Pairwise (· < ·) ∧
        (∀ n, n ∈ untyped ↔ c.LeftOut s n ∧ n < name) ∧
        (c.resolve s).diagnostics = untyped.map (.untypedProperty s.displayId) := by
  cases hfirst : (c.candidates s).findSome? s.fault? with
  | none => exact absurd (allRead_iff.2 hfirst) h
  | some f =>
    obtain ⟨before, ⟨name, j⟩, after, hsplit, hf, hbefore⟩ := List.findSome?_eq_some_iff.1 hfirst
    obtain ⟨fault, hfault, rfl⟩ := Schema.fault?_eq_some_iff.1 hf
    have hsorted := candidates_sorted c s
    rw [hsplit] at hsorted
    -- the candidates before the faulty one are those of lesser names
    have hmem {n : String} {i : Json} :
        (n, i) ∈ before ↔ c.IsCandidate s n i ∧ n < name := by
      rw [← mem_candidates_iff, hsplit]
      constructor
      · intro hi
        have hi' : (n, i) ∈ before ++ (name, j) :: after := List.mem_append_left _ hi
        exact ⟨hi', (mem_before_iff_lt hsorted hi').1 hi⟩
      · rintro ⟨hi, hlt⟩
        exact (mem_before_iff_lt hsorted hi).2 hlt
    have htake : (c.candidates s).takeWhile (fun p => (s.fault? p).isNone) = before := by
      rw [hsplit, List.takeWhile_append_of_pos fun p hp => by rw [hbefore p hp]; rfl,
        List.takeWhile_cons_of_neg (by simp [hf]), List.append_nil]
    refine ⟨name, j, fault, mem_candidates_iff.1 (by simp [hsplit]), hfault, ?_, ?_,
      (before.filter Schema.isUntyped).map Prod.fst, ?_, ?_, ?_⟩
    · intro n i hcandidate hlt
      exact Schema.fault?_eq_none_iff.1 (hbefore (n, i) (hmem.2 ⟨hcandidate, hlt⟩))
    · rw [resolve, Schema.members_resolveAll, hfirst]
    · exact List.pairwise_map.2 ((List.pairwise_append.1 hsorted).1.filter _)
    · intro n
      simp only [List.mem_map, List.mem_filter, Schema.isUntyped_iff]
      constructor
      · rintro ⟨⟨n, i⟩, ⟨hi, hca, huntyped⟩, rfl⟩
        obtain ⟨hcandidate, hlt⟩ := hmem.1 hi
        exact ⟨⟨hca, i, hcandidate, huntyped⟩, hlt⟩
      · rintro ⟨⟨hca, i, hcandidate, huntyped⟩, hlt⟩
        exact ⟨(n, i), ⟨hmem.2 ⟨hcandidate, hlt⟩, hca, huntyped⟩, rfl⟩
    · rw [resolve, Schema.diagnostics_resolveAll, htake, List.map_map]
      rfl

end Catalog

/-- **What resolving comes to.** If all candidates of a schema can be read, the members are those
that the candidates are declared as, one for each that is the custom attributes or typed, and the
candidates that are left out are reported after what was reported before; both are in strictly
increasing order of name. Otherwise resolving fails with the fault of the least faulty candidate,
for the schema and the name, and reports the lesser candidates that are left out. -/
theorem Catalog.resolve_exactly (c : Catalog) (s : Schema) (start : Diagnostics) :
    (c.AllRead s → ∃ (members : List Member) (untyped : List String),
      (c.resolve s).members = .ok members ∧ (members.map Member.name).Pairwise (· < ·) ∧
      (∀ name, name ∈ members.map Member.name ↔ ∃ j d, c.IsCandidate s name j ∧
        Descriptor.ofJson j = .ok d ∧ (name = Schema.customAttributes ∨ d ≠ .untyped)) ∧
      (∀ m, m ∈ members ↔ c.DeclaredAs s m) ∧
      untyped.Pairwise (· < ·) ∧ (∀ name, name ∈ untyped ↔ c.LeftOut s name) ∧
      (start.append (c.resolve s).diagnostics).items =
        start.items ++ untyped.map (.untypedProperty s.displayId)) ∧
    (¬c.AllRead s → ∃ name j fault, ∃ untyped : List String, c.IsCandidate s name j ∧
      Descriptor.ofJson j = .error fault ∧
      (∀ n i, c.IsCandidate s n i → n < name → ∃ d, Descriptor.ofJson i = .ok d) ∧
      (c.resolve s).members = .error (.property s.displayId name fault) ∧
      untyped.Pairwise (· < ·) ∧ (∀ n, n ∈ untyped ↔ c.LeftOut s n ∧ n < name) ∧
      (start.append (c.resolve s).diagnostics).items =
        start.items ++ untyped.map (.untypedProperty s.displayId)) := by
  constructor
  · intro hread
    obtain ⟨hmembers, hdiagnostics⟩ := resolve_of_allRead hread
    refine ⟨_, _, hmembers, names_filterMap_member?_sorted c s, fun name => mem_names_members_iff,
      fun m => mem_filterMap_member?_iff, untypedNames_sorted c s, fun name => mem_untypedNames_iff,
      ?_⟩
    rw [Diagnostics.items_append, hdiagnostics]
  · intro hread
    obtain ⟨name, j, fault, hcandidate, hfault, hleast, hmembers, untyped, hsorted, hmem,
      hdiagnostics⟩ := resolve_of_not_allRead hread
    refine ⟨name, j, fault, untyped, hcandidate, hfault, hleast, hmembers, hsorted, hmem, ?_⟩
    rw [Diagnostics.items_append, hdiagnostics]

namespace Catalog

/-- A root that has a name. -/
def namedRoot : Catalog := ⟨[.plain "TypedContext" none [("name", textDescriptor)]]⟩

/-- A subtype with the name of its root, a deprecated property, a computed one, custom attributes
that have to be there, and an untyped property. -/
def framedShot : Schema :=
  { Schema.plain "Shot" none
      [("name", textDescriptor), ("_old", .null), ("notes", .object []),
        ("frames", .object [("type", .string "integer")]), ("custom_attributes", .object [])] with
    aliasOf := some (.record Schema.subtypeMarker)
    computed := ["frames"]
    required := ["custom_attributes"] }

/-- A subtype with two faulty properties and an untyped one before them. -/
def brokenShot : Schema :=
  { Schema.plain "Shot" none
      [("name", .null), ("b", .string "text"), ("c", .null), ("a", .object [])] with
    aliasOf := some (.record Schema.subtypeMarker) }

/-- The name is suppressed, the untyped property is left out, and the computed one may neither be
assigned to nor has to be there. Of the faults the first in order of name counts. -/
theorem resolve_framedShot_and_brokenShot :
    (namedRoot.AllRead framedShot ∧
      namedRoot.DeclaredAs framedShot ⟨"frames", .number, true, true⟩ ∧
      (∃ m, namedRoot.DeclaredAs framedShot m ∧ m.name = "custom_attributes") ∧
      (namedRoot.resolve framedShot).members.map (·.map Member.name) =
        .ok ["custom_attributes", "frames"] ∧
      (Diagnostics.append ⟨[.noSchemas]⟩ (namedRoot.resolve framedShot).diagnostics).items =
        [.noSchemas, .untypedProperty "Shot" "notes"]) ∧
    ¬namedRoot.AllRead brokenShot ∧
      (∃ j, namedRoot.IsCandidate brokenShot "b" j ∧ Descriptor.ofJson j = .error .malformed ∧
        ∀ n i, namedRoot.IsCandidate brokenShot n i → n < "b" →
          ∃ d, Descriptor.ofJson i = .ok d) ∧
      (namedRoot.resolve brokenShot).members = .error (.property "Shot" "b" .malformed) ∧
      (Diagnostics.append ⟨[.noSchemas]⟩ (namedRoot.resolve brokenShot).diagnostics).items =
        [.noSchemas, .untypedProperty "Shot" "a"] := by
  have hread : namedRoot.AllRead framedShot := allRead_iff.2 (by decide +kernel)
  have hfaulty : ¬namedRoot.AllRead brokenShot := by
    rw [allRead_iff]
    decide +kernel
  constructor
  · obtain ⟨members, -, hmembers, -, hnames, hdeclared, -⟩ :=
      (resolve_exactly namedRoot framedShot ⟨[.noSchemas]⟩).1 hread
    have hlist : (namedRoot.resolve framedShot).members =
        .ok [⟨"custom_attributes", framedShot.attributesType, false, false⟩,
          ⟨"frames", .number, true, true⟩] := by decide +kernel
    obtain rfl := Except.ok.inj (hmembers.symm.trans hlist)
    refine ⟨hread, (hdeclared _).1 (.tail _ (.head _)), ⟨_, (hdeclared _).1 (.head _), rfl⟩, ?_, ?_⟩
    · rw [hlist]
      rfl
    · decide +kernel
  · obtain ⟨name, j, fault, -, hcandidate, hfault, hleast, hmembers, -⟩ :=
      (resolve_exactly namedRoot brokenShot ⟨[.noSchemas]⟩).2 hfaulty
    have herror : (namedRoot.resolve brokenShot).members =
        .error (.property "Shot" "b" .malformed) := by decide +kernel
    cases hmembers.symm.trans herror
    exact ⟨hfaulty, ⟨j, hcandidate, hfault, hleast⟩, herror, by decide +kernel⟩

end Catalog

end EntityTypings
