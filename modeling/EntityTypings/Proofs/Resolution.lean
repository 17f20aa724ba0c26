import EntityTypings.Artifact

/-!
# What resolving gives

`Schema.resolveAll` goes through properties and stops at the first faulty
descriptor. Here its outcome is said without the recursion: the failure is that
of the first property that has one (`fault?`), and if none has, the members are
those of the properties that have a type (`members_resolveAll`).

From this follows what an interface declares (`mem_memberNames_iff`): the two
names that the generator adds, and of the schema's own properties those that are
neither deprecated nor inherited and have a type, or are the custom attributes.
-/

namespace EntityTypings

/-! ### Descriptors that were read -/

namespace Descriptor

theorem asItems_eq_ok_iff {r : Except DescriptorFault Descriptor} {d : Descriptor} :
    asItems r = .ok d ↔ r = .ok d ∧ d ≠ .untyped := by
  rcases r with e | i
  · simp [asItems]
  · cases i <;> simp [asItems] <;> rintro rfl <;> simp

/-- The items of a sequence that was read come from a smaller value and are not untyped. -/
theorem itemsOf_eq_ok {fields : List (String × Json)} {d : Descriptor}
    (h : itemsOf fields = .ok d) :
    ∃ j, ("items", j) ∈ fields ∧ ofJson j = .ok d ∧ d ≠ .untyped := by
  induction fields with
  | nil => simp [itemsOf] at h
  | cons f rest ih =>
    obtain ⟨name, j⟩ := f
    unfold itemsOf at h
    split at h
    · rename_i hname
      split at h
      · simp at h
      · exact ⟨j, by simp [hname], asItems_eq_ok_iff.1 h⟩
    · obtain ⟨j', hj', hd⟩ := ih h
      exact ⟨j', List.mem_cons_of_mem _ hj', hd⟩

/-- A descriptor that was read has a type unless it is untyped as a whole. -/
theorem typeExpr?_isSome_of_ofJson {j : Json} {d : Descriptor} (h : ofJson j = .ok d)
    (hd : d ≠ .untyped) : d.typeExpr?.isSome = true := by
  match j, h with
  | .object fields, h =>
    unfold ofJson at h
    split at h
    · simp at h
    · cases h; rfl
    · split at h
      · simp at h
      · cases h; exact absurd rfl hd
      · split at h
        · simp at h
        · cases h; rfl
        · cases hi : itemsOf fields with
          | error e => simp [hi, Except.map] at h
          | ok i =>
            simp only [hi, Except.map, Except.ok.injEq] at h
            obtain ⟨j', hj', hr, hne⟩ := itemsOf_eq_ok hi
            have hlt := List.sizeOf_lt_of_mem hj'
            have := typeExpr?_isSome_of_ofJson hr hne
            simpa [← h, typeExpr?] using this
  | .null, h | .bool _, h | .integer _, h | .real _, h | .string _, h | .list _, h =>
    simp [ofJson] at h
termination_by sizeOf j
decreasing_by
  simp at hlt ⊢
  omega

end Descriptor

/-! ### Going through properties -/

namespace Schema

/-- The schema describes a property of this name, and with a type. -/
def Types (s : Schema) (name : String) : Prop :=
  ∃ j d, (name, j) ∈ s.properties.entries ∧ Descriptor.ofJson j = .ok d ∧ d ≠ .untyped

/-- Whether a value is a descriptor with a type. -/
def isTyped (j : Json) : Bool :=
  match Descriptor.ofJson j with
  | .ok d => d ≠ .untyped
  | .error _ => false

theorem types_iff_any {s : Schema} {name : String} :
    s.Types name ↔ s.properties.entries.any (fun p => p.1 = name && isTyped p.2) = true := by
  have htyped (j : Json) : isTyped j = true ↔ ∃ d, Descriptor.ofJson j = .ok d ∧ d ≠ .untyped := by
    unfold isTyped
    split <;> simp [*]
  simp only [Types, List.any_eq_true, Bool.and_eq_true, decide_eq_true_eq, htyped]
  constructor
  · rintro ⟨j, d, hp, hd⟩
    exact ⟨(name, j), hp, rfl, d, hd⟩
  · rintro ⟨p, hp, rfl, d, hd⟩
    exact ⟨p.2, d, hp, hd⟩

instance (s : Schema) (name : String) : Decidable (s.Types name) :=
  decidable_of_iff _ types_iff_any.symm

theorem has_iff {s : Schema} {name : String} :
    s.has name = true ↔ ∃ j, (name, j) ∈ s.properties.entries := by
  simp [has, NameMap.names]

theorem Types.has {s : Schema} {name : String} (h : s.Types name) : s.has name = true := by
  obtain ⟨j, -, hj, -⟩ := h
  exact has_iff.2 ⟨j, hj⟩

/-- The member for a property, if its descriptor can be read and has a type. -/
def member? (s : Schema) (p : String × Json) : Option Member :=
  match Descriptor.ofJson p.2 with
  | .ok d => (s.memberType? p.1 d).map (s.member p.1)
  | .error _ => none

/-- Only an untyped descriptor gives no type, and not even that for the custom attributes. -/
theorem memberType?_isSome_iff {s : Schema} {name : String} {j : Json} {d : Descriptor}
    (h : Descriptor.ofJson j = .ok d) :
    (s.memberType? name d).isSome = true ↔ name = customAttributes ∨ d ≠ .untyped := by
  unfold memberType?
  by_cases hn : name = customAttributes
  · simp [hn]
  · simp only [hn, if_false, false_or, Descriptor.propertyType?_isSome]
    constructor
    · rintro ht rfl
      simp [Descriptor.typeExpr?] at ht
    · exact Descriptor.typeExpr?_isSome_of_ofJson h

theorem member?_name {s : Schema} {p : String × Json} {m : Member} (h : s.member? p = some m) :
    m.name = p.1 := by
  unfold member? at h
  split at h
  · obtain ⟨t, -, rfl⟩ := Option.map_eq_some_iff.1 h
    rfl
  · simp at h

theorem member?_isSome_iff {s : Schema} {p : String × Json} :
    (s.member? p).isSome = true ↔
      ∃ d, Descriptor.ofJson p.2 = .ok d ∧ (p.1 = customAttributes ∨ d ≠ .untyped) := by
  unfold member?
  split
  · rename_i d hd
    rw [Option.isSome_map, memberType?_isSome_iff hd]
    exact ⟨fun h => ⟨d, hd, h⟩, fun ⟨d', hd', h⟩ => by rw [hd] at hd'; cases hd'; exact h⟩
  · rename_i e he
    simp [he]

/-- What a faulty descriptor ends the run with. -/
def fault? (s : Schema) (p : String × Json) : Option Failure :=
  match Descriptor.ofJson p.2 with
  | .ok _ => none
  | .error fault => some (.property s.displayId p.1 fault)

theorem fault?_eq_none_iff {s : Schema} {p : String × Json} :
    s.fault? p = none ↔ ∃ d, Descriptor.ofJson p.2 = .ok d := by
  unfold fault?
  split <;> simp [*]

theorem fault?_eq_some_iff {s : Schema} {p : String × Json} {f : Failure} :
    s.fault? p = some f ↔
      ∃ fault, Descriptor.ofJson p.2 = .error fault ∧ f = .property s.displayId p.1 fault := by
  unfold fault?
  split <;> simp [*, eq_comm]

/-- A faulty descriptor ends the run at once. -/
theorem resolveAll_cons_of_fault {s : Schema} {p : String × Json} {rest : List (String × Json)}
    {f : Failure} (h : s.fault? p = some f) : s.resolveAll (p :: rest) = ⟨[], .error f⟩ := by
  obtain ⟨fault, hp, rfl⟩ := fault?_eq_some_iff.1 h
  simp [resolveAll, hp]

/-- A property that can be read adds its member, if it has one. -/
theorem members_resolveAll_cons {s : Schema} {p : String × Json} {rest : List (String × Json)}
    (h : s.fault? p = none) :
    (s.resolveAll (p :: rest)).members =
      (s.resolveAll rest).members.map ((s.member? p).toList ++ ·) := by
  obtain ⟨d, hd⟩ := fault?_eq_none_iff.1 h
  simp only [resolveAll, hd, member?]
  cases s.memberType? p.1 d with
  | none => cases (s.resolveAll rest).members <;> rfl
  | some t => rfl

/-- **What resolving gives**: the failure of the first property that has one, and
otherwise the members of all that have one. -/
theorem members_resolveAll (s : Schema) (props : List (String × Json)) :
    (s.resolveAll props).members =
      match props.findSome? s.fault? with
      | some f => .error f
      | none => .ok (props.filterMap s.member?) := by
  induction props with
  | nil => rfl
  | cons p rest ih =>
    cases hp : s.fault? p with
    | some f => rw [resolveAll_cons_of_fault hp, List.findSome?_cons_of_isSome (by simp [hp]), hp]
    | none =>
      rw [members_resolveAll_cons hp, ih, List.findSome?_cons_of_isNone (by simp [hp])]
      cases rest.findSome? s.fault? with
      | some f => rfl
      | none => cases hm : s.member? p <;> simp [Except.map, hm]

end Schema

/-! ### The body of an interface -/

/-- The names of the members in the body. -/
def Declaration.memberNames (d : Declaration) : List String := d.members.map Member.name

namespace Catalog

theorem mem_chainNames {c : Catalog} {s : Schema} {name : String} :
    name ∈ c.chainNames s ↔ ∃ b ∈ c.baseChain s, b.has name = true := by
  simp [chainNames, Schema.has]

theorem not_mem_chainNames_iff {c : Catalog} {s : Schema} {name : String} :
    name ∉ c.chainNames s ↔ ∀ b ∈ c.baseChain s, b.has name = false := by
  simp [mem_chainNames]

/-- The names that the interface of a schema leaves out of what it takes over. -/
def omittedNames (c : Catalog) (s : Schema) : List String :=
  [Schema.entityType, Schema.permissions]
    ++ if Schema.customAttributes ∈ c.chainNames s then [Schema.customAttributes] else []

theorem mem_omittedNames {c : Catalog} {s : Schema} {name : String} :
    name ∈ c.omittedNames s ↔ name = Schema.entityType ∨ name = Schema.permissions ∨
      name = Schema.customAttributes ∧ name ∈ c.chainNames s := by
  unfold omittedNames
  split
  · rename_i h
    simp only [List.mem_append, List.mem_cons, List.not_mem_nil, or_false, or_assoc]
    exact or_congr_right (or_congr_right ⟨fun e => ⟨e, e ▸ h⟩, And.left⟩)
  · rename_i h
    simp only [List.append_nil, List.mem_cons, List.not_mem_nil, or_false]
    exact or_congr_right ⟨.inl, fun e => e.resolve_right fun ⟨e, hm⟩ => h (e ▸ hm)⟩

/-- A base has an id, because it was found under one. -/
theorem id?_of_base? {c : Catalog} {s b : Schema} (h : c.base? s = some b) :
    b.id? = some b.displayId := by
  obtain ⟨i, -, hi⟩ := base?_eq_some_iff.1 h
  have := id?_of_find? hi
  rw [this, (Schema.id?_eq_some_iff.1 this).1]

/-- A base is what its own id finds. -/
theorem find?_displayId_of_base? {c : Catalog} {s b : Schema} (h : c.base? s = some b) :
    c.find? b.displayId = some b := by
  obtain ⟨i, -, hi⟩ := base?_eq_some_iff.1 h
  rw [(Schema.id?_eq_some_iff.1 (id?_of_find? hi)).1, hi]

/-- An interface extends the base of its schema, if there is one. -/
theorem heritage?_eq (c : Catalog) (s : Schema) :
    c.heritage? s = (c.base? s).map (fun b => ⟨b.displayId, c.omittedNames s⟩) := by
  unfold heritage?
  cases h : c.base? s with
  | none => rfl
  | some b =>
    simp only [Option.bind_eq_bind, Option.bind_some, id?_of_base? h, Option.map_some, omittedNames,
      Option.pure_def, List.contains_iff_mem]
    split <;> simp

/-- Of the catalog, the declaration of a schema shows nothing but the names on the chain and the
id of the base, and that of a subtype not even these. -/
theorem declare_eq_of_chainNames_eq {c c' : Catalog} {s : Schema}
    (h : s.isSubtype = false → c'.chainNames s = c.chainNames s ∧
      (c'.base? s).map Schema.displayId = (c.base? s).map Schema.displayId) :
    c'.declare s = c.declare s := by
  cases hs : s.isSubtype with
  | true => rw [declare_of_isSubtype hs, declare_of_isSubtype hs]
  | false =>
    obtain ⟨hnames, hbase⟩ := h hs
    have hheritage : c'.heritage? s = c.heritage? s := by
      have hmap := congrArg (Option.map (fun id => (⟨id, c.omittedNames s⟩ : Heritage))) hbase
      rw [Option.map_map, Option.map_map] at hmap
      rw [heritage?_eq, heritage?_eq]
      simp only [omittedNames, hnames]
      exact hmap
    have hinterface : c'.interfaceOf s = c.interfaceOf s := by
      funext members
      simp only [interfaceOf, hheritage]
    simp only [declare, hs, resolve, candidates, inheritedNames_of_not_isSubtype hs, hnames,
      hinterface]

/-- What an interface comes to: the failure of the first candidate that has one,
and otherwise the members of the candidates. -/
theorem declaration_of_not_isSubtype {c : Catalog} {s : Schema} (h : s.isSubtype = false) :
    (c.declare s).declaration =
      match (c.candidates s).findSome? s.fault? with
      | some f => .error f
      | none => .ok (c.interfaceOf s ((c.candidates s).filterMap s.member?)) := by
  simp only [declare, h, Bool.false_eq_true, if_false, resolve, Schema.members_resolveAll]
  split <;> rfl

theorem declaration_of_isSubtype {c : Catalog} {s : Schema} (h : s.isSubtype = true) :
    (c.declare s).declaration = .ok s.subtypeDeclaration := by
  rw [declare_of_isSubtype h]

variable {c : Catalog} {s : Schema} {d : Declaration}

/-- A schema is declared under its own id. -/
theorem name_of_declare (h : (c.declare s).declaration = .ok d) : d.name = s.displayId := by
  cases hs : s.isSubtype with
  | true =>
    rw [declaration_of_isSubtype hs] at h
    cases h
    rfl
  | false =>
    rw [declaration_of_not_isSubtype hs] at h
    split at h
    · simp at h
    · cases h
      rfl

/-- The interface of a schema that could be declared, with every candidate read. -/
theorem interface_of_declare (h : (c.declare s).declaration = .ok d) (hs : s.isSubtype = false) :
    d = c.interfaceOf s ((c.candidates s).filterMap s.member?) ∧
      ∀ p ∈ c.candidates s, ∃ desc, Descriptor.ofJson p.2 = .ok desc := by
  rw [declaration_of_not_isSubtype hs] at h
  split at h
  · simp at h
  · rename_i hnone
    cases h
    exact ⟨rfl, fun p hp => Schema.fault?_eq_none_iff.1 (List.findSome?_eq_none_iff.1 hnone p hp)⟩

theorem heritage?_of_declare (h : (c.declare s).declaration = .ok d) (hs : s.isSubtype = false) :
    d.heritage? = (c.base? s).map (fun b => ⟨b.displayId, c.omittedNames s⟩) := by
  rw [(interface_of_declare h hs).1, ← heritage?_eq]
  rfl

theorem memberNames_of_declare (h : (c.declare s).declaration = .ok d) (hs : s.isSubtype = false) :
    d.memberNames = ((c.candidates s).filterMap s.member?).map Member.name
      ++ [Schema.entityType, Schema.permissions] := by
  rw [(interface_of_declare h hs).1]
  simp [Declaration.memberNames, Declaration.members, interfaceOf, Schema.addedMembers,
    Member.optional]

/-- Of an interface that is no subtype's, a property is a candidate unless it is
deprecated or inherited; the custom attributes are one in any case. -/
theorem declares_iff (hs : s.isSubtype = false) {name : String} :
    c.declares s name = true ↔
      isDeprecated name = false ∧ (name = Schema.customAttributes ∨ name ∉ c.chainNames s) := by
  simp [declares, inheritedNames_of_not_isSubtype hs]

/-- The members that a schema declares itself are those of the candidates that could be
read, except that an untyped one is the custom attributes or none. -/
theorem mem_names_filterMap_member?_iff {name : String} :
    name ∈ ((c.candidates s).filterMap s.member?).map Member.name ↔
      ∃ j desc, (name, j) ∈ s.properties.entries ∧ c.declares s name = true ∧
        Descriptor.ofJson j = .ok desc ∧ (name = Schema.customAttributes ∨ desc ≠ .untyped) := by
  simp only [List.mem_map, List.mem_filterMap]
  constructor
  · rintro ⟨m, ⟨⟨n, j⟩, hp, hm⟩, rfl⟩
    have hn : m.name = n := Schema.member?_name hm
    obtain ⟨desc, hd⟩ := Schema.member?_isSome_iff.1 (Option.isSome_of_eq_some hm)
    obtain ⟨hp, hdecl⟩ := mem_candidates.1 hp
    exact ⟨j, desc, hn ▸ hp, hn ▸ hdecl, hn ▸ hd⟩
  · rintro ⟨j, desc, hp, hdecl, hd⟩
    obtain ⟨m, hm⟩ := Option.isSome_iff_exists.1
      (Schema.member?_isSome_iff (p := (name, j)) |>.2 ⟨desc, hd⟩)
    exact ⟨m, ⟨(name, j), mem_candidates.2 ⟨hp, hdecl⟩, hm⟩, Schema.member?_name hm⟩

/-- The members that an interface has for properties of its schema: the custom attributes if the
schema has them, and what is not deprecated, has a type and is declared by no base. -/
theorem mem_ownNames_iff (h : (c.declare s).declaration = .ok d) (hs : s.isSubtype = false)
    {name : String} :
    name ∈ ((c.candidates s).filterMap s.member?).map Member.name ↔
      name = Schema.customAttributes ∧ s.has name = true ∨
      isDeprecated name = false ∧ name ∉ c.chainNames s ∧ s.Types name := by
  rw [mem_names_filterMap_member?_iff, declares_iff hs]
  constructor
  · rintro ⟨j, desc, hp, ⟨hdep, hin⟩, hd, hty⟩
    by_cases hca : name = Schema.customAttributes
    · exact .inl ⟨hca, Schema.has_iff.2 ⟨j, hp⟩⟩
    · exact .inr ⟨hdep, hin.resolve_left hca, j, desc, hp, hd, hty.resolve_left hca⟩
  · rintro (⟨rfl, hhas⟩ | ⟨hdep, hin, j, desc, hp, hd, hty⟩)
    · obtain ⟨j, hp⟩ := Schema.has_iff.1 hhas
      have hdecl : c.declares s Schema.customAttributes = true :=
        (declares_iff hs).2 ⟨by decide, .inl rfl⟩
      obtain ⟨desc, hd⟩ := (interface_of_declare h hs).2 (Schema.customAttributes, j)
        (mem_candidates.2 ⟨hp, hdecl⟩)
      exact ⟨j, desc, hp, ⟨by decide, .inl rfl⟩, hd, .inl rfl⟩
    · exact ⟨j, desc, hp, ⟨hdep, .inr hin⟩, hd, .inr hty⟩

/-- **What an interface declares**: the two names that the generator adds, the custom
attributes if the schema has them, and what it gives a type to and no base has. -/
theorem mem_memberNames_iff (h : (c.declare s).declaration = .ok d) (hs : s.isSubtype = false)
    {name : String} :
    name ∈ d.memberNames ↔
      name = Schema.entityType ∨ name = Schema.permissions ∨
      name = Schema.customAttributes ∧ s.has name = true ∨
      isDeprecated name = false ∧ name ∉ c.chainNames s ∧ s.Types name := by
  rw [memberNames_of_declare h hs, List.mem_append, mem_ownNames_iff h hs, or_comm]
  simp only [List.mem_cons, List.not_mem_nil, or_false, or_assoc]

/-- What a body has and its interface does not leave out of the base, no base declares. -/
theorem not_mem_chainNames_of_mem_memberNames (h : (c.declare s).declaration = .ok d)
    (hs : s.isSubtype = false) {name : String} (hm : name ∈ d.memberNames)
    (hom : name ∉ c.omittedNames s) : name ∉ c.chainNames s := by
  rw [mem_omittedNames, not_or, not_or] at hom
  rcases (mem_memberNames_iff h hs).1 hm with he | hp | ⟨hca, -⟩ | ⟨-, hnew, -⟩
  · exact absurd he hom.1
  · exact absurd hp hom.2.1
  · exact fun hin => hom.2.2 ⟨hca, hin⟩
  · exact hnew

/-- A body has of the names that its schema does not declare only the two that are added. -/
theorem not_mem_memberNames_of_has_eq_false (h : (c.declare s).declaration = .ok d)
    (hs : s.isSubtype = false) {name : String} (he : name ≠ Schema.entityType)
    (hp : name ≠ Schema.permissions) (hhas : s.has name = false) : name ∉ d.memberNames := by
  rw [mem_memberNames_iff h hs]
  rintro (hm | hm | ⟨-, hm⟩ | ⟨-, -, hm⟩)
  · exact he hm
  · exact hp hm
  · rw [hhas] at hm
    cases hm
  · rw [hm.has] at hhas
    cases hhas

/-- The members that a schema declares itself stand in strictly increasing order of name. -/
theorem names_filterMap_member?_sorted (c : Catalog) (s : Schema) :
    (((c.candidates s).filterMap s.member?).map Member.name).Pairwise (· < ·) := by
  rw [List.pairwise_map, List.pairwise_filterMap]
  refine (candidates_sorted c s).imp ?_
  intro p q hlt m hm m' hm'
  rwa [Schema.member?_name hm, Schema.member?_name hm']

end Catalog

end EntityTypings
