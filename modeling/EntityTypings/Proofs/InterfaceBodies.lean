import EntityTypings.Proofs.Assembly
import Mathlib.Data.List.Nodup

/-!
# The bodies of interfaces

The body of an interface has the members for properties of its schema, and behind them the two that
every interface has. A name with two underscores is never deprecated, so a property can have the
name of one of these two. If a base declares this property it is left out, as it is from what the
interface takes over; but the schema that introduces it has both members.

The main statement, `count_written_names`, is that this is the only way in which the body of an
interface repeats a name. `twice_written_names` is a schema that does.
-/

namespace EntityTypings

/-- The names of the members that every interface has. -/
def Schema.addedNames : List String := [entityType, permissions]

namespace Catalog

variable {c : Catalog} {s : Schema} {d : Declaration}

instance (c : Catalog) (s : Schema) (name : String) : Decidable (c.Introduces s name) :=
  inferInstanceAs (Decidable (_ ∧ _ ∧ _))

/-- The interface of the schema has a member for its property of this name: it is the custom
attributes, or one that the schema introduces and that is not deprecated. -/
def HasOwn (c : Catalog) (s : Schema) (name : String) : Prop :=
  name = Schema.customAttributes ∧ s.has name = true ∨
    isDeprecated name = false ∧ c.Introduces s name

instance (c : Catalog) (s : Schema) (name : String) : Decidable (c.HasOwn s name) :=
  inferInstanceAs (Decidable (_ ∨ _))

/-- A property with the name of an added member is never deprecated. -/
theorem hasOwn_iff_of_mem_addedNames {name : String} (h : name ∈ Schema.addedNames) :
    c.HasOwn s name ↔ c.Introduces s name := by
  have hdep : isDeprecated name = false := by
    revert name
    decide
  have hne : name ≠ Schema.customAttributes := by
    revert name
    decide
  simp [HasOwn, hdep, hne]

/-- How often a name stands in the body. -/
theorem count_memberNames (h : (c.declare s).declaration = .ok d) (hs : s.isSubtype = false)
    (name : String) :
    d.memberNames.count name =
      (if c.HasOwn s name then 1 else 0) + if name ∈ Schema.addedNames then 1 else 0 := by
  have hown : name ∈ ((c.candidates s).filterMap s.member?).map Member.name ↔ c.HasOwn s name := by
    rw [mem_ownNames_iff h hs, HasOwn, Introduces, and_iff_right hs, and_comm (a := s.Types name)]
  have hnodup := (names_filterMap_member?_sorted c s).imp String.ne_of_lt
  have hadded : Schema.addedNames.Nodup := by decide
  rw [memberNames_of_declare h hs, List.count_append, List.Nodup.count hnodup]
  simp only [hown]
  exact congrArg _ hadded.count

/-- The body repeats a name exactly if the schema introduces a property with the name of an added
member. -/
theorem memberNames_nodup_iff (h : (c.declare s).declaration = .ok d) (hs : s.isSubtype = false) :
    d.memberNames.Nodup ↔ ∀ name ∈ Schema.addedNames, ¬c.Introduces s name := by
  rw [List.nodup_iff_count_le_one]
  simp only [count_memberNames h hs]
  constructor
  · intro hle name hname hintro
    have hone := hle name
    rw [if_pos ((hasOwn_iff_of_mem_addedNames hname).2 hintro), if_pos hname] at hone
    omega
  · intro hnone name
    by_cases hname : name ∈ Schema.addedNames
    · have hown := mt (hasOwn_iff_of_mem_addedNames hname).1 (hnone name hname)
      simp [hown, hname]
    · rw [if_neg hname]
      split <;> omega

/-- No name stands twice in the body of an interface whose schema has no property
of the name of an added member. -/
theorem memberNames_nodup (h : (c.declare s).declaration = .ok d) (hs : s.isSubtype = false)
    (he : s.has Schema.entityType = false) (hp : s.has Schema.permissions = false) :
    d.memberNames.Nodup := by
  rw [memberNames_nodup_iff h hs]
  intro name hname hintro
  have hhas : s.has name = true := hintro.2.1.has
  simp only [Schema.addedNames, List.mem_cons, List.not_mem_nil, or_false] at hname
  rcases hname with rfl | rfl
  · rw [he] at hhas
    cases hhas
  · rw [hp] at hhas
    cases hhas

end Catalog

/-- **Which names the body of an interface repeats.** A schema that is no subtype and can be
declared appends an interface with the members that resolving gives it, followed by the added
ones. A name stands in this body once if it is that of a resolved member, and once if it is that of
an added one. So no name stands there twice unless the schema introduces a property with the name
of an added member: gives it a type while none of its bases declares it. -/
theorem count_written_names {e : Emission} {c : Catalog} {s : Schema} (hs : s.isSubtype = false)
    (h : (e.schema c s).2 = .ok ()) :
    ∃ own, (c.resolve s).members = .ok own ∧
      (e.schema c s).1.code = e.code ++ renderLines e.depth (Declaration.interface s.displayId
        s.parameters (c.heritage? s) (own ++ s.addedMembers)).lines ∧
      (∀ name, ((own ++ s.addedMembers).map Member.name).count name =
        (if c.HasOwn s name then 1 else 0) + if name ∈ Schema.addedNames then 1 else 0) ∧
      (((own ++ s.addedMembers).map Member.name).Nodup ↔
        ∀ name ∈ Schema.addedNames, ¬c.Introduces s name) := by
  rw [Emission.schema_eq_append] at h ⊢
  cases hd : (c.declare s).declaration with
  | error f =>
    rw [hd] at h
    cases h
  | ok d =>
    obtain ⟨hinterface, hread⟩ := Catalog.interface_of_declare hd hs
    have hown : (c.resolve s).members = .ok ((c.candidates s).filterMap s.member?) := by
      rw [Catalog.resolve, Schema.members_resolveAll, List.findSome?_eq_none_iff.2]
      intro p hp
      exact Schema.fault?_eq_none_iff.2 (hread p hp)
    subst hinterface
    exact ⟨_, hown, rfl, Catalog.count_memberNames hd hs, Catalog.memberNames_nodup_iff hd hs⟩

/-- A schema that introduces the permissions. -/
def guardedAsset : Schema := .plain "Asset" none [("__permissions", textDescriptor)]

/-- A schema that describes the permissions again, and a name. -/
def guardedShot : Schema :=
  .plain "Shot" (some "Asset") [("__permissions", textDescriptor), ("name", textDescriptor)]

/-- A property that only redeclares one of a base is left out, so that no name is repeated. -/
theorem written_names_of_guardedShot :
    guardedShot.isSubtype = false ∧
      (Emission.start.schema ⟨[guardedAsset, guardedShot]⟩ guardedShot).2 = .ok () ∧
      ∃ own, (Catalog.resolve ⟨[guardedAsset, guardedShot]⟩ guardedShot).members = .ok own ∧
        ((own ++ guardedShot.addedMembers).map Member.name).Nodup := by
  obtain ⟨own, hown, -, -, hnodup⟩ := count_written_names (e := .start)
    (c := ⟨[guardedAsset, guardedShot]⟩) (s := guardedShot) rfl rfl
  exact ⟨rfl, rfl, own, hown, hnodup.2 (by decide +kernel)⟩

/-- **A name can be written twice**, by the schema that introduces it. -/
theorem twice_written_names :
    ∃ own, (Catalog.resolve ⟨[guardedAsset]⟩ guardedAsset).members = .ok own ∧
      (own ++ guardedAsset.addedMembers).map Member.name =
        ["__permissions", "__entity_type__", "__permissions"] ∧
      (Emission.start.schema ⟨[guardedAsset]⟩ guardedAsset).2 = .ok () ∧
      (Emission.start.schema ⟨[guardedAsset]⟩ guardedAsset).1.code =
        "export interface Asset \x7b\n  __permissions?: string;\n" ++
          "  __entity_type__?: \"Asset\";\n  __permissions?: Record<string, any>;\n\x7d\n" :=
  ⟨_, rfl, by decide +kernel, rfl, by decide +kernel⟩

end EntityTypings
