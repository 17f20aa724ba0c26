import EntityTypings.Proofs.AttributeNames
import EntityTypings.Proofs.EffectiveMembers

/-!
# The attributes of a schema

Which custom attributes the entities of a schema can have, and what type the source gives
to them. `AttributeConfiguration.Applies` says in which ways an attribute comes to apply to
a schema. Configurations can share a key, and some of them can apply while others do not;
so a key can be seen early and apply late, and the keys of a schema need not stand in the
order of the keys of all attributes.

The main statement, `attribute_union_of_schema`, says that nothing is lost and nothing is
invented on the way from configurations to the union: each key of a configuration that
applies is listed once, by the first such configuration, and the union has one member for
each key listed. That building the union removes none of them is not because keys differ
but because their names do.
-/

namespace EntityTypings

/-! ### What applies to a schema -/

namespace AttributeConfiguration

/-- The ways in which an attribute applies to the entities of a schema. -/
inductive Applies (a : AttributeConfiguration) (s : Schema) : Prop where
  /-- It is handed down the hierarchy, and the schema belongs to the context family or has
  custom attributes among its properties. -/
  | handedDown : a.isHierarchical = true →
      s.isMember = true ∨ s.has Schema.customAttributes = true → Applies a s
  /-- It is bound to the object type that is the id of the schema. -/
  | bound {id : String} : s.id? = some id → a.objectType = some id → Applies a s
  /-- It is a project attribute, and the schema has an id and is an alias of `show` in any
  case of letters. -/
  | project {id target : String} : s.id? = some id → a.entityType = showEntityType →
      s.aliasTarget? = some target → lowerCase target = showEntityType → Applies a s

theorem isShowAlias_iff {s : Schema} :
    isShowAlias s = true ↔ ∃ target, s.aliasTarget? = some target ∧
      lowerCase target = showEntityType := by
  unfold isShowAlias
  cases s.aliasTarget? <;> simp

/-- Whether an attribute applies is decided by the ways in which it can. -/
theorem appliesTo_iff {a : AttributeConfiguration} {s : Schema} :
    a.appliesTo s = true ↔ a.Applies s := by
  constructor
  · intro h
    rw [appliesTo, Bool.or_eq_true, Bool.and_eq_true] at h
    rcases h with ⟨hdown, hbears⟩ | h
    · rw [Schema.bearsAttributes, Bool.or_eq_true] at hbears
      exact .handedDown hdown hbears
    · cases hid : s.id? with
      | none => simp [hid] at h
      | some id =>
        simp only [hid, Bool.or_eq_true, Bool.and_eq_true, decide_eq_true_eq] at h
        rcases h with hbound | ⟨hshow, halias⟩
        · exact .bound hid hbound
        · obtain ⟨target, htarget, hlower⟩ := isShowAlias_iff.1 halias
          exact .project hid hshow htarget hlower
  · intro h
    rw [appliesTo, Bool.or_eq_true]
    cases h with
    | handedDown hdown hbears =>
      left
      rw [Bool.and_eq_true, Schema.bearsAttributes, Bool.or_eq_true]
      exact ⟨hdown, hbears⟩
    | bound hid hbound =>
      right
      simp [hid, hbound]
    | project hid hshow htarget hlower =>
      right
      have halias : isShowAlias s = true := isShowAlias_iff.2 ⟨_, htarget, hlower⟩
      simp [hid, hshow, halias]

instance (a : AttributeConfiguration) (s : Schema) : Decidable (a.Applies s) :=
  decidable_of_iff _ appliesTo_iff

end AttributeConfiguration

/-! ### The keys of a schema -/

/-- Images of the elements with a property, in first-seen order, stand in the order of the
first elements that have the property and the image. -/
theorem pairwise_firstSeen_map_filter {α β : Type} [DecidableEq β] (p : α → Bool) (f : α → β)
    (xs : List α) :
    (firstSeen ((xs.filter p).map f)).Pairwise (fun b c =>
      xs.findIdx (fun x => f x = b && p x) < xs.findIdx (fun x => f x = c && p x)) := by
  induction xs with
  | nil => simp
  | cons x xs ih =>
    -- An image that `x` does not stand for is first seen one place later than in the rest.
    have hlater {b : β} (hb : (decide (f x = b) && p x) = false) :
        (x :: xs).findIdx (fun x => f x = b && p x) =
          xs.findIdx (fun x => f x = b && p x) + 1 := by
      rw [List.findIdx_cons, hb, cond_false]
    by_cases hx : p x = true
    · rw [List.filter_cons_of_pos hx, List.map_cons, firstSeen_cons, List.pairwise_cons]
      have hrest : ∀ b ∈ (firstSeen ((xs.filter p).map f)).filter (fun b => decide (b ≠ f x)),
          (decide (f x = b) && p x) = false := by
        intro b hb
        have hne : b ≠ f x := by simpa using (List.mem_filter.1 hb).2
        simp [hne.symm]
      refine ⟨fun b hb => ?_, ?_⟩
      · rw [hlater (hrest b hb), List.findIdx_cons]
        simp [hx]
      · refine (ih.filter _).imp_of_mem fun hb hc hlt => ?_
        rw [hlater (hrest _ hb), hlater (hrest _ hc)]
        exact Nat.succ_lt_succ hlt
    · have hnone (b : β) : (decide (f x = b) && p x) = false := by simp [hx]
      rw [List.filter_cons_of_neg hx]
      refine ih.imp fun hlt => ?_
      rw [hlater (hnone _), hlater (hnone _)]
      exact Nat.succ_lt_succ hlt

namespace AttributeTypes

variable {configurations : List AttributeConfiguration} {s : Schema}

/-- The place of the first configuration with the key that applies to a schema. -/
def firstApplying (configurations : List AttributeConfiguration) (s : Schema) (key : String) :
    Nat :=
  configurations.findIdx (fun a => a.key = key ∧ a.Applies s)

theorem mem_applicableKeys_derive {key : String} :
    key ∈ (derive configurations).applicableKeys s ↔
      ∃ a ∈ configurations, a.key = key ∧ a.Applies s := by
  simp only [mem_applicableKeys, AttributeConfiguration.appliesTo_iff]
  rfl

theorem applicableKeys_eq_nil_iff :
    (derive configurations).applicableKeys s = [] ↔ ∀ a ∈ configurations, ¬ a.Applies s := by
  rw [List.eq_nil_iff_forall_not_mem]
  constructor
  · intro h a ha happlies
    exact h a.key (mem_applicableKeys_derive.2 ⟨a, ha, rfl, happlies⟩)
  · intro h key hkey
    obtain ⟨a, ha, -, happlies⟩ := mem_applicableKeys_derive.1 hkey
    exact h a ha happlies

/-- The keys stand in the order of the first configurations that apply. -/
theorem pairwise_applicableKeys :
    ((derive configurations).applicableKeys s).Pairwise (fun k l =>
      firstApplying configurations s k < firstApplying configurations s l) := by
  have hfirst (key : String) : firstApplying configurations s key =
      configurations.findIdx (fun a => a.key = key && a.appliesTo s) := by
    simp only [firstApplying, ← AttributeConfiguration.appliesTo_iff, Bool.decide_and,
      Bool.decide_eq_true]
  simp only [hfirst]
  exact pairwise_firstSeen_map_filter _ _ configurations

/-- The name of a key is not that of the type without values. -/
theorem typeName_ne_never {key : String} (h : key ∈ (derive configurations).keys) :
    TypeExpr.named ((derive configurations).typeName key) ≠ .never := by
  intro heq
  rw [TypeExpr.never, TypeExpr.named.injEq] at heq
  have hstart := isPrefix_typeName h
  rw [heq] at hstart
  exact absurd hstart (by decide)

theorem schemaType_eq_never_iff :
    (derive configurations).schemaType s = .never ↔
      (derive configurations).applicableKeys s = [] := by
  refine ⟨fun h => ?_, schemaType_eq_never⟩
  by_contra hne
  obtain ⟨key, hkey⟩ := List.exists_mem_of_ne_nil _ hne
  have hmem : TypeExpr.named ((derive configurations).typeName key) ∈
      ((derive configurations).schemaType s).members := by
    rw [members_schemaType hne]
    exact List.mem_map_of_mem hkey
  rw [h] at hmem
  exact typeName_ne_never (mem_keys_of_mem_applicableKeys hkey) (List.mem_singleton.1 hmem)

end AttributeTypes

open AttributeTypes

/-- **The attributes of a schema are the union over the keys that apply.** The keys of the
configurations that apply to a schema are listed without repetition, in the order in which
one that applies comes first. The type of the attributes is the one without values exactly
if none applies; otherwise its members are the declared types of the keys listed, in the
same order, and no two of them are the same. -/
theorem attribute_union_of_schema (configurations : List AttributeConfiguration) (s : Schema) :
    let types := AttributeTypes.derive configurations
    let keys := types.applicableKeys s
    keys.Nodup ∧
    (∀ key, key ∈ keys ↔ ∃ a ∈ configurations, a.key = key ∧ a.Applies s) ∧
    keys.Pairwise (fun k l =>
      firstApplying configurations s k < firstApplying configurations s l) ∧
    (types.schemaType s = .never ↔ ∀ a ∈ configurations, ¬ a.Applies s) ∧
    ((∃ a ∈ configurations, a.Applies s) →
      (types.schemaType s).members = keys.map (fun key => .named (types.typeName key)) ∧
      (keys.map types.typeName).Nodup) := by
  intro types keys
  refine ⟨nodup_firstSeen _, fun key => mem_applicableKeys_derive, pairwise_applicableKeys,
    ?_, ?_⟩
  · rw [schemaType_eq_never_iff, applicableKeys_eq_nil_iff]
  · rintro ⟨a, ha, happlies⟩
    have hne : keys ≠ [] := List.ne_nil_of_mem (mem_applicableKeys_derive.2 ⟨a, ha, rfl, happlies⟩)
    exact ⟨members_schemaType hne, nodup_map_typeName_applicableKeys s⟩

/-- Three keys that come out alike. The first of them applies to shots only by its second
configuration, after that of another, and one does not apply to them at all. -/
def scatteredAttributes : List AttributeConfiguration :=
  [("a-b", some "Asset", "task", false), ("a_b", none, "show", false), ("a.b", none, "task", true),
    ("a-b", some "Shot", "task", false), ("a.b", some "Shot", "task", false)].map
      (fun (key, objectType, entityType, isHierarchical) =>
        ⟨key, "", entityType, objectType, isHierarchical, "text", .null⟩)

/-- A subtype without properties. -/
def plainShot : Schema :=
  { Schema.plain "Shot" none [] with aliasOf := some (.record Schema.subtypeMarker) }

/-- The key that is seen last applies first, and the union has its type before the other. -/
theorem union_of_scatteredAttributes :
    let types := AttributeTypes.derive scatteredAttributes
    (∃ a ∈ scatteredAttributes, a.Applies plainShot) ∧ types.keys = ["a-b", "a_b", "a.b"] ∧
      firstApplying scatteredAttributes plainShot "a.b" = 2 ∧
      firstApplying scatteredAttributes plainShot "a-b" = 3 ∧
      (types.schemaType plainShot).members =
        [.named (types.typeName "a.b"), .named (types.typeName "a-b")] ∧
      [types.typeName "a.b", types.typeName "a-b"].Nodup := by
  intro types
  have happlies : ∃ a ∈ scatteredAttributes, a.Applies plainShot := by decide +kernel
  obtain ⟨hmembers, hnodup⟩ :=
    (attribute_union_of_schema scatteredAttributes plainShot).2.2.2.2 happlies
  have hkeys : types.applicableKeys plainShot = ["a.b", "a-b"] := by decide +kernel
  rw [hkeys] at hmembers hnodup
  exact ⟨happlies, by decide, by decide +kernel, by decide +kernel, hmembers, hnodup⟩

end EntityTypings
