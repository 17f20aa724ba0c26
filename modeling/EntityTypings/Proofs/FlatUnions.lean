import EntityTypings.TypeExpr

/-!
# Unions as sets in first-seen order

`unionOf` takes apart the unions that it is given, but only those and not what is inside their
members, and a union of one type is that type. So it is not a set union of any types whatever:
a union whose members are unions again is only half taken apart, and one without members is taken
for `never`.

`IsFlat` says of which types it is one. In a flat type every union, however deep inside, has at
least two members, all different and none a union. What `unionOf` builds from flat types is flat
again (`isFlat_unionOf`), and its members are those of the given types in first-seen order
(`members_unionOf_of_isFlat`). As only these count (`unionOf_congr`), everything else follows from
laws of first-seen order; the main statement, `unionOf_flat_types`, lists the laws of a set union.
-/

namespace EntityTypings

namespace TypeExpr

/-! ### Flat types -/

/-- Whether the type is a union. -/
def isUnion : TypeExpr → Bool
  | union _ => true
  | named _ | array _ => false

/-- Every union in the type, at any depth, is a list of at least two different types that are no
unions. -/
inductive IsFlat : TypeExpr → Prop
  /-- A name has no unions in it. -/
  | named (name : String) : IsFlat (named name)
  /-- The unions in an array are those in its items. -/
  | array {item : TypeExpr} (hitem : IsFlat item) : IsFlat (array item)
  /-- The members of a union are flat in their turn. -/
  | union {types : List TypeExpr} (htwo : 2 ≤ types.length) (hnodup : types.Nodup)
    (hplain : ∀ t ∈ types, t.isUnion = false) (hflat : ∀ t ∈ types, IsFlat t) :
    IsFlat (union types)

variable {t : TypeExpr} {types : List TypeExpr}

/-- What is no union is its own only member. -/
theorem members_of_isUnion_eq_false (h : t.isUnion = false) : t.members = [t] := by
  cases t with
  | named _ => rfl
  | array _ => rfl
  | union _ => cases h

/-- The members of a flat type are flat and no unions. -/
theorem IsFlat.members (h : t.IsFlat) : ∀ m ∈ t.members, m.isUnion = false ∧ m.IsFlat := by
  cases h with
  | named name => exact List.forall_mem_singleton.2 ⟨rfl, .named name⟩
  | array hitem => exact List.forall_mem_singleton.2 ⟨rfl, .array hitem⟩
  | union _ _ hplain hflat => exact fun m hm => ⟨hplain m hm, hflat m hm⟩

/-- A flat type has a member. -/
theorem IsFlat.members_ne_nil (h : t.IsFlat) : t.members ≠ [] := by
  cases h with
  | named _ => exact List.cons_ne_nil _ _
  | array _ => exact List.cons_ne_nil _ _
  | union htwo _ _ _ => exact List.ne_nil_of_length_pos (Nat.lt_of_lt_of_le Nat.two_pos htwo)

/-- A flat type all of whose members are the same type is that type. -/
theorem IsFlat.eq_of_forall_members {u : TypeExpr} (h : t.IsFlat) (hall : ∀ m ∈ t.members, m = u) :
    t = u := by
  cases h with
  | named name => exact hall _ (List.mem_singleton_self _)
  | array _ => exact hall _ (List.mem_singleton_self _)
  | @union types htwo hnodup _ _ =>
    -- two members would not be different
    match types with
    | m :: n :: rest =>
      have hsame : m = n :=
        (hall m List.mem_cons_self).trans (hall n (.tail _ List.mem_cons_self)).symm
      exact absurd (hsame ▸ List.mem_cons_self) (List.nodup_cons.1 hnodup).1

/-! ### What a union is built from -/

/-- What is built depends on the members of the given types in first-seen order, and on nothing
else. -/
theorem unionOf_congr {others : List TypeExpr}
    (h : firstSeen (types.flatMap members) = firstSeen (others.flatMap members)) :
    unionOf types = unionOf others := by
  rw [unionOf, unionOf, h]

section

variable (h : ∀ t ∈ types, t.IsFlat)
include h

theorem forall_mem_flatMap_members :
    ∀ m ∈ types.flatMap members, m.isUnion = false ∧ m.IsFlat :=
  List.forall_mem_flatMap.2 fun t ht => (h t ht).members

/-- The types can be replaced by their members. -/
theorem unionOf_flatMap_members : unionOf (types.flatMap members) = unionOf types := by
  apply unionOf_congr
  have hself : ∀ m ∈ types.flatMap members, m.members = [m] := fun m hm =>
    members_of_isUnion_eq_false (forall_mem_flatMap_members h m hm).1
  rw [List.flatMap_def (l := types.flatMap members), List.map_congr_left hself, ← List.flatMap_def,
    List.flatMap_singleton']

/-- **The members of a union are those of the given types in first-seen order.** -/
theorem members_unionOf_of_isFlat (hne : types ≠ []) :
    (unionOf types).members = firstSeen (types.flatMap members) := by
  have hmembers : types.flatMap members ≠ [] := by
    obtain ⟨t, rest, rfl⟩ := List.exists_cons_of_ne_nil hne
    rw [List.flatMap_cons]
    exact List.append_ne_nil_of_left_ne_nil (h t List.mem_cons_self).members_ne_nil _
  rw [← unionOf_flatMap_members h]
  exact members_unionOf (fun m hm =>
    members_of_isUnion_eq_false (forall_mem_flatMap_members h m hm).1) hmembers

/-- **A union of flat types is flat.** -/
theorem isFlat_unionOf : (unionOf types).IsFlat := by
  have hmem : ∀ m ∈ firstSeen (types.flatMap members), m.isUnion = false ∧ m.IsFlat :=
    fun m hm => forall_mem_flatMap_members h m (mem_firstSeen.1 hm)
  have hnodup := nodup_firstSeen (types.flatMap members)
  unfold unionOf
  match hfirst : firstSeen (types.flatMap members) with
  | [] => exact .named _
  | [m] => exact (hmem m (by simp [hfirst])).2
  | m :: n :: rest =>
    rw [hfirst] at hmem hnodup
    exact .union (by simp) hnodup (fun u hu => (hmem u hu).1) (fun u hu => (hmem u hu).2)

end

/-! ### Laws of unions -/

/-- A union that is united again stays as it is. -/
theorem unionOf_unionOf (h : ∀ t ∈ types, t.IsFlat) : unionOf [unionOf types] = unionOf types := by
  by_cases hnil : types = []
  · subst hnil
    rfl
  · apply unionOf_congr
    rw [List.flatMap_singleton, members_unionOf_of_isFlat h hnil]
    exact firstSeen_of_nodup (nodup_firstSeen _)

/-- Types can be united in two parts. -/
theorem unionOf_unionOf_append {others : List TypeExpr} (h : ∀ t ∈ types, t.IsFlat)
    (hothers : ∀ t ∈ others, t.IsFlat) (hne : types ≠ []) (hneOthers : others ≠ []) :
    unionOf [unionOf types, unionOf others] = unionOf (types ++ others) := by
  apply unionOf_congr
  rw [List.flatMap_cons, List.flatMap_singleton, members_unionOf_of_isFlat h hne,
    members_unionOf_of_isFlat hothers hneOthers, List.flatMap_append, firstSeen_append,
    firstSeen_append, firstSeen_of_nodup (nodup_firstSeen _),
    firstSeen_of_nodup (nodup_firstSeen _)]
  simp only [mem_firstSeen]

/-- A type adds nothing to a union that has its members already. -/
theorem unionOf_repeated {before : List TypeExpr} (after : List TypeExpr)
    (h : ∀ m ∈ t.members, m ∈ before.flatMap members) :
    unionOf (before ++ t :: after) = unionOf (before ++ after) := by
  apply unionOf_congr
  have hnone : (firstSeen t.members).filter (fun m => decide (m ∉ before.flatMap members)) = [] :=
    List.filter_eq_nil_iff.2 fun m hm => by simpa using h m (mem_firstSeen.1 hm)
  have hmem (m : TypeExpr) :
      m ∈ before.flatMap members ++ t.members ↔ m ∈ before.flatMap members :=
    ⟨fun hm => (List.mem_append.1 hm).elim id (h m), List.mem_append_left _⟩
  rw [List.flatMap_append, List.flatMap_append, List.flatMap_cons, ← List.append_assoc,
    firstSeen_append, firstSeen_append (before.flatMap members) t.members, hnone, List.append_nil,
    firstSeen_append]
  simp only [hmem]

/-- The order of types makes a difference to the order of members only. -/
theorem members_unionOf_perm {others : List TypeExpr} (h : ∀ t ∈ types, t.IsFlat)
    (hperm : types.Perm others) : (unionOf types).members.Perm (unionOf others).members := by
  by_cases hnil : types = []
  · subst hnil
    rw [hperm.nil_eq]
  · have hothers : ∀ t ∈ others, t.IsFlat := fun t ht => h t (hperm.mem_iff.2 ht)
    have hne : others ≠ [] := fun hnone => hnil (hnone ▸ hperm).eq_nil
    rw [members_unionOf_of_isFlat h hnil, members_unionOf_of_isFlat hothers hne]
    exact firstSeen_perm fun m => (hperm.flatMap_right members).mem_iff

/-- Only nothing at all and `never` alone are united to `never`. -/
theorem unionOf_eq_never_iff (h : ∀ t ∈ types, t.IsFlat) :
    unionOf types = never ↔ types = [] ∨ ∀ t ∈ types, t = never := by
  by_cases hnil : types = []
  · subst hnil
    simp
  · have hmem {m : TypeExpr} : m ∈ (unionOf types).members ↔ ∃ t ∈ types, m ∈ t.members := by
      rw [members_unionOf_of_isFlat h hnil, mem_firstSeen, List.mem_flatMap]
    rw [or_iff_right hnil]
    constructor
    · intro hnever t ht
      refine (h t ht).eq_of_forall_members fun m hm => ?_
      have hunion := hmem.2 ⟨t, ht, hm⟩
      rw [hnever] at hunion
      exact List.mem_singleton.1 hunion
    · intro hall
      refine (isFlat_unionOf h).eq_of_forall_members fun m hm => ?_
      obtain ⟨t, ht, hm⟩ := hmem.1 hm
      rw [hall t ht] at hm
      exact List.mem_singleton.1 hm

end TypeExpr

open TypeExpr

/-- **Uniting flat types is the union of sets in first-seen order.** The union of flat types is flat.
If there are any, its members are theirs, each where it is seen first. So a union stays as it is
when it is united again, types can be united in parts, what is there already can be repeated
further behind, and the order of the types makes a difference to the order of the members only.
The union is `never` if there are no types or all are `never`, and in no other case. -/
theorem unionOf_flat_types {types others : List TypeExpr} (h : ∀ t ∈ types, t.IsFlat)
    (hothers : ∀ t ∈ others, t.IsFlat) :
    (unionOf types).IsFlat ∧
    (types ≠ [] → (unionOf types).members = (types.flatMap members).eraseDups) ∧
    unionOf [unionOf types] = unionOf types ∧
    (types ≠ [] → others ≠ [] →
      unionOf [unionOf types, unionOf others] = unionOf (types ++ others)) ∧
    (∀ before after t, types = before ++ after → (∀ m ∈ t.members, m ∈ before.flatMap members) →
      unionOf (before ++ t :: after) = unionOf types) ∧
    (types.Perm others → (unionOf types).members.Perm (unionOf others).members ∧
      ∀ m, m ∈ (unionOf types).members ↔ m ∈ (unionOf others).members) ∧
    (unionOf types = never ↔ types = [] ∨ ∀ t ∈ types, t = never) := by
  refine ⟨isFlat_unionOf h, fun hne => ?_, unionOf_unionOf h, unionOf_unionOf_append h hothers, ?_,
    fun hperm => ?_, unionOf_eq_never_iff h⟩
  · rw [eraseDups_eq_firstSeen]
    exact members_unionOf_of_isFlat h hne
  · rintro before after t rfl hmem
    exact unionOf_repeated after hmem
  · have hmembers := members_unionOf_perm h hperm
    exact ⟨hmembers, fun m => hmembers.mem_iff⟩

namespace TypeExpr

/-- Of a union inside a union only the outer one is taken apart, so it makes a difference whether it
is united with others at once or before. -/
example :
    let nested := union [union [string, number]]
    unionOf [unionOf [nested], unionOf [boolean]] = union [string, number, boolean] ∧
      unionOf ([nested] ++ [boolean]) = union [union [string, number], boolean] := by decide

theorem isFlat_anyScalar : anyScalar.IsFlat := by
  refine .union (by decide) (by decide) (by decide) fun t ht => ?_
  simp only [List.mem_cons, List.not_mem_nil, or_false] at ht
  rcases ht with rfl | rfl | rfl | rfl
  · exact .named _
  · exact .named _
  · exact .named _
  · exact .array (.named _)

/-- A union, one of its members, and a list of values of the union. -/
def scalarTypes : List TypeExpr := [anyScalar, number, array anyScalar]

end TypeExpr

/-- The number is there already, and the list is a member of its own. -/
theorem unions_of_scalarTypes :
    let reordered := [array anyScalar, anyScalar, number]
    (∀ t ∈ scalarTypes, t.IsFlat) ∧ (∀ t ∈ reordered, t.IsFlat) ∧ scalarTypes.Perm reordered ∧
    (unionOf scalarTypes).members = [string, number, boolean, array string, array anyScalar] ∧
    unionOf [unionOf scalarTypes, unionOf reordered] = unionOf (scalarTypes ++ reordered) ∧
    unionOf (scalarTypes ++ [anyScalar]) = unionOf scalarTypes ∧
    (unionOf reordered).members = [array anyScalar, string, number, boolean, array string] ∧
    (unionOf scalarTypes).members.Perm (unionOf reordered).members ∧
    unionOf scalarTypes ≠ never := by
  intro reordered
  have hflat : ∀ t ∈ scalarTypes, t.IsFlat := by
    simp only [scalarTypes, List.forall_mem_cons]
    exact ⟨isFlat_anyScalar, .named _, .array isFlat_anyScalar, nofun⟩
  have hperm : scalarTypes.Perm reordered := by decide
  have hreordered : ∀ t ∈ reordered, t.IsFlat := fun t ht => hflat t (hperm.mem_iff.2 ht)
  obtain ⟨-, hmembers, -, happend, hrepeated, horder, hnever⟩ :=
    unionOf_flat_types hflat hreordered
  refine ⟨hflat, hreordered, hperm, ?_, happend (List.cons_ne_nil _ _) (List.cons_ne_nil _ _), ?_,
    by decide, (horder hperm).1, fun h => ?_⟩
  · rw [hmembers (List.cons_ne_nil _ _)]
    decide
  · exact hrepeated scalarTypes [] anyScalar (by simp) (by decide)
  · exact absurd (hnever.1 h) (by decide)

end EntityTypings
