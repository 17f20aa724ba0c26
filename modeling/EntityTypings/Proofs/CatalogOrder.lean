import EntityTypings.Proofs.Dependence
import EntityTypings.Proofs.EffectiveMembers
import EntityTypings.Response

/-!
# The order of a response

Before a run the schemas of a response are put in order of id. If no id is given
twice, the outcome of the run does not depend on the order in which the response has
them. This is not for want of freedom in the sorted list: schemas without an id all
come first, in whatever order they had, and they may differ in all else. But a run
reads nothing of them, and where an id is given only one schema can stand.

`forall₂_sortById` compares two sorted lists place by place, and the main statement,
`generate_sortById_of_perm`, follows from what a run depends on.
-/

namespace EntityTypings

/-- Lists with the same images under a function correspond place by place. -/
theorem forall₂_of_map_eq {α β : Type} {f : α → β} {R : α → α → Prop} {l l' : List α}
    (h : l.map f = l'.map f) (hR : ∀ a ∈ l, ∀ b ∈ l', f a = f b → R a b) :
    List.Forall₂ R l l' := by
  have hsame : List.Forall₂ (· = ·) (l.map f) (l'.map f) := List.forall₂_eq_eq_eq ▸ h
  rw [List.forall₂_map_left_iff, List.forall₂_map_right_iff] at hsame
  have hleft : List.Forall₂ (fun a b => a ∈ l ∧ f a = f b) l l' :=
    (List.forall₂_and_left l l').2 ⟨fun _ ha => ha, hsame⟩
  have hboth : List.Forall₂ (fun b a => b ∈ l' ∧ a ∈ l ∧ f a = f b) l' l :=
    (List.forall₂_and_left l' l).2 ⟨fun _ hb => hb, hleft.flip⟩
  exact hboth.flip.imp fun a b ⟨hb, ha, hab⟩ => hR a ha b hb hab

namespace Response

/-- Sorted lists of the same schemas have the same ids in the same places. -/
theorem map_displayId_sortById_of_perm {a b : List Schema} (h : a.Perm b) :
    (sortById a).map Schema.displayId = (sortById b).map Schema.displayId := by
  have hperm : (sortById a).Perm (sortById b) :=
    ((sortById_perm a).trans h).trans (sortById_perm b).symm
  exact List.Perm.eq_of_pairwise (fun _ _ _ _ hle hge => Std.le_antisymm hle hge)
    (List.pairwise_map.2 (sortById_sorted a)) (List.pairwise_map.2 (sortById_sorted b))
    (hperm.map _)

/-- In the same place of two sorted lists either neither schema has an id, or it is the
same schema, as no other has its id. -/
theorem forall₂_sortById {a b : List Schema} (h : a.Perm b)
    (hids : (a.filterMap Schema.id?).Nodup) :
    List.Forall₂ (fun s t => s.id? = none ∧ t.id? = none ∨ s = t) (sortById a) (sortById b) := by
  refine forall₂_of_map_eq (map_displayId_sortById_of_perm h) fun s hs t ht heq => ?_
  have hs : s ∈ a := (sortById_perm a).mem_iff.1 hs
  have ht : t ∈ a := h.mem_iff.2 ((sortById_perm b).mem_iff.1 ht)
  have hid : t.id? = s.id? := Option.ext fun i => by
    rw [Schema.id?_eq_some_iff, Schema.id?_eq_some_iff, heq]
  cases hsid : s.id? with
  | none => exact .inl ⟨rfl, hid.trans hsid⟩
  | some id =>
    -- Both are what the unsorted list has under the id.
    have hfind : Catalog.find? ⟨a⟩ id = some s := Catalog.find?_eq_some_of_mem hids hs hsid
    rw [Catalog.find?_eq_some_of_mem hids ht (hid.trans hsid), Option.some.injEq] at hfind
    exact .inr hfind.symm

end Response

/-- A run reads the same where both schemas have no id, or are the same. -/
theorem Catalog.matches_and_readsAlike {c : Catalog} {skipped : List String} {s t : Schema}
    (h : s.id? = none ∧ t.id? = none ∨ s = t) : s.Matches t ∧ c.ReadsAlike skipped s t := by
  rcases h with ⟨hs, ht⟩ | rfl
  · refine ⟨.inl ⟨hs, ht⟩, fun hdecl => ?_⟩
    rw [Generation.isDeclared_iff, hs] at hdecl
    cases hdecl.1
  · exact ⟨.inr (.refl s), .refl c skipped s⟩

/-- **The order of the response does not matter.** If no id is given twice, a run on the
schemas of a response in order of id has the same outcome however the response orders
them. Schemas without an id may be given any number of times. -/
theorem generate_sortById_of_perm {a b : List Schema} (h : a.Perm b)
    (hids : (a.filterMap Schema.id?).Nodup) (options : Generation.Options)
    (configurations : List AttributeConfiguration) :
    generate options (Response.sortById a) configurations =
      generate options (Response.sortById b) configurations :=
  (Generation.generate_congr options ((Response.forall₂_sortById h hids).imp fun _ _ hst =>
    Catalog.matches_and_readsAlike hst) configurations).symm

/-- A schema before its base, and between them two schemas without an id, which differ. -/
def unsortedResponse : List Schema :=
  [.plain "Shot" (some "Thing") [("size", textDescriptor)],
    { Schema.plain "" none [("note", textDescriptor)] with givenId := none },
    .plain "" (some "Shot") [],
    .plain "Thing" none [("name", textDescriptor)]]

theorem generate_unsortedResponse_reverse :
    unsortedResponse.Perm unsortedResponse.reverse ∧
      unsortedResponse.filterMap Schema.id? = ["Shot", "Thing"] ∧
      generate .default (Response.sortById unsortedResponse) [] =
        generate .default (Response.sortById unsortedResponse.reverse) [] := by
  have hperm : unsortedResponse.Perm unsortedResponse.reverse := (List.reverse_perm _).symm
  have hids : unsortedResponse.filterMap Schema.id? = ["Shot", "Thing"] := by decide
  exact ⟨hperm, hids, generate_sortById_of_perm hperm (hids ▸ by decide) .default []⟩

end EntityTypings
