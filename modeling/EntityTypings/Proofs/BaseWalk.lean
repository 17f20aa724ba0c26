import EntityTypings.Attribute.Types
import EntityTypings.Catalog

/-!
# The walk up the bases

`baseChain` follows the bases of a schema and stops before an id that it has met.
Where it stops for want of a base (`EndsAtTop`) nothing was cut off, and the
chain is the whole walk: the immediate base followed by the chain of that base
(`baseChain_eq_cons`). This is not a plain recursion, because the ids that a walk
may not meet differ from start to start; it holds because a walk that ends never
meets an id twice (`Climb.displayId_not_mem`).

`EndsAtTop.induction` is induction from a schema without a base downwards, and
what statements on whole chains are proved by.
-/

namespace EntityTypings

namespace Catalog

variable {c : Catalog} {s b : Schema} {bs bs' : List Schema}

/-! ### Walks that end -/

/-- The walk up the bases of `s` ends because the last of them has no base, and not
because the next id was met before. -/
def EndsAtTop (c : Catalog) (s : Schema) : Prop := c.base? ((c.baseChain s).getLastD s) = none

instance (c : Catalog) (s : Schema) : Decidable (c.EndsAtTop s) :=
  decidable_of_iff _ Option.isNone_iff_eq_none

/-- The bases of `s`, up to one that has no base itself, are `bs`. -/
inductive Climb (c : Catalog) : Schema → List Schema → Prop where
  /-- There is no base. -/
  | top {s : Schema} : c.base? s = none → Climb c s []
  /-- There is one, with bases of its own. -/
  | step {s b : Schema} {bs : List Schema} : c.base? s = some b → Climb c b bs → Climb c s (b :: bs)

/-- There is one walk at most. -/
theorem Climb.unique (h : c.Climb s bs) (h' : c.Climb s bs') : bs = bs' := by
  induction h generalizing bs' with
  | top hb =>
    cases h' with
    | top => rfl
    | step hb' => rw [hb] at hb'; cases hb'
  | step hb _ ih =>
    cases h' with
    | top hb' => rw [hb] at hb'; cases hb'
    | step hb' hc' =>
      rw [hb, Option.some.injEq] at hb'
      subst hb'
      rw [ih hc']

/-- From each schema that a walk comes to, the rest of it is a walk. -/
theorem Climb.of_mem (h : c.Climb s bs) (hb : b ∈ bs) :
    c.find? b.displayId = some b ∧ ∃ rest, c.Climb b rest ∧ rest.length < bs.length := by
  induction h with
  | top => simp at hb
  | step hbase hc ih =>
    rcases List.mem_cons.1 hb with rfl | hb
    · obtain ⟨i, -, hi⟩ := base?_eq_some_iff.1 hbase
      rw [(Schema.id?_eq_some_iff.1 (id?_of_find? hi)).1]
      exact ⟨hi, _, hc, by simp⟩
    · obtain ⟨hf, rest, hr, hlt⟩ := ih hb
      exact ⟨hf, rest, hr, Nat.lt_succ_of_lt hlt⟩

/-- A walk from a schema that its own id finds does not come to this id again: the
walk from there on would have to be the same, and is shorter. -/
theorem Climb.displayId_not_mem (h : c.Climb s bs) (hs : c.find? s.displayId = some s) :
    s.displayId ∉ bs.map Schema.displayId := by
  intro hmem
  obtain ⟨b, hb, hid⟩ := List.mem_map.1 hmem
  obtain ⟨hf, rest, hr, hlt⟩ := h.of_mem hb
  rw [hid, hs, Option.some.injEq] at hf
  subst hf
  rw [h.unique hr] at hlt
  exact Nat.lt_irrefl _ hlt

theorem Climb.nodup (h : c.Climb s bs) : (bs.map Schema.displayId).Nodup := by
  induction h with
  | top => simp
  | step hb hc ih =>
    obtain ⟨hf, -⟩ := (Climb.step hb hc).of_mem List.mem_cons_self
    rw [List.map_cons, List.nodup_cons]
    exact ⟨hc.displayId_not_mem hf, ih⟩

/-- There are no more bases than schemas. -/
theorem Climb.length_le (h : c.Climb s bs) : bs.length ≤ c.schemas.length := by
  have hsub : ∀ x ∈ bs.map Schema.displayId, x ∈ c.schemas.map Schema.displayId := by
    intro x hx
    obtain ⟨b, hb, rfl⟩ := List.mem_map.1 hx
    exact List.mem_map_of_mem (mem_of_find? (h.of_mem hb).1)
  simpa using length_le_of_nodup_subset _ h.nodup hsub

/-! ### The chain is the walk -/

/-- A walk is followed to its end if the bound allows and no id on it was met before. -/
theorem Climb.basesWithin_eq (h : c.Climb s bs) {bound : Nat} {met : List String}
    (hbound : bs.length ≤ bound) (hmet : ∀ b ∈ bs, b.displayId ∉ met) :
    c.basesWithin bound met s = bs := by
  induction h generalizing bound met with
  | top hb => cases bound <;> simp [basesWithin, hb]
  | @step s b bs hb hc ih =>
    cases bound with
    | zero => simp at hbound
    | succ n =>
      obtain ⟨hf, -⟩ := (Climb.step hb hc).of_mem List.mem_cons_self
      simp only [basesWithin, hb, hmet b List.mem_cons_self, if_false, List.cons.injEq, true_and]
      refine ih (Nat.le_of_succ_le_succ hbound) fun x hx => ?_
      rw [List.mem_cons, not_or]
      refine ⟨fun e => hc.displayId_not_mem hf (e ▸ List.mem_map_of_mem hx), ?_⟩
      exact hmet x (List.mem_cons_of_mem _ hx)

theorem Climb.baseChain_eq (h : c.Climb s bs) (hs : s.displayId ∉ bs.map Schema.displayId) :
    c.baseChain s = bs :=
  h.basesWithin_eq h.length_le fun b hb => by
    rw [List.mem_singleton]
    exact fun e => hs (e ▸ List.mem_map_of_mem hb)

/-- What was followed up to a schema without a base is the walk. -/
theorem climb_basesWithin {bound : Nat} {met : List String}
    (h : c.base? ((c.basesWithin bound met s).getLastD s) = none) :
    c.Climb s (c.basesWithin bound met s) := by
  induction bound generalizing met s with
  | zero => exact .top h
  | succ n ih =>
    unfold basesWithin at h ⊢
    cases hb : c.base? s with
    | none => exact .top hb
    | some b =>
      simp only [hb] at h ⊢
      split at h
      · simp [hb] at h
      · rename_i hmet
        rw [List.getLastD_cons] at h
        rw [if_neg hmet]
        exact .step hb (ih h)

theorem EndsAtTop.climb (h : c.EndsAtTop s) : c.Climb s (c.baseChain s) := climb_basesWithin h

theorem Climb.base?_getLastD (h : c.Climb s bs) : c.base? (bs.getLastD s) = none := by
  induction h with
  | top hb => exact hb
  | step _ _ ih => rwa [List.getLastD_cons]

/-- **One step of the walk**: the chain of a schema is its base followed by the chain
of the base. -/
theorem baseChain_eq_cons (h : c.EndsAtTop s) (hb : c.base? s = some b) :
    c.baseChain s = b :: c.baseChain b ∧ c.EndsAtTop b := by
  generalize hbs : c.baseChain s = bs
  have hclimb := hbs ▸ h.climb
  cases hclimb with
  | top hn => rw [hb] at hn; cases hn
  | @step _ b' bs hb' hc =>
    rw [hb, Option.some.injEq] at hb'
    subst hb'
    obtain ⟨hf, -⟩ := (Climb.step hb hc).of_mem List.mem_cons_self
    have heq := hc.baseChain_eq (hc.displayId_not_mem hf)
    rw [heq]
    exact ⟨rfl, by rw [EndsAtTop, heq]; exact hc.base?_getLastD⟩

theorem baseChain_eq_nil (hb : c.base? s = none) : c.baseChain s = [] :=
  (Climb.top hb).baseChain_eq (by simp)

/-- **Induction from the top down**: over schemas whose walk ends, with the base before
the schemas based on it. -/
@[elab_as_elim]
theorem EndsAtTop.induction {motive : (s : Schema) → c.EndsAtTop s → Prop}
    (top : ∀ s (h : c.EndsAtTop s), c.base? s = none → c.baseChain s = [] → motive s h)
    (step : ∀ s b (h : c.EndsAtTop s) (hend : c.EndsAtTop b), c.base? s = some b →
      c.baseChain s = b :: c.baseChain b → motive b hend → motive s h)
    {s : Schema} (h : c.EndsAtTop s) : motive s h := by
  generalize hbs : c.baseChain s = bs
  induction bs generalizing s with
  | nil =>
    have hb : c.base? s = none := by rwa [EndsAtTop, hbs] at h
    exact top s h hb hbs
  | cons b bs ih =>
    cases hb : c.base? s with
    | none => rw [baseChain_eq_nil hb] at hbs; cases hbs
    | some b' =>
      obtain ⟨heq, hend⟩ := baseChain_eq_cons h hb
      have htail : c.baseChain b' = bs := (List.cons.inj (heq.symm.trans hbs)).2
      exact step s b' h hend hb heq (ih hend htail)

end Catalog

end EntityTypings
