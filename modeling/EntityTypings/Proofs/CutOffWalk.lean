import EntityTypings.Catalog

/-!
# Where the walk up the bases stops

`baseChain` follows the bases of a schema no more often than there are schemas. The bound
does not show: every base that is followed has an id that was not met before, so that the
walk stops earlier, for want of a base or before an id that it has met. `Catalog.Walk` is
the walk without the bound, and the chain is the one walk there is (`walk_baseChain`,
`Walk.unique`), on every catalog, whether or not bases lead in a circle.

So a chain depends on nothing but the bases of the schemas on it (`baseChain_eq_of_base?`), and
of the base before which it stops, on nothing but the id.
-/

namespace EntityTypings

namespace Catalog

variable {c c' : Catalog} {met : List String} {s b : Schema} {bs bs' : List Schema}

/-- The bases of `s`, up to one that has no base itself or whose base has an id that was met,
be it before `s` or on the way, are `bs`. -/
inductive Walk (c : Catalog) : (met : List String) → Schema → List Schema → Prop where
  /-- There is no base. -/
  | top {met : List String} {s : Schema} : c.base? s = none → Walk c met s []
  /-- There is one, but its id was met before. -/
  | stop {met : List String} {s b : Schema} : c.base? s = some b → b.displayId ∈ met →
      Walk c met s []
  /-- There is one, and its id is new. -/
  | step {met : List String} {s b : Schema} {bs : List Schema} : c.base? s = some b →
      b.displayId ∉ met → Walk c (b.displayId :: met) b bs → Walk c met s (b :: bs)

/-- There is one walk at most. -/
theorem Walk.unique (h : c.Walk met s bs) (h' : c.Walk met s bs') : bs = bs' := by
  induction h generalizing bs' with
  | top hb =>
    cases h' with
    | top | stop => rfl
    | step hb' => rw [hb] at hb'; cases hb'
  | stop hb hmet =>
    cases h' with
    | top | stop => rfl
    | step hb' hnew =>
      rw [hb, Option.some.injEq] at hb'
      exact absurd (hb' ▸ hmet) hnew
  | step hb hnew _ ih =>
    cases h' with
    | top hb' => rw [hb] at hb'; cases hb'
    | stop hb' hmet =>
      rw [hb, Option.some.injEq] at hb'
      exact absurd (hb' ▸ hmet) hnew
    | step hb' _ hrest =>
      rw [hb, Option.some.injEq] at hb'
      subst hb'
      rw [ih hrest]

/-! ### The bound -/

/-- The schemas of the catalog whose ids were not met. -/
def unmet (c : Catalog) (met : List String) : List Schema :=
  c.schemas.filter (fun s => s.displayId ∉ met)

/-- A base whose id is new leaves fewer schemas to come to. -/
theorem length_unmet_lt (hb : c.base? s = some b) (hnew : b.displayId ∉ met) :
    (c.unmet (b.displayId :: met)).length < (c.unmet met).length := by
  obtain ⟨i, -, hi⟩ := base?_eq_some_iff.1 hb
  have hmem : b ∈ c.unmet met := List.mem_filter.2 ⟨mem_of_find? hi, by simpa using hnew⟩
  have hrest : c.unmet (b.displayId :: met) =
      (c.unmet met).filter (fun t => t.displayId ≠ b.displayId) := by
    simp [unmet, List.filter_filter]
  rw [hrest, List.length_filter_lt_length_iff_exists]
  exact ⟨b, hmem, by simp⟩

/-- What is followed within a bound is the walk, if the bound allows for every schema that
was not met. -/
theorem walk_basesWithin {bound : Nat} (hbound : (c.unmet met).length ≤ bound) :
    c.Walk met s (c.basesWithin bound met s) := by
  induction bound generalizing met s with
  | zero =>
    cases hb : c.base? s with
    | none => exact .top hb
    | some b =>
      by_cases hmet : b.displayId ∈ met
      · exact .stop hb hmet
      · exact absurd (length_unmet_lt hb hmet) (by omega)
  | succ n ih =>
    unfold basesWithin
    cases hb : c.base? s with
    | none => exact .top hb
    | some b =>
      by_cases hmet : b.displayId ∈ met
      · simpa [hmet] using Walk.stop hb hmet
      · have hlt := length_unmet_lt hb hmet
        simpa [hmet] using Walk.step hb hmet (ih (by omega))

/-- **The chain is the walk**, which starts with the id of the schema itself as met. -/
theorem walk_baseChain (c : Catalog) (s : Schema) : c.Walk [s.displayId] s (c.baseChain s) :=
  walk_basesWithin (List.length_filter_le _ _)

/-! ### What the chain depends on -/

/-- The id of a base of a schema on the walk was met or stands on the walk itself. -/
theorem Walk.displayId_mem (h : c.Walk met s bs) {t : Schema} (ht : t ∈ s :: bs)
    (hb : c.base? t = some b) : b.displayId ∈ met ∨ ∃ u ∈ bs, u.displayId = b.displayId := by
  induction h with
  | top hnone =>
    rw [List.mem_singleton.1 ht, hnone] at hb
    cases hb
  | stop hb' hmet =>
    rw [List.mem_singleton.1 ht, hb', Option.some.injEq] at hb
    exact .inl (hb ▸ hmet)
  | @step met s b' bs hb' _ _ ih =>
    rcases List.mem_cons.1 ht with rfl | ht
    · rw [hb', Option.some.injEq] at hb
      exact .inr ⟨b', List.mem_cons_self, congrArg Schema.displayId hb⟩
    · rcases ih ht with hmet | ⟨u, hu, hid⟩
      · rcases List.mem_cons.1 hmet with hself | hmet
        · exact .inr ⟨b', List.mem_cons_self, hself.symm⟩
        · exact .inl hmet
      · exact .inr ⟨u, List.mem_cons_of_mem _ hu, hid⟩

/-- Another catalog has the same walk where the bases of the schemas on it have the same ids,
and those that are on the walk themselves are the same. A base that is not on the walk has an id
that was met, and no more of it than the id counts. -/
theorem Walk.of_base? (h : c.Walk met s bs)
    (hid : ∀ t ∈ s :: bs, (c'.base? t).map Schema.displayId = (c.base? t).map Schema.displayId)
    (hbase : ∀ t ∈ s :: bs, ∀ b ∈ bs, c.base? t = some b → c'.base? t = some b) :
    c'.Walk met s bs := by
  induction h with
  | @top _ s hb =>
    have hs := hid s List.mem_cons_self
    rw [hb, Option.map_none, Option.map_eq_none_iff] at hs
    exact .top hs
  | @stop _ s b hb hmet =>
    have hs := hid s List.mem_cons_self
    rw [hb, Option.map_some, Option.map_eq_some_iff] at hs
    obtain ⟨b', hb', hsame⟩ := hs
    exact .stop hb' (hsame ▸ hmet)
  | @step _ s b bs hb hnew _ ih =>
    have hs := hbase s List.mem_cons_self b List.mem_cons_self hb
    refine .step hs hnew (ih (fun t ht => hid t (List.mem_cons_of_mem _ ht)) ?_)
    exact fun t ht b' hb' => hbase t (List.mem_cons_of_mem _ ht) b' (List.mem_cons_of_mem _ hb')

theorem baseChain_eq_of_base?
    (hid : ∀ t ∈ s :: c.baseChain s,
      (c'.base? t).map Schema.displayId = (c.base? t).map Schema.displayId)
    (hbase : ∀ t ∈ s :: c.baseChain s, ∀ b ∈ c.baseChain s,
      c.base? t = some b → c'.base? t = some b) :
    c'.baseChain s = c.baseChain s :=
  (walk_baseChain c' s).unique ((walk_baseChain c s).of_base? hid hbase)

/-- Where the schemas on it have the same bases, another catalog has the same chain. -/
theorem baseChain_eq_of_base?_eq (h : ∀ t ∈ s :: c.baseChain s, c'.base? t = c.base? t) :
    c'.baseChain s = c.baseChain s :=
  baseChain_eq_of_base? (fun t ht => congrArg _ (h t ht)) fun t ht _ _ hb => (h t ht).trans hb

end Catalog

end EntityTypings
