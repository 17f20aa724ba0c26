import EntityTypings.FirstSeen
import EntityTypings.Proofs.CutOffWalk
import EntityTypings.Proofs.EffectiveMembers
import Mathlib.Data.List.Chain
import Mathlib.Data.List.Nodup

/-!
# The longest ascent without a repetition

From a schema one can go up to its base, from there to the base of the base, and so on. On a
catalog where bases lead in a circle this goes on for ever, but only so far without coming to an
id for the second time. The main statement, `baseChain_longest`, is that the chain of bases is
exactly this part of the way: it is an ascent on which no id comes twice, that of the schema
itself included, and every such ascent is a beginning of it.

The chain of a schema is not simply its base followed by the chain of the base, because the latter
may come to the schema itself. It is cut off there (`baseChain_eq_takeWhile`), whether the circle
leads through the schema or the way only ends in a circle.
-/

namespace EntityTypings

namespace Catalog

variable {c : Catalog} {met met' : List String} {s b : Schema} {bs l : List Schema} {id : String}

/-- The schemas `bs` lie above `s`, each of them the base of the one before and the first of them
the base of `s`. -/
def Ascends (c : Catalog) (s : Schema) (bs : List Schema) : Prop :=
  (s :: bs).IsChain (fun t b => c.base? t = some b)

/-- An ascent that comes to no id for the second time. -/
structure DistinctAscent (c : Catalog) (s : Schema) (bs : List Schema) : Prop where
  /-- Each schema is the base of the one before. -/
  ascends : c.Ascends s bs
  /-- No two have the same id, and none has that of the schema at which the ascent starts. -/
  nodup : ((s :: bs).map Schema.displayId).Nodup

theorem ascends_nil : c.Ascends s [] := .singleton s

theorem ascends_cons : c.Ascends s (b :: bs) ↔ c.base? s = some b ∧ c.Ascends b bs :=
  List.isChain_cons_cons

/-! ### A walk as an ascent -/

theorem Walk.ascends (h : c.Walk met s bs) : c.Ascends s bs := by
  induction h with
  | top _ => exact ascends_nil
  | stop _ _ => exact ascends_nil
  | step hb _ _ ih => exact ascends_cons.2 ⟨hb, ih⟩

/-- A walk comes to no id twice, and to none that was met before. -/
theorem Walk.nodup (h : c.Walk met s bs) (hmet : met.Nodup) :
    (bs.map Schema.displayId ++ met).Nodup := by
  induction h with
  | top _ => exact hmet
  | stop _ _ => exact hmet
  | step _ hnew _ ih =>
    have hrest := ih (List.nodup_cons.2 ⟨hnew, hmet⟩)
    rwa [List.perm_middle.nodup_iff] at hrest

/-- An ascent on which nothing is repeated goes no further than the walk. -/
theorem Walk.isPrefix (h : c.Walk met s bs) (hl : c.Ascends s l)
    (hnodup : (l.map Schema.displayId).Nodup) (hmet : ∀ t ∈ l, t.displayId ∉ met) : l <+: bs := by
  induction h generalizing l with
  | top hb =>
    cases l with
    | nil => exact List.nil_prefix
    | cons t l =>
      rw [(ascends_cons.1 hl).1] at hb
      cases hb
  | stop hb hstop =>
    cases l with
    | nil => exact List.nil_prefix
    | cons t l =>
      rw [(ascends_cons.1 hl).1, Option.some.injEq] at hb
      subst hb
      exact absurd hstop (hmet t List.mem_cons_self)
  | step hb _ _ ih =>
    cases l with
    | nil => exact List.nil_prefix
    | cons t l =>
      obtain ⟨ht, hrest⟩ := ascends_cons.1 hl
      rw [ht, Option.some.injEq] at hb
      subst hb
      rw [List.map_cons, List.nodup_cons] at hnodup
      refine (List.prefix_cons_inj t).2 (ih hrest hnodup.2 fun u hu => ?_)
      rw [List.mem_cons, not_or]
      refine ⟨fun heq => hnodup.1 ?_, hmet u (List.mem_cons_of_mem _ hu)⟩
      exact heq ▸ List.mem_map_of_mem hu

/-- With one more id met, a walk stops before the first schema that has it. -/
theorem Walk.takeWhile (h : c.Walk met s bs) (hmet : ∀ i, i ∈ met' ↔ i = id ∨ i ∈ met) :
    c.Walk met' s (bs.takeWhile (fun t => t.displayId ≠ id)) := by
  induction h generalizing met' with
  | top hb => exact .top hb
  | stop hb hstop => exact .stop hb ((hmet _).2 (.inr hstop))
  | @step met s b bs hb hnew _ ih =>
    by_cases hid : b.displayId = id
    · rw [List.takeWhile_cons_of_neg (by simpa using hid)]
      exact .stop hb ((hmet _).2 (.inl hid))
    · rw [List.takeWhile_cons_of_pos (by simpa using hid)]
      refine .step hb (fun hin => ((hmet _).1 hin).elim hid hnew) (ih fun i => ?_)
      rw [List.mem_cons, List.mem_cons, hmet]
      exact or_left_comm

/-- What a walk comes to is what is found under its own id. -/
theorem Walk.find?_displayId (h : c.Walk met s bs) (hb : b ∈ bs) :
    c.find? b.displayId = some b := by
  induction h with
  | top _ => cases hb
  | stop _ _ => cases hb
  | step hbase _ _ ih =>
    rcases List.mem_cons.1 hb with rfl | hb
    · exact find?_displayId_of_base? hbase
    · exact ih hb

/-! ### The chain -/

/-- The chain is an ascent without a repetition. -/
theorem distinctAscent_baseChain (c : Catalog) (s : Schema) :
    c.DistinctAscent s (c.baseChain s) := by
  have hwalk := walk_baseChain c s
  refine ⟨hwalk.ascends, ?_⟩
  have hnodup := hwalk.nodup (List.nodup_singleton _)
  rwa [List.nodup_append_comm] at hnodup

/-- And it is the longest. -/
theorem DistinctAscent.isPrefix (h : c.DistinctAscent s l) : l <+: c.baseChain s := by
  obtain ⟨hself, hnodup⟩ := List.nodup_cons.1 h.nodup
  refine (walk_baseChain c s).isPrefix h.ascends hnodup fun t ht => ?_
  rw [List.mem_singleton]
  exact fun heq => hself (heq ▸ List.mem_map_of_mem ht)

/-- It has no more schemas than there are ids. -/
theorem length_baseChain_le (c : Catalog) (s : Schema) :
    (c.baseChain s).length ≤ (firstSeen (c.schemas.filterMap Schema.id?)).length := by
  have hnodup := (List.nodup_cons.1 (distinctAscent_baseChain c s).nodup).2
  rw [← List.length_map Schema.displayId]
  refine length_le_of_nodup_subset _ hnodup fun i hi => ?_
  obtain ⟨b, hb, rfl⟩ := List.mem_map.1 hi
  have hfind := (walk_baseChain c s).find?_displayId hb
  rw [mem_firstSeen, List.mem_filterMap]
  exact ⟨b, mem_of_find? hfind, id?_of_find? hfind⟩

/-- What is found is the first schema with its id. -/
theorem exists_split_of_find? (h : c.find? id = some b) :
    ∃ before after, c.schemas = before ++ b :: after ∧ b.id? = some id ∧
      ∀ t ∈ before, t.id? ≠ some id := by
  obtain ⟨hid, before, after, hsplit, hbefore⟩ := List.find?_eq_some_iff_append.1 h
  exact ⟨before, after, hsplit, by simpa using hid, fun t ht => by simpa using hbefore t ht⟩

/-- **One step of the chain**: the base of a schema, followed by the chain of the base up to the
schema itself. -/
theorem baseChain_eq_takeWhile (hb : c.base? s = some b) (hne : b.displayId ≠ s.displayId) :
    c.baseChain s = b :: (c.baseChain b).takeWhile (fun t => t.displayId ≠ s.displayId) := by
  have hrest : c.Walk [b.displayId, s.displayId] b
      ((c.baseChain b).takeWhile (fun t => t.displayId ≠ s.displayId)) :=
    (walk_baseChain c b).takeWhile fun i => by simp [or_comm]
  exact (walk_baseChain c s).unique (.step hb (by simpa using hne) hrest)

/-- **The chain of bases, on every catalog.** Going up the bases of a schema until there is none or
until the next id was met comes to an end, with the chain of bases. The chain is the longest
beginning of the way up on which no id comes twice. So it has no more schemas than there are ids, and
each is the first in the catalog with its id; it stops for want of a base, or before an id that is
that of the schema or stands on the chain. Unless its base has its own id, it is the base followed by
the chain of the base up to the schema itself; and the names that are inherited are those of the
properties on the chain. -/
theorem baseChain_longest (c : Catalog) (s : Schema) :
    let chain := c.baseChain s
    c.Walk [s.displayId] s chain ∧
    c.DistinctAscent s chain ∧ (∀ bs, c.DistinctAscent s bs → bs <+: chain) ∧
    chain.length ≤ (firstSeen (c.schemas.filterMap Schema.id?)).length ∧
    (∀ b ∈ chain, ∃ before after, c.schemas = before ++ b :: after ∧
      b.id? = some b.displayId ∧ ∀ t ∈ before, t.id? ≠ some b.displayId) ∧
    (c.base? (chain.getLastD s) = none ∨ ∃ b, c.base? (chain.getLastD s) = some b ∧
      (b.displayId = s.displayId ∨ ∃ t ∈ chain, t.displayId = b.displayId)) ∧
    (∀ b, c.base? s = some b → b.displayId ≠ s.displayId →
      chain = b :: (c.baseChain b).takeWhile (fun t => t.displayId ≠ s.displayId)) ∧
    ∀ name, name ∈ c.chainNames s ↔ ∃ b ∈ chain, name ∈ b.properties.names := by
  intro chain
  have hwalk : c.Walk [s.displayId] s chain := walk_baseChain c s
  refine ⟨hwalk, distinctAscent_baseChain c s, fun bs hbs => hbs.isPrefix, length_baseChain_le c s,
    fun b hb => exists_split_of_find? (hwalk.find?_displayId hb), ?_,
    fun b hb hne => baseChain_eq_takeWhile hb hne, fun name => List.mem_flatMap⟩
  cases hb : c.base? (chain.getLastD s) with
  | none => exact .inl rfl
  | some b =>
    have hstop := hwalk.displayId_mem List.getLastD_mem_cons hb
    rw [List.mem_singleton] at hstop
    exact .inr ⟨b, rfl, hstop⟩

/-- A schema whose bases lead back to it. -/
def circledShot : Schema := .plain "Shot" (some "Scene") [("fps", textDescriptor)]

/-- Three schemas in a circle, with a second one under the id of one of them. -/
def circle : Catalog :=
  ⟨[circledShot, .plain "Scene" (some "Take") [("name", textDescriptor)],
    .plain "Take" (some "Shot") [("_size", textDescriptor)], .plain "Scene" none []]⟩

/-- The chain of the base comes to the schema, and the chain of the schema stops before it. A
schema that the catalog does not have comes to all three. -/
theorem baseChain_of_circle :
    ∃ scene, circle.base? circledShot = some scene ∧ scene.displayId ≠ circledShot.displayId ∧
      (circle.baseChain scene).map Schema.displayId = ["Take", "Shot"] ∧
      circle.baseChain circledShot =
        scene :: (circle.baseChain scene).takeWhile (fun t => t.displayId ≠ "Shot") ∧
      circle.DistinctAscent circledShot [scene] ∧ [scene] <+: circle.baseChain circledShot ∧
      (circle.baseChain (.plain "Clip" (some "Shot") [])).map Schema.displayId =
        ["Shot", "Scene", "Take"] := by
  obtain ⟨-, -, hlongest, -, -, -, hstep, -⟩ := baseChain_longest circle circledShot
  obtain ⟨scene, hbase⟩ : ∃ scene, circle.base? circledShot = some scene := ⟨_, rfl⟩
  have hscene : scene = .plain "Scene" (some "Take") [("name", textDescriptor)] :=
    (Option.some.inj hbase).symm
  have hne : scene.displayId ≠ circledShot.displayId := by
    rw [hscene]
    decide
  have hascent : circle.DistinctAscent circledShot [scene] :=
    ⟨ascends_cons.2 ⟨hbase, ascends_nil⟩, by rw [hscene]; decide⟩
  exact ⟨scene, hbase, hne, by rw [hscene]; decide, hstep scene hbase hne, hascent,
    hlongest _ hascent, by decide⟩

end Catalog

end EntityTypings
