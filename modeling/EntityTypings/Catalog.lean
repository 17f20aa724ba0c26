import EntityTypings.Schema.Basic

/-!
# Catalogs

The schemas of one run, looked up by id, and the bases of a schema.

Of several schemas with one id only the first can be found, and a schema
without an id cannot be found at all. A schema can name its base; a name that is
not found means that there is no base. `baseChain` follows the bases upwards
and stops before an id that it has already met, so it ends on every catalog.
-/

namespace EntityTypings

/-- The schemas of one run, in the order of the catalog. -/
structure Catalog where
  /-- The schemas. -/
  schemas : List Schema

namespace Catalog

/-- The first schema with the given id. -/
def find? (c : Catalog) (id : String) : Option Schema :=
  c.schemas.find? (fun s => s.id? = some id)

/-- The root of the context family, if the catalog has one. -/
def root? (c : Catalog) : Option Schema := c.find? Schema.rootId

/-- The schema that a schema is based on. -/
def base? (c : Catalog) (s : Schema) : Option Schema := s.base.bind c.find?

/-- What is found has the id that was looked for. -/
theorem id?_of_find? {c : Catalog} {id : String} {s : Schema} (h : c.find? id = some s) :
    s.id? = some id := by
  simpa using List.find?_some h

/-- What is found is in the catalog. -/
theorem mem_of_find? {c : Catalog} {id : String} {s : Schema} (h : c.find? id = some s) :
    s ∈ c.schemas :=
  List.mem_of_find?_eq_some h

/-- Where every id is given once, a schema is what its id finds. -/
theorem find?_eq_some_of_mem {c : Catalog} {s : Schema} {id : String}
    (hids : (c.schemas.filterMap Schema.id?).Nodup) (hs : s ∈ c.schemas) (hid : s.id? = some id) :
    c.find? id = some s := by
  obtain ⟨l⟩ := c
  simp only [find?] at hids hs ⊢
  induction l with
  | nil => cases hs
  | cons t rest ih =>
    rcases List.mem_cons.1 hs with rfl | hs
    · rw [List.find?_cons_of_pos (by simp [hid])]
    · have hmem : id ∈ rest.filterMap Schema.id? := List.mem_filterMap.2 ⟨s, hs, hid⟩
      cases ht : t.id? with
      | none =>
        rw [List.filterMap_cons_none ht] at hids
        rw [List.find?_cons_of_neg (by simp [ht]), ih hids hs]
      | some i =>
        rw [List.filterMap_cons_some ht, List.nodup_cons] at hids
        have hne : i ≠ id := fun e => hids.1 (e ▸ hmem)
        rw [List.find?_cons_of_neg (by simp [ht, hne]), ih hids.2 hs]

/-- A base is found under the id that the schema names. -/
theorem base?_eq_some_iff {c : Catalog} {s b : Schema} :
    c.base? s = some b ↔ ∃ i, s.base = some i ∧ c.find? i = some b := by
  simp [base?, Option.bind_eq_some_iff]

/-! ### The chain of bases -/

/-- The bases of `s` upwards, at most `bound` of them, stopping before an id in `met`. -/
def basesWithin (c : Catalog) : (bound : Nat) → (met : List String) → Schema → List Schema
  | 0, _, _ => []
  | bound + 1, met, s =>
    match c.base? s with
    | none => []
    | some b =>
      if b.displayId ∈ met then []
      else b :: basesWithin c bound (b.displayId :: met) b

/-- The bases of a schema from the immediate one upwards. Each of them is found
under an id of its own, so there are no more of them than schemas. -/
def baseChain (c : Catalog) (s : Schema) : List Schema :=
  c.basesWithin c.schemas.length [s.displayId] s

/-! ### Inherited names -/

/-- The names that the bases of a schema declare, deprecated ones included. -/
def chainNames (c : Catalog) (s : Schema) : List String :=
  (c.baseChain s).flatMap (fun b => b.properties.names)

/-- The names that a schema does not declare again: those of the root for a
subtype, if there is a root, and those of the bases otherwise. -/
def inheritedNames (c : Catalog) (s : Schema) : List String :=
  if s.isSubtype then
    match c.root? with
    | some root => root.properties.names
    | none => c.chainNames s
  else c.chainNames s

/-- A schema that is no subtype inherits the names of its bases. -/
theorem inheritedNames_of_not_isSubtype {c : Catalog} {s : Schema} (h : s.isSubtype = false) :
    c.inheritedNames s = c.chainNames s := by
  simp [inheritedNames, h]

end Catalog

end EntityTypings
