/-!
# Maps keyed by name

A `NameMap` keeps one value per name and lists its entries in increasing
order of name, by code point. The properties of a schema are such a map, so
the order in which a schema's properties are declared does not depend on how
the catalog listed them.

The invariant is part of the type: `sorted` says that names strictly increase,
so a name never occurs twice. Of two values given for one name the later wins
(`ofList`).
-/

namespace EntityTypings

/-- In a list with distinct keys, a key has the value that stands with it. -/
theorem lookup_eq_some_of_mem {α β : Type} [DecidableEq α] {l : List (α × β)} {k : α} {v : β}
    (hkeys : (l.map Prod.fst).Nodup) (h : (k, v) ∈ l) : l.lookup k = some v := by
  obtain ⟨before, after, rfl⟩ := List.append_of_mem h
  refine List.lookup_eq_some_iff.2 ⟨before, after, rfl, fun p hp => bne_iff_ne.2 ?_⟩
  rw [List.map_append, List.nodup_append] at hkeys
  exact (hkeys.2.2 p.1 (List.mem_map_of_mem hp) k (by simp)).symm

/-- Values by name, in strictly increasing order of name. -/
structure NameMap (α : Type) where
  /-- The names with their values. -/
  entries : List (String × α)
  /-- Names strictly increase. -/
  sorted : entries.Pairwise (fun a b => a.1 < b.1)

namespace NameMap

variable {α β : Type}

/-! ### Inserting into a sorted list -/

/-- Puts a value under a name into a list sorted by name, replacing the value
that the name had. -/
def insertSorted (name : String) (value : α) : List (String × α) → List (String × α)
  | [] => [(name, value)]
  | (n, v) :: rest =>
    if name < n then (name, value) :: (n, v) :: rest
    else if name = n then (name, value) :: rest
    else (n, v) :: insertSorted name value rest

theorem mem_insertSorted {name : String} {value : α} {entries : List (String × α)}
    {e : String × α} (h : e ∈ insertSorted name value entries) :
    e = (name, value) ∨ e ∈ entries := by
  induction entries with
  | nil => simpa [insertSorted] using h
  | cons x rest ih =>
    obtain ⟨n, v⟩ := x
    unfold insertSorted at h
    split at h
    · simpa using h
    · split at h
      · rcases List.mem_cons.1 h with h | h
        · exact .inl h
        · exact .inr (List.mem_cons_of_mem _ h)
      · rcases List.mem_cons.1 h with h | h
        · exact .inr (h ▸ List.mem_cons_self)
        · rcases ih h with h | h
          · exact .inl h
          · exact .inr (List.mem_cons_of_mem _ h)

theorem sorted_insertSorted (name : String) (value : α) {entries : List (String × α)}
    (h : entries.Pairwise (fun a b => a.1 < b.1)) :
    (insertSorted name value entries).Pairwise (fun a b => a.1 < b.1) := by
  induction entries with
  | nil => simp [insertSorted]
  | cons x rest ih =>
    obtain ⟨n, v⟩ := x
    rw [List.pairwise_cons] at h
    unfold insertSorted
    split
    · rename_i hlt
      rw [List.pairwise_cons, List.pairwise_cons]
      refine ⟨fun e he => ?_, h⟩
      rcases List.mem_cons.1 he with rfl | he
      · exact hlt
      · exact String.lt_trans hlt (h.1 e he)
    · split
      · rename_i heq
        rw [List.pairwise_cons]
        exact ⟨fun e he => heq ▸ h.1 e he, h.2⟩
      · rename_i hlt hne
        rw [List.pairwise_cons]
        refine ⟨fun e he => ?_, ih h.2⟩
        rcases mem_insertSorted he with rfl | he
        · exact Std.lt_of_le_of_ne (String.not_lt.1 hlt) (Ne.symm hne)
        · exact h.1 e he

/-- Replacing a value keeps the names. The list has to be sorted, because only in order is
the name looked for. -/
theorem map_fst_insertSorted_of_mem {name : String} (value : α) {entries : List (String × α)}
    (h : entries.Pairwise (fun a b => a.1 < b.1)) (hname : name ∈ entries.map Prod.fst) :
    (insertSorted name value entries).map Prod.fst = entries.map Prod.fst := by
  induction entries with
  | nil => cases hname
  | cons x rest ih =>
    obtain ⟨n, v⟩ := x
    rw [List.pairwise_cons] at h
    unfold insertSorted
    split
    · rename_i hlt
      rcases List.mem_cons.1 hname with heq | hrest
      · exact absurd hlt (heq ▸ String.lt_irrefl n)
      · obtain ⟨e, he, rfl⟩ := List.mem_map.1 hrest
        exact absurd (String.lt_trans hlt (h.1 e he)) (String.lt_irrefl e.1)
    · split
      · rename_i heq
        rw [heq]
        rfl
      · rename_i hne
        rw [List.map_cons, List.map_cons, ih h.2 ((List.mem_cons.1 hname).resolve_left hne)]

/-- The entries of other names stay as they are. -/
theorem filter_insertSorted {name : String} (value : α) {q : String → Bool}
    (hq : q name = false) (entries : List (String × α)) :
    (insertSorted name value entries).filter (fun e => q e.1) =
      entries.filter (fun e => q e.1) := by
  induction entries with
  | nil => simp [insertSorted, hq]
  | cons x rest ih =>
    obtain ⟨n, v⟩ := x
    unfold insertSorted
    split
    · rw [List.filter_cons_of_neg (by simp [hq])]
    · split
      · rename_i heq
        subst heq
        rw [List.filter_cons_of_neg (by simp [hq]), List.filter_cons_of_neg (by simp [hq])]
      · rw [List.filter_cons, List.filter_cons, ih]

/-! ### The map -/

/-- The map without entries. -/
def empty : NameMap α := ⟨[], .nil⟩

instance : Inhabited (NameMap α) := ⟨empty⟩

/-- The map in which `name` has `value` and all other names are as before. -/
def insert (m : NameMap α) (name : String) (value : α) : NameMap α :=
  ⟨insertSorted name value m.entries, sorted_insertSorted name value m.sorted⟩

/-- The map of a list of entries; the last entry of a name wins. -/
def ofList (entries : List (String × α)) : NameMap α :=
  entries.foldl (fun m e => m.insert e.1 e.2) empty

/-- The names of the map, in increasing order. -/
def names (m : NameMap α) : List String := m.entries.map Prod.fst

/-- The value of a name. -/
def get? (m : NameMap α) (name : String) : Option α := m.entries.lookup name

/-- Whether the map has a value for the name. -/
def contains (m : NameMap α) (name : String) : Bool := m.names.contains name

@[simp] theorem contains_iff {m : NameMap α} {name : String} :
    m.contains name = true ↔ name ∈ m.names := by
  simp [contains]

/-- Giving a name that is there another value keeps the names. -/
theorem names_insert_of_mem {m : NameMap α} {name : String} (value : α) (h : name ∈ m.names) :
    (m.insert name value).names = m.names :=
  map_fst_insertSorted_of_mem value m.sorted h

theorem ext_entries {m m' : NameMap α} (h : m.entries = m'.entries) : m = m' := by
  cases m; cases m'; cases h; rfl

/-! ### Maps of sorted entries -/

/-- A name beyond those of the list comes last. -/
theorem insertSorted_eq_append {name : String} (value : α) {entries : List (String × α)}
    (h : ∀ e ∈ entries, e.1 < name) :
    insertSorted name value entries = entries ++ [(name, value)] := by
  induction entries with
  | nil => rfl
  | cons x rest ih =>
    have hx : x.1 < name := h x List.mem_cons_self
    have hrest := ih fun e he => h e (List.mem_cons_of_mem _ he)
    rw [insertSorted, if_neg (String.lt_asymm hx), if_neg (String.ne_of_lt hx).symm, hrest]
    rfl

/-- The entries of a map make the map, as they are in order and no name is repeated. -/
@[simp] theorem ofList_entries (m : NameMap α) : ofList m.entries = m := by
  have hfold : ∀ (l : List (String × α)) (start : NameMap α),
      (start.entries ++ l).Pairwise (fun a b => a.1 < b.1) →
        (l.foldl (fun m e => m.insert e.1 e.2) start).entries = start.entries ++ l := by
    intro l
    induction l with
    | nil => simp
    | cons e rest ih =>
      intro start hsorted
      have hbefore : ∀ x ∈ start.entries, x.1 < e.1 := fun x hx =>
        (List.pairwise_append.1 hsorted).2.2 x hx e List.mem_cons_self
      have hinsert : (start.insert e.1 e.2).entries = start.entries ++ [e] :=
        insertSorted_eq_append e.2 hbefore
      rw [List.append_cons, ← hinsert] at hsorted
      rw [List.foldl_cons, ih _ hsorted, hinsert, ← List.append_cons]
  exact ext_entries (hfold m.entries empty m.sorted)

/-- A map of a list has no entries but those of the list. -/
theorem mem_of_mem_ofList {l : List (String × α)} {e : String × α} (h : e ∈ (ofList l).entries) :
    e ∈ l := by
  have hfold : ∀ (l : List (String × α)) (start : NameMap α),
      e ∈ (l.foldl (fun m e => m.insert e.1 e.2) start).entries → e ∈ start.entries ∨ e ∈ l := by
    intro l
    induction l with
    | nil => exact fun _ h => .inl h
    | cons x rest ih =>
      intro start h
      rcases ih _ h with hinsert | hrest
      · rcases mem_insertSorted hinsert with rfl | hstart
        · exact .inr List.mem_cons_self
        · exact .inl hstart
      · exact .inr (List.mem_cons_of_mem _ hrest)
  exact (hfold l empty h).resolve_left List.not_mem_nil

end NameMap

end EntityTypings
