import EntityTypings.Proofs.WrittenStatements

/-!
# Documents that are written

What is written for sections is a document, and the document has the sections as its tables, each
entry with its value (`parse_render`), if their names can stand without quotes and are told apart.

The text is read as statements. Making a document of them adds one table after the other, and
nothing in it is set or opened twice (`foldlM_step?_sections`). No table stands for a date, as the
names of such tables cannot stand without quotes.
-/

namespace EntityTypings.Toml

open Reader Writer Section

/-! ### Making the document -/

namespace Entries

variable {name : String} {n : Node} {t : Entries}

theorem lookup_eq_none_of_not_mem (h : name ∉ t.map Prod.fst) : t.lookup name = none := by
  rw [List.lookup_eq_none_iff]
  intro e he
  have hne : name ≠ e.1 := fun heq => h (heq ▸ List.mem_map_of_mem he)
  simpa using hne

theorem put_of_not_mem (h : name ∉ t.map Prod.fst) : t.put name n = t ++ [(name, n)] := by
  induction t with
  | nil => rfl
  | cons e t ih =>
    obtain ⟨k, old⟩ := e
    rw [List.map_cons, List.mem_cons, not_or] at h
    rw [put, if_neg (Ne.symm h.1), ih h.2]
    rfl

/-- Setting the last entry again replaces it. -/
theorem put_append_singleton (h : name ∉ t.map Prod.fst) (old : Node) :
    put name n (t ++ [(name, old)]) = t ++ [(name, n)] := by
  induction t with
  | nil =>
    rw [List.nil_append, put, if_pos rfl]
    rfl
  | cons e t ih =>
    obtain ⟨k, v⟩ := e
    rw [List.map_cons, List.mem_cons, not_or] at h
    rw [List.cons_append, put, if_neg (Ne.symm h.1), ih h.2]
    rfl

theorem lookup_append_singleton (h : name ∉ t.map Prod.fst) :
    (t ++ [(name, n)]).lookup name = some n := by
  rw [List.lookup_append, lookup_eq_none_of_not_mem h]
  simp

end Entries

/-- The entry of a key in a table that is being read. -/
def Section.entryNode (e : String × Plain) : String × Node := (e.1, .value e.2.toToml)

/-- The entry of a section in the document that is being read. -/
def Section.node (s : Section) : String × Node :=
  (s.name, .table .header (s.entries.map entryNode))

namespace Draft

variable {t : Entries} {name : String}

/-- A key is set in the table that was opened last. -/
theorem step?_assignment (hname : name ∉ t.map Prod.fst) {u : Entries} {e : String × Plain}
    (he : e.1 ∉ u.map Prod.fst) :
    step? ⟨t ++ [(name, .table .header u)], [name]⟩ (assignment e) =
      some ⟨t ++ [(name, .table .header (u ++ [entryNode e]))], [name]⟩ := by
  have hdefine : Entries.assign? [] e.1 e.2.toToml u = some (u ++ [entryNode e]) := by
    rw [Entries.assign?, Entries.define?, Entries.lookup_eq_none_of_not_mem he]
    rfl
  simp only [step?, assignment, Entries.within?, Entries.lookup_append_singleton hname, hdefine,
    Option.map_some, Entries.put_append_singleton hname]

theorem foldlM_step?_assignments (hname : name ∉ t.map Prod.fst) (es : List (String × Plain))
    {u : Entries} (hnodup : (u.map Prod.fst ++ es.map Prod.fst).Nodup) :
    (es.map assignment).foldlM step? ⟨t ++ [(name, .table .header u)], [name]⟩ =
      some ⟨t ++ [(name, .table .header (u ++ es.map entryNode))], [name]⟩ := by
  induction es generalizing u with
  | nil => simp
  | cons e es ih =>
    have he : e.1 ∉ u.map Prod.fst := fun hmem =>
      (List.nodup_append.1 hnodup).2.2 _ hmem _ List.mem_cons_self rfl
    have hlater : ((u ++ [entryNode e]).map Prod.fst ++ es.map Prod.fst).Nodup := by
      simpa [entryNode] using hnodup
    rw [List.map_cons, List.foldlM_cons, step?_assignment hname he, Option.bind_eq_bind,
      Option.bind_some, ih hlater, List.append_assoc]
    rfl

/-- The statements of a section add its table to the document. -/
theorem foldlM_step?_section {s : Section} (hs : s.IsWritable) (hname : s.name ∉ t.map Prod.fst)
    (current : List String) :
    s.statements.foldlM step? ⟨t, current⟩ = some ⟨t ++ [s.node], [s.name]⟩ := by
  have hopen : step? ⟨t, current⟩ (.header ⟨[], s.name⟩) =
      some ⟨t ++ [(s.name, .table .header [])], [s.name]⟩ := by
    simp only [step?, Entries.within?, Entries.openTable?,
      Entries.lookup_eq_none_of_not_mem hname, Entries.put_of_not_mem hname, Option.map_some]
    rfl
  rw [Section.statements, List.foldlM_cons, hopen, Option.bind_eq_bind, Option.bind_some,
    foldlM_step?_assignments hname s.entries (u := []) hs.nodup]
  rfl

/-- The statements of sections add their tables, one after the other. -/
theorem foldlM_step?_sections {sections : List Section} (h : ∀ s ∈ sections, s.IsWritable)
    (hnodup : (t.map Prod.fst ++ sections.map Section.name).Nodup) (current : List String) :
    ∃ current', (sections.flatMap Section.statements).foldlM step? ⟨t, current⟩ =
      some ⟨t ++ sections.map Section.node, current'⟩ := by
  induction sections generalizing t current with
  | nil => exact ⟨current, by simp⟩
  | cons s sections ih =>
    have hname : s.name ∉ t.map Prod.fst := fun hmem =>
      (List.nodup_append.1 hnodup).2.2 _ hmem _ List.mem_cons_self rfl
    have hlater : ((t ++ [s.node]).map Prod.fst ++ sections.map Section.name).Nodup := by
      simpa [Section.node] using hnodup
    obtain ⟨current', hfold⟩ := ih (fun u hu => h u (List.mem_cons_of_mem _ hu)) hlater [s.name]
    refine ⟨current', ?_⟩
    rw [List.flatMap_cons, List.foldlM_append,
      foldlM_step?_section (h s List.mem_cons_self) hname current, Option.bind_eq_bind,
      Option.bind_some, hfold, List.append_assoc]
    rfl

end Draft

theorem completeEntries_entryNode (es : List (String × Plain)) :
    completeEntries (es.map entryNode) = es.map fun e => (e.1, e.2.toToml) := by
  induction es with
  | nil => rfl
  | cons e es ih =>
    rw [List.map_cons, List.map_cons, ← ih]
    rfl

theorem completeEntries_node (sections : List Section) :
    completeEntries (sections.map Section.node) =
      sections.map fun s => (s.name, s.toToml) := by
  induction sections with
  | nil => rfl
  | cons s sections ih =>
    rw [List.map_cons, List.map_cons, ← ih, Section.toToml, ← completeEntries_entryNode]
    rfl

/-- The statements of sections make the document of their tables. -/
theorem ofStatements?_sections {sections : List Section} (h : ∀ s ∈ sections, s.IsWritable)
    (hnodup : (sections.map Section.name).Nodup) :
    ofStatements? (sections.flatMap Section.statements) =
      some (sections.map fun s => (s.name, s.toToml)) := by
  obtain ⟨current, hfold⟩ := Draft.foldlM_step?_sections (t := []) h hnodup []
  rw [ofStatements?, hfold, Option.map_some, List.nil_append, completeEntries_node]

/-! ### Tables that are no dates -/

/-- A name that can stand without quotes is not that of a date. -/
theorem IsBareName.ne_dateKey {name : String} (h : IsBareName name) : name ≠ dateKey := by
  have hdollar : '$' ∈ dateKey.toList := by decide
  rintro rfl
  exact absurd (h.2 _ hdollar) (by decide)

theorem dated?_plain (v : Plain) : dated? v.toToml = some v.toToml := by
  cases v with
  | string s => rfl
  | boolean b => rfl
  | strings ss =>
    have hitems : datedItems? (ss.map .string) = some (ss.map .string) := by
      induction ss with
      | nil => rfl
      | cons s ss ih =>
        rw [List.map_cons, datedItems?, ih]
        rfl
    rw [Plain.toToml, dated?, hitems, Option.map_some]

/-- A table is no date if its names are none of dates, and neither are its values. -/
theorem dated?_table {es : List (String × Toml)}
    (h : ∀ e ∈ es, IsBareName e.1 ∧ dated? e.2 = some e.2) :
    dated? (.table es) = some (.table es) := by
  have hentries {es : List (String × Toml)} (h : ∀ e ∈ es, dated? e.2 = some e.2) :
      datedEntries? es = some es := by
    induction es with
    | nil => rfl
    | cons e es ih =>
      have hlater := ih fun e' he' => h e' (List.mem_cons_of_mem _ he')
      simp only [datedEntries?, h e List.mem_cons_self, hlater]
  cases es with
  | nil => rfl
  | cons e es =>
    obtain ⟨hname, hvalue⟩ := h e List.mem_cons_self
    have hlater := hentries fun e' he' => (h e' (List.mem_cons_of_mem _ he')).2
    simp only [dated?, if_neg hname.ne_dateKey, hvalue, hlater]

theorem datedDocument?_sections {sections : List Section} (h : ∀ s ∈ sections, s.IsWritable) :
    datedDocument? (sections.map fun s => (s.name, s.toToml)) =
      some (sections.map fun s => (s.name, s.toToml)) := by
  have hsection (s : Section) (hs : s.IsWritable) : dated? s.toToml = some s.toToml := by
    refine dated?_table fun e he => ?_
    obtain ⟨e', he', rfl⟩ := List.mem_map.1 he
    exact ⟨hs.names e' he', dated?_plain e'.2⟩
  have htable : ∀ e ∈ sections.map fun s => (s.name, s.toToml),
      IsBareName e.1 ∧ dated? e.2 = some e.2 := by
    intro e he
    obtain ⟨s, hs, rfl⟩ := List.mem_map.1 he
    exact ⟨(h s hs).name, hsection s (h s hs)⟩
  rw [datedDocument?, dated?_table htable]

/-! ### Whole documents -/

/-- No mark stands at the start of what is written. -/
theorem render_ne_mark (sections : List Section) (rest : List Char) :
    (render sections).toList ≠ '\uFEFF' :: rest := by
  rw [render, String.toList_intercalate]
  cases sections with
  | nil =>
    intro h
    cases h
  | cons s sections =>
    have hblock (later : List Char) : (block s).toList ++ later ≠ '\uFEFF' :: rest := by
      rw [toList_block]
      intro h
      exact absurd (List.cons.inj h).1 (by decide)
    cases sections with
    | nil => simpa using hblock []
    | cons s' sections =>
      rw [List.map_cons, List.map_cons, List.map_cons, List.map_cons, List.intercalate_cons_cons,
        List.append_assoc]
      exact hblock _

/-- **A document is read as it is written.** -/
theorem parse_render {sections : List Section} (h : ∀ s ∈ sections, s.IsWritable)
    (hnodup : (sections.map Section.name).Nodup) :
    parse (render sections) = some (sections.map fun s => (s.name, s.toToml)) := by
  have hstatements := (lists_render h).statements_eq (Nat.lt_add_one _)
  unfold parse
  split
  · rename_i hmark
    exact absurd hmark (render_ne_mark sections _)
  · simp only [hstatements, Option.bind_eq_bind, Option.bind_some,
      ofStatements?_sections h hnodup]
    exact datedDocument?_sections h

end EntityTypings.Toml
