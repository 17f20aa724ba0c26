import EntityTypings.Generation
import EntityTypings.Proofs.Resolution

/-!
# What a run declares

`declareAll` goes through the schemas and stops at the first that cannot be
declared. Here its outcome is said schema by schema: what each one fails with
(`failure?`), what is declared for it (`declared?`) and what is reported for it
(`found`), none of which depends on the schemas before it (`declareAll_eq`).

For the declarations of a source the main statement is `covers_of_generate`: an
id names a declaration exactly if it is not skipped and some schema has it, and
then the declaration is that of the first such schema, the same one that is
found as a base.
-/

namespace EntityTypings

namespace Generation

/-! ### One schema -/

/-- Whether a schema is to be declared: it has an id, and the id is not skipped. -/
def isDeclared (skipped : List String) (s : Schema) : Bool := s.id?.any (fun id => id ∉ skipped)

theorem isDeclared_iff {skipped : List String} {s : Schema} :
    isDeclared skipped s = true ↔ s.id? = some s.displayId ∧ s.displayId ∉ skipped := by
  unfold isDeclared
  cases h : s.id? with
  | none => simp
  | some id => simp [(Schema.id?_eq_some_iff.1 h).1]

/-- What a schema that cannot be declared ends the run with. -/
def failure? (c : Catalog) (skipped : List String) (s : Schema) : Option Failure :=
  if isDeclared skipped s then
    match (c.declare s).declaration with
    | .ok _ => none
    | .error f => some f
  else none

/-- The schema with its declaration, if it is declared. -/
def declared? (c : Catalog) (skipped : List String) (s : Schema) : Option (Schema × Declaration) :=
  if isDeclared skipped s then
    match (c.declare s).declaration with
    | .ok d => some (s, d)
    | .error _ => none
  else none

/-- The problems that are reported for a schema. -/
def found (c : Catalog) (skipped : List String) (s : Schema) : List Diagnostic :=
  match s.id? with
  | none => [.missingSchemaId]
  | some id => if id ∈ skipped then [] else (c.declare s).diagnostics

variable {c : Catalog} {skipped : List String} {s : Schema}

theorem failure?_eq_some_iff {f : Failure} :
    failure? c skipped s = some f ↔
      isDeclared skipped s = true ∧ (c.declare s).declaration = .error f := by
  unfold failure?
  cases isDeclared skipped s <;> cases (c.declare s).declaration <;> simp

theorem declared?_eq_some_iff {p : Schema × Declaration} :
    declared? c skipped s = some p ↔
      isDeclared skipped s = true ∧ p.1 = s ∧ (c.declare s).declaration = .ok p.2 := by
  obtain ⟨s', d⟩ := p
  unfold declared?
  cases isDeclared skipped s <;> cases (c.declare s).declaration <;> simp [eq_comm]

/-- A schema that is to be declared and does not fail has a declaration. -/
theorem exists_of_failure?_eq_none (h : failure? c skipped s = none)
    (hs : isDeclared skipped s = true) : ∃ d, (c.declare s).declaration = .ok d := by
  cases hd : (c.declare s).declaration with
  | ok d => exact ⟨d, rfl⟩
  | error f => rw [failure?_eq_some_iff.2 ⟨hs, hd⟩] at h; cases h

/-! ### All schemas -/

/-- A schema adds what it declares and what is reported for it, or ends the run. -/
theorem declareAll_cons (c : Catalog) (skipped : List String) (s : Schema) (rest : List Schema) :
    declareAll c skipped (s :: rest) =
      match failure? c skipped s with
      | some f => .error f
      | none => (declareAll c skipped rest).map (fun e =>
          ⟨(declared? c skipped s).toList ++ e.declared, found c skipped s ++ e.diagnostics⟩) := by
  rw [declareAll]
  generalize declareAll c skipped rest = r
  unfold failure? declared? found isDeclared
  cases hid : s.id? with
  | none => rfl
  | some id =>
    by_cases hskip : id ∈ skipped
    · cases r <;> simp [hskip, Except.map]
    · rcases c.declare s with ⟨diagnostics, f | d⟩ <;> simp [hskip, Entities.after, Entities.cons]

/-- **What a run declares**: the failure of the first schema that has one, and
otherwise what each schema declares, with what is reported for each. -/
theorem declareAll_eq (c : Catalog) (skipped : List String) (l : List Schema) :
    declareAll c skipped l =
      match l.findSome? (failure? c skipped) with
      | some f => .error f
      | none => .ok ⟨l.filterMap (declared? c skipped), l.flatMap (found c skipped)⟩ := by
  induction l with
  | nil => rfl
  | cons s rest ih =>
    rw [declareAll_cons, ih]
    cases hs : failure? c skipped s with
    | some f => rw [List.findSome?_cons_of_isSome (by simp [hs]), hs]
    | none =>
      rw [List.findSome?_cons_of_isNone (by simp [hs])]
      cases rest.findSome? (failure? c skipped) with
      | some f => rfl
      | none => cases hd : declared? c skipped s <;> simp [Except.map, hd]

variable {options : Options} {schemas : List Schema} {configurations : List AttributeConfiguration}
  {o : Output} {a : Artifact}

/-- A run on schemas fails with the first failure, and otherwise gives the source of what each
schema declares, with what is reported for each. -/
theorem generate_of_ne_nil (options : Options) (configurations : List AttributeConfiguration)
    (hne : schemas ≠ []) :
    generate options schemas configurations =
      match schemas.findSome? (failure? ⟨schemas⟩ options.skipped) with
      | some f => .error f
      | none => .ok ⟨some (assemble options configurations
            ⟨schemas.filterMap (declared? ⟨schemas⟩ options.skipped),
              schemas.flatMap (found ⟨schemas⟩ options.skipped)⟩),
          ⟨schemas.flatMap (found ⟨schemas⟩ options.skipped)⟩,
          (schemas.filterMap (declared? ⟨schemas⟩ options.skipped)).length⟩ := by
  unfold generate
  rw [if_neg (by simpa using hne), declareAll_eq]
  split <;> rfl

theorem generate_eq_error_iff {f : Failure} :
    generate options schemas configurations = .error f ↔
      schemas.findSome? (failure? ⟨schemas⟩ options.skipped) = some f := by
  by_cases hne : schemas = []
  · subst hne
    simp
  · rw [generate_of_ne_nil options configurations hne]
    split <;> simp [*]

/-- A run that succeeds on schemas declares each of those that are to be declared. -/
theorem generate_eq_ok (h : generate options schemas configurations = .ok o)
    (ha : o.artifact = some a) :
    schemas.findSome? (failure? ⟨schemas⟩ options.skipped) = none ∧
      a = assemble options configurations
        ⟨schemas.filterMap (declared? ⟨schemas⟩ options.skipped),
          schemas.flatMap (found ⟨schemas⟩ options.skipped)⟩ := by
  have hne : schemas ≠ [] := fun hnil => by
    rw [(artifact_eq_none_iff h).2 hnil] at ha
    cases ha
  rw [generate_of_ne_nil options configurations hne] at h
  split at h
  · cases h
  · rename_i hnone
    cases h
    cases ha
    exact ⟨hnone, rfl⟩

theorem exists_artifact (h : generate options schemas configurations = .ok o) (hs : s ∈ schemas) :
    ∃ a, o.artifact = some a := by
  rw [← Option.isSome_iff_exists, Option.isSome_iff_ne_none]
  exact fun hn => List.ne_nil_of_mem hs ((artifact_eq_none_iff h).1 hn)

/-- The declarations of schemas in a source are those of the schemas that are declared. -/
theorem entities_of_generate (h : generate options schemas configurations = .ok o)
    (ha : o.artifact = some a) :
    a.entities = (schemas.filterMap (declared? ⟨schemas⟩ options.skipped)).map Prod.snd := by
  rw [(generate_eq_ok h ha).2]
  rfl

theorem exists_declaration (h : generate options schemas configurations = .ok o)
    (ha : o.artifact = some a) (hs : s ∈ schemas) (hd : isDeclared options.skipped s = true) :
    ∃ d ∈ a.entities, (Catalog.declare ⟨schemas⟩ s).declaration = .ok d := by
  have hnone := List.findSome?_eq_none_iff.1 (generate_eq_ok h ha).1 s hs
  obtain ⟨d, hdecl⟩ := exists_of_failure?_eq_none hnone hd
  rw [entities_of_generate h ha]
  exact ⟨d, List.mem_map.2 ⟨(s, d), List.mem_filterMap.2
    ⟨s, hs, declared?_eq_some_iff.2 ⟨hd, rfl, hdecl⟩⟩, rfl⟩, hdecl⟩

end Generation

/-! ### Declarations by name -/

/-- The declaration of the schema of the given name, the first if there are several. -/
def Artifact.entity? (a : Artifact) (name : String) : Option Declaration :=
  a.entities.find? (fun d => d.name = name)

/-- The source declares the schemas of the catalog whose ids are not skipped; an id
that several schemas have stands for the first. -/
structure Artifact.Covers (a : Artifact) (c : Catalog) (skipped : List String) : Prop where
  /-- What can be found and is not skipped is declared. -/
  declared : ∀ {id : String} {b : Schema}, c.find? id = some b → id ∉ skipped →
    ∃ d, a.entity? id = some d ∧ (c.declare b).declaration = .ok d
  /-- What is declared can be found and is not skipped. -/
  origin : ∀ {id : String} {d : Declaration}, a.entity? id = some d →
    ∃ b, c.find? id = some b ∧ id ∉ skipped ∧ (c.declare b).declaration = .ok d

namespace Generation

/-- Looking up a declaration is looking up a schema and declaring it. -/
theorem find?_declared (c : Catalog) (skipped : List String) {id : String} {d : Declaration} :
    ∀ l : List Schema, (∀ s ∈ l, failure? c skipped s = none) →
      (((l.filterMap (declared? c skipped)).map Prod.snd).find? (fun d => d.name = id) = some d ↔
        id ∉ skipped ∧ ∃ b, l.find? (fun s => s.id? = some id) = some b ∧
          (c.declare b).declaration = .ok d) := by
  intro l
  induction l with
  | nil => simp
  | cons s rest ih =>
    intro hl
    have ih := ih (fun t ht => hl t (List.mem_cons_of_mem _ ht))
    by_cases hs : isDeclared skipped s = true
    · obtain ⟨d', hd'⟩ := exists_of_failure?_eq_none (hl s List.mem_cons_self) hs
      obtain ⟨hid, hskip⟩ := isDeclared_iff.1 hs
      rw [List.filterMap_cons_some (declared?_eq_some_iff (p := (s, d')).2 ⟨hs, rfl, hd'⟩),
        List.map_cons]
      by_cases hname : s.displayId = id
      · subst hname
        rw [List.find?_cons_of_pos (by simp [Catalog.name_of_declare hd']),
          List.find?_cons_of_pos (by simp [hid])]
        simp [hskip, hd']
      · rw [List.find?_cons_of_neg (by simp [Catalog.name_of_declare hd', hname]),
          List.find?_cons_of_neg (by simp [hid, hname]), ih]
    · rw [List.filterMap_cons_none (by simp [declared?, hs]), ih]
      by_cases hid : s.id? = some id
      · have hskip : id ∈ skipped := by simpa [isDeclared, hid] using hs
        simp [hskip]
      · rw [List.find?_cons_of_neg (by simp [hid])]

/-- **The declarations of a source are those of its catalog.** -/
theorem covers_of_generate {options : Options} {schemas : List Schema}
    {configurations : List AttributeConfiguration} {o : Output} {a : Artifact}
    (h : generate options schemas configurations = .ok o) (ha : o.artifact = some a) :
    a.Covers ⟨schemas⟩ options.skipped := by
  have hnone := List.findSome?_eq_none_iff.1 (generate_eq_ok h ha).1
  have hfind {id : String} {d : Declaration} : a.entity? id = some d ↔ id ∉ options.skipped ∧
      ∃ b, Catalog.find? ⟨schemas⟩ id = some b ∧
        (Catalog.declare ⟨schemas⟩ b).declaration = .ok d := by
    rw [Artifact.entity?, entities_of_generate h ha]
    exact find?_declared ⟨schemas⟩ options.skipped schemas hnone
  constructor
  · intro id b hb hskip
    have hid := Catalog.id?_of_find? hb
    have hs : isDeclared options.skipped b = true := by
      have := (Schema.id?_eq_some_iff.1 hid).1
      exact isDeclared_iff.2 ⟨this ▸ hid, this ▸ hskip⟩
    obtain ⟨d, hd⟩ := exists_of_failure?_eq_none (hnone b (Catalog.mem_of_find? hb)) hs
    exact ⟨d, hfind.2 ⟨hskip, b, hb, hd⟩, hd⟩
  · intro id d hd
    obtain ⟨hskip, b, hb, hdecl⟩ := hfind.1 hd
    exact ⟨b, hb, hskip, hdecl⟩

end Generation

end EntityTypings
