import EntityTypings.Emission
import EntityTypings.Proofs.EffectiveMembers

/-!
# How a source is put together

A run can be carried out with one emission, to which everything is written in turn: the
preamble, each schema with an empty line below it, the lookups, the custom attributes and
at last the trailer (`Emission.run`). Here it is shown to have the same outcome as
`generate`, which collects declarations first and lays them out in the end
(`run_eq_generate`).

That rests on what one step does. Each only appends lines and problems (`append`), at a
depth that it leaves as it is, and which lines these are it does not take from the
emission. So a source falls into parts, each of them the text that one step writes on
an empty page. The main statement, `text_of_generate`, names the parts, and with them
what of a source depends on the options: the preamble, and else only the ids to be
skipped.
-/

namespace EntityTypings

namespace Emission

/-! ### Steps that append -/

/-- Appends lines and records problems. -/
def append (e : Emission) (ls : List Line) (ds : List Diagnostic) : Emission :=
  ⟨e.code ++ renderLines e.depth ls, e.depth, e.diagnostics.append ds⟩

@[simp] theorem append_nil (e : Emission) : e.append [] [] = e := by
  simp [append, Diagnostics.append]

@[simp] theorem append_append (e : Emission) (as bs : List Line) (ds es : List Diagnostic) :
    (e.append as ds).append bs es = e.append (as ++ bs) (ds ++ es) := by
  simp [append, Diagnostics.append, renderLines_append, String.append_assoc]

theorem lines_eq_append (e : Emission) (ls : List Line) : e.lines ls = e.append ls [] := by
  simp [append, lines, Diagnostics.append]

theorem declarations_eq_append (e : Emission) (ds : List Declaration) :
    e.declarations ds = e.append (ds.flatMap Declaration.lines) [] := by
  rw [declarations_eq_lines, lines_eq_append]

/-- Writing a schema appends its declaration, if it has one, and what was found. -/
theorem schema_eq_append (e : Emission) (c : Catalog) (s : Schema) :
    e.schema c s =
      match (c.declare s).declaration with
      | .ok d => (e.append d.lines (c.declare s).diagnostics, .ok ())
      | .error f => (e.append [] (c.declare s).diagnostics, .error f) := by
  unfold schema
  split
  · simp [*, declaration_eq_lines, append, lines]
  · simp [*, append]

/-! ### A run with one emission -/

/-- A run half-way through its schemas. -/
structure Progress where
  /-- What is written. -/
  emission : Emission
  /-- The schemas that are declared. -/
  declared : List Schema

namespace Progress

/-- Goes on to the next schema, or ends the run. -/
def next (c : Catalog) (skipped : List String) (p : Progress) (s : Schema) :
    Except Failure Progress :=
  match s.id? with
  | none => .ok { p with emission := p.emission.report .missingSchemaId }
  | some id =>
    if id ∈ skipped then .ok p
    else
      match p.emission.schema c s with
      | (_, .error failure) => .error failure
      | (e, .ok ()) => .ok ⟨e.blank, p.declared ++ [s]⟩

/-- The run after declarations and problems. -/
def after (p : Progress) (ds : List (Schema × Declaration)) (found : List Diagnostic) : Progress :=
  ⟨p.emission.append (ds.flatMap (fun d => Artifact.blockLines [d.2])) found,
    p.declared ++ ds.map Prod.fst⟩

@[simp] theorem after_nil (p : Progress) : p.after [] [] = p := by
  simp [after]

@[simp] theorem after_after (p : Progress) (ds es : List (Schema × Declaration))
    (found more : List Diagnostic) :
    (p.after ds found).after es more = p.after (ds ++ es) (found ++ more) := by
  simp [after]

open Generation

/-- A schema adds what it declares and what is reported for it, or ends the run. -/
theorem next_eq (c : Catalog) (skipped : List String) (p : Progress) (s : Schema) :
    p.next c skipped s =
      match failure? c skipped s with
      | some f => .error f
      | none => .ok (p.after (declared? c skipped s).toList (found c skipped s)) := by
  unfold next failure? declared? found isDeclared
  cases hid : s.id? with
  | none => simp [after, append, report, Diagnostics.append, Diagnostics.push]
  | some id =>
    by_cases hskip : id ∈ skipped
    · simp [hskip]
    · rw [schema_eq_append]
      cases hd : (c.declare s).declaration with
      | error f => simp [hskip]
      | ok d => simp [hskip, after, Artifact.blockLines, blank, line, lines_eq_append]

/-- The schemas add what they declare and what is reported for them. -/
theorem foldlM_next (c : Catalog) (skipped : List String) (l : List Schema) (p : Progress) :
    l.foldlM (next c skipped) p =
      (declareAll c skipped l).map (fun e => p.after e.declared e.diagnostics) := by
  -- The schemas that are left start from what the first has added, so `p` is any.
  induction l generalizing p with
  | nil => simp [declareAll, Except.map, pure, Except.pure]
  | cons s rest ih =>
    rw [List.foldlM_cons, next_eq, declareAll_cons]
    cases failure? c skipped s with
    | some f => rfl
    | none =>
      refine (ih _).trans ?_
      cases declareAll c skipped rest <;> simp [Except.map]

end Progress

open Generation

/-- Appends declarations and an empty line below them. -/
def spaced (e : Emission) (ds : List Declaration) : Emission := (e.declarations ds).blank

theorem spaced_eq_append (e : Emission) (ds : List Declaration) :
    e.spaced ds = e.append (Artifact.blockLines ds) [] := by
  rw [spaced, blank, line, declarations_eq_append, lines_eq_append, append_append]
  rfl

/-- Appends what follows the schemas: the lookups over them and the custom attributes. -/
def lookups (e : Emission) (declared : List Schema)
    (configurations : List AttributeConfiguration) : Emission :=
  (((e.spaced [.basicLink]).spaced (Declaration.entityMap (declared.map Schema.displayId))).spaced
    (Declaration.subtypeMap ((declared.filter Schema.isMember).map Schema.displayId))).declarations
      (Declaration.attributes configurations declared)

theorem lookups_eq_append (e : Emission) (declared : List Schema)
    (configurations : List AttributeConfiguration) :
    e.lookups declared configurations =
      e.append ([[.basicLink], Declaration.entityMap (declared.map Schema.displayId),
          Declaration.subtypeMap ((declared.filter Schema.isMember).map Schema.displayId)].flatMap
            Artifact.blockLines ++
        (Declaration.attributes configurations declared).flatMap Declaration.lines) [] := by
  simp [lookups, spaced_eq_append, declarations_eq_append]

/-- The text of lines that are appended to an empty page, with the trailer. -/
theorem finish_append_start (ls : List Line) (ds : List Diagnostic) :
    (start.append ls ds).finish =
      (renderLines 0 (ls ++ trailerLines (ds.map Diagnostic.message)), ⟨ds⟩) := by
  simp [finish, append, start, renderLines_append, Diagnostics.append, Diagnostics.empty,
    Diagnostics.messages]

/-- Writes what follows the schemas and ends the run. -/
def Progress.conclude (configurations : List AttributeConfiguration) (p : Progress) :
    String × Diagnostics × Nat :=
  let (text, diagnostics) := (p.emission.lookups p.declared configurations).finish
  (text, diagnostics, p.declared.length)

/-- The run carried out with one emission: the text, the problems and the number of schemas
that are declared. -/
def run (options : Options) (schemas : List Schema)
    (configurations : List AttributeConfiguration) : Except Failure (String × Diagnostics × Nat) :=
  if schemas.isEmpty then .ok ("", ⟨[.noSchemas]⟩, 0)
  else
    let e := start.comments
      (preamble options.generatedAt options.serverVersion options.serverUrl)
    (schemas.foldlM (Progress.next ⟨schemas⟩ options.skipped) ⟨e, []⟩).map
      (Progress.conclude configurations)

/-- After the preamble and the schemas, what follows them completes the source. -/
theorem conclude_after (options : Options) (configurations : List AttributeConfiguration)
    (e : Entities) :
    Progress.conclude configurations (Progress.after ⟨start.comments
        (preamble options.generatedAt options.serverVersion options.serverUrl), []⟩
          e.declared e.diagnostics) =
      ((assemble options configurations e).text, ⟨e.diagnostics⟩, e.declared.length) := by
  simp only [Progress.conclude, Progress.after, comments_eq_lines, lines_eq_append,
    lookups_eq_append, append_append, finish_append_start]
  simp [assemble, Artifact.text, Artifact.lines, Artifact.blocks, List.flatMap_map,
    Entities.ids, Entities.memberIds, Entities.schemas]

/-- **Writing everything in turn gives the same source.** -/
theorem run_eq_generate (options : Options) (schemas : List Schema)
    (configurations : List AttributeConfiguration) :
    run options schemas configurations =
      (generate options schemas configurations).map
        (fun o => (o.text, o.diagnostics, o.schemaCount)) := by
  unfold run generate
  split
  · rfl
  · simp only [Progress.foldlM_next]
    cases declareAll ⟨schemas⟩ options.skipped schemas with
    | error f => rfl
    | ok e => exact congrArg Except.ok (conclude_after options configurations e)

/-! ### The parts of a source -/

/-- What a step writes on an empty page. -/
def alone (step : Emission → Emission) : String := (step start).code

/-- The step appends, at any depth, and what it appends it does not take from the emission. -/
structure Independent (step : Emission → Emission) : Prop where
  /-- At the margin it writes what it writes on an empty page. -/
  code : ∀ e, e.depth = 0 → (step e).code = e.code ++ alone step
  /-- It leaves the depth as it is. -/
  depth : ∀ e, (step e).depth = e.depth
  /-- It records the problems that it records on an empty page. -/
  diagnostics : ∀ e, (step e).diagnostics = e.diagnostics.append (step start).diagnostics.items

variable {step : Emission → Emission} {ls : List Line} {ds : List Diagnostic}

theorem alone_eq (h : ∀ e, step e = e.append ls ds) : alone step = renderLines 0 ls := by
  simp [alone, h, append, start]

/-- A step that only appends is independent. -/
theorem independent_of_append (h : ∀ e, step e = e.append ls ds) : Independent step where
  code e hdepth := by simp [alone_eq h, h, append, hdepth]
  depth e := by rw [h, append]
  diagnostics e := by simp [h, append, start, Diagnostics.append, Diagnostics.empty]

theorem alone_declarations (ds : List Declaration) :
    alone (·.declarations ds) = renderLines 0 (ds.flatMap Declaration.lines) :=
  alone_eq (fun e => declarations_eq_append e ds)

theorem independent_declarations (ds : List Declaration) : Independent (·.declarations ds) :=
  independent_of_append (fun e => declarations_eq_append e ds)

theorem independent_schema (c : Catalog) (s : Schema) :
    Independent (fun e => (e.schema c s).1) := by
  cases hd : (c.declare s).declaration with
  | ok d => exact independent_of_append (fun e => by rw [schema_eq_append, hd])
  | error f => exact independent_of_append (fun e => by rw [schema_eq_append, hd])

theorem alone_schema {c : Catalog} {s : Schema} {d : Declaration}
    (hd : (c.declare s).declaration = .ok d) :
    alone (fun e => (e.schema c s).1) = renderLines 0 d.lines :=
  alone_eq (fun e => by rw [schema_eq_append, hd])

/-- The steps that an empty line follows: the schemas that are declared, and the lookups. -/
def spacedSteps (c : Catalog) (declared : List Schema) : List (Emission → Emission) :=
  declared.map (fun s e => (e.schema c s).1) ++
    [(·.declarations [.basicLink]),
      (·.declarations (Declaration.entityMap (declared.map Schema.displayId))),
      (·.declarations (Declaration.subtypeMap
        ((declared.filter Schema.isMember).map Schema.displayId)))]

/-- **No part depends on what is written before it.** -/
theorem independent_of_mem_spacedSteps {c : Catalog} {declared : List Schema}
    {step : Emission → Emission} (h : step ∈ spacedSteps c declared) : Independent step := by
  rcases List.mem_append.1 h with hschema | hlookup
  · obtain ⟨s, -, rfl⟩ := List.mem_map.1 hschema
    exact independent_schema c s
  · simp only [List.mem_cons, List.not_mem_nil, or_false] at hlookup
    rcases hlookup with rfl | rfl | rfl <;> exact independent_declarations _

/-- Comments that repeat the problems, if there are any. -/
def trailer (ds : Diagnostics) : String :=
  if ds.items = [] then ""
  else "\n// Errors:\n" ++ String.join (ds.messages.map (fun m => "// " ++ m ++ "\n"))

/-- What a source has below its preamble: what each step writes on an empty page, and the
trailer. -/
def body (c : Catalog) (declared : List Schema) (configurations : List AttributeConfiguration)
    (ds : Diagnostics) : String :=
  String.join ((spacedSteps c declared).map (fun step => alone step ++ "\n"))
    ++ alone (·.declarations (Declaration.attributes configurations declared))
    ++ trailer ds

theorem renderLines_trailerLines (ds : Diagnostics) :
    renderLines 0 (trailerLines ds.messages) = trailer ds := by
  simp only [renderLines_trailerLines_messages, trailer, Diagnostics.messages, List.map_eq_nil_iff]

theorem renderLines_blockLines (block : List Declaration) :
    renderLines 0 (Artifact.blockLines block) = alone (·.declarations block) ++ "\n" := by
  rw [Artifact.renderLines_blockLines_eq, alone_declarations, Declaration.renderLines_flatMap_lines]

/-- The blocks of a source are what the steps write. -/
theorem renderLines_blocks {c : Catalog} {e : Entities}
    (h : ∀ p ∈ e.declared, (c.declare p.1).declaration = .ok p.2) (options : Options)
    (configurations : List AttributeConfiguration) :
    renderLines 0 ((assemble options configurations e).blocks.flatMap Artifact.blockLines) =
      String.join ((spacedSteps c e.schemas).map (fun step => alone step ++ "\n")) := by
  have hschemas : e.declared.map (fun p => alone (·.declarations [p.2]) ++ "\n") =
      e.schemas.map (fun s => alone (fun e => (e.schema c s).1) ++ "\n") := by
    rw [Entities.schemas, List.map_map]
    refine List.map_congr_left fun p hp => ?_
    simp [alone_schema (h p hp), alone_declarations]
  rw [renderLines_flatMap]
  simp only [renderLines_blockLines, Artifact.blocks, assemble, spacedSteps, List.map_append,
    List.map_map, Function.comp_def, hschemas]
  rfl

theorem alone_comments (texts : List String) :
    alone (·.comments texts) = renderLines 0 (preambleLines texts) :=
  alone_eq (fun e => by rw [comments_eq_lines, lines_eq_append])

/-- The preamble of a source. -/
def head (generatedAt : Option Timestamp) (serverVersion serverUrl : Option String) : String :=
  alone (·.comments (preamble generatedAt serverVersion serverUrl))

example : head none none none = "// Not intended to modify manually\n\n" := by decide

theorem text_assemble {c : Catalog} {e : Entities}
    (h : ∀ p ∈ e.declared, (c.declare p.1).declaration = .ok p.2) (options : Options)
    (configurations : List AttributeConfiguration) :
    (assemble options configurations e).text =
      head options.generatedAt options.serverVersion options.serverUrl ++
        body c e.schemas configurations ⟨e.diagnostics⟩ := by
  rw [Artifact.text, Artifact.lines, renderLines_append, renderLines_append, renderLines_append,
    renderLines_blocks h, head, alone_comments, body, alone_declarations,
    ← renderLines_trailerLines]
  simp only [String.append_assoc]
  rfl

end Emission

namespace Generation

variable {c : Catalog} {skipped : List String}

/-- If no schema fails, those with a declaration are all that are to be declared. -/
theorem map_fst_declared {l : List Schema} (h : ∀ s ∈ l, failure? c skipped s = none) :
    (l.filterMap (declared? c skipped)).map Prod.fst = l.filter (isDeclared skipped) := by
  induction l with
  | nil => rfl
  | cons s rest ih =>
    have ih := ih fun t ht => h t (List.mem_cons_of_mem _ ht)
    cases hs : isDeclared skipped s with
    | true =>
      obtain ⟨d, hd⟩ := exists_of_failure?_eq_none (h s List.mem_cons_self) hs
      rw [List.filterMap_cons_some (declared?_eq_some_iff (p := (s, d)).2 ⟨hs, rfl, hd⟩),
        List.filter_cons_of_pos hs, List.map_cons, ih]
    | false =>
      rw [List.filterMap_cons_none (by simp [declared?, hs]),
        List.filter_cons_of_neg (by simp [hs]), ih]

variable {options : Options} {schemas : List Schema}

/-- A source is put together for the schemas that are to be declared. -/
theorem exists_assemble {configurations : List AttributeConfiguration} {o : Output} {a : Artifact}
    (h : generate options schemas configurations = .ok o) (ha : o.artifact = some a) :
    ∃ e, a = assemble options configurations e ∧
      e.schemas = schemas.filter (isDeclared options.skipped) := by
  obtain ⟨hnone, heq⟩ := generate_eq_ok h ha
  exact ⟨_, heq, map_fst_declared (List.findSome?_eq_none_iff.1 hnone)⟩

/-- A run without failures, by the parts of its source. -/
theorem exists_generate (configurations : List AttributeConfiguration) (hne : schemas ≠ [])
    (hnone : schemas.findSome? (failure? ⟨schemas⟩ options.skipped) = none) :
    let declared := schemas.filter (isDeclared options.skipped)
    let diagnostics : Diagnostics := ⟨schemas.flatMap (found ⟨schemas⟩ options.skipped)⟩
    ∃ o, generate options schemas configurations = .ok o ∧
      o.text = Emission.head options.generatedAt options.serverVersion options.serverUrl ++
        Emission.body ⟨schemas⟩ declared configurations diagnostics ∧
      o.diagnostics = diagnostics ∧ o.schemaCount = declared.length := by
  have hschemas := map_fst_declared (List.findSome?_eq_none_iff.1 hnone)
  rw [generate_of_ne_nil options configurations hne, hnone, ← hschemas]
  refine ⟨_, rfl, Emission.text_assemble (fun p hp => ?_) options configurations, rfl, ?_⟩
  · obtain ⟨s, -, hs⟩ := List.mem_filterMap.1 hp
    obtain ⟨-, rfl, hd⟩ := declared?_eq_some_iff.1 hs
    exact hd
  · rw [List.length_map]

end Generation

open Generation Emission in
/-- **A source is the text of its parts.** A run that succeeds on schemas gives the preamble,
then what each declared schema, each lookup and the custom attributes write on an empty page,
and comments that repeat the problems, if there are any. No part depends on what is written
before it, and a run that writes them all in turn gives the same. So of the options, only the
ids to be skipped make a difference below the preamble. -/
theorem text_of_generate {options : Options} {schemas : List Schema}
    {configurations : List AttributeConfiguration} {o : Output} (hne : schemas ≠ [])
    (h : generate options schemas configurations = .ok o) :
    let declared := schemas.filter (isDeclared options.skipped)
    let below := body ⟨schemas⟩ declared configurations o.diagnostics
    o.text = head options.generatedAt options.serverVersion options.serverUrl ++ below ∧
    (∀ s ∈ declared, (start.schema ⟨schemas⟩ s).2 = .ok ()) ∧
    (∀ step ∈ spacedSteps ⟨schemas⟩ declared ++
      [(·.declarations (Declaration.attributes configurations declared))], Independent step) ∧
    run options schemas configurations = .ok (o.text, o.diagnostics, o.schemaCount) ∧
    ∀ options' : Options, options'.skipped = options.skipped →
      ∃ o', generate options' schemas configurations = .ok o' ∧
        o'.text = head options'.generatedAt options'.serverVersion options'.serverUrl ++ below ∧
        o'.errors = o.errors ∧ o'.diagnostics = o.diagnostics ∧ o'.schemaCount = o.schemaCount := by
  intro declared below
  have hnone : schemas.findSome? (failure? ⟨schemas⟩ options.skipped) = none := by
    rw [Option.eq_none_iff_forall_ne_some]
    intro f hf
    rw [generate_eq_error_iff.2 hf] at h
    cases h
  obtain ⟨o₁, ho, htext, hdiagnostics, hcount⟩ := exists_generate configurations hne hnone
  obtain rfl : o = o₁ := Except.ok.inj (h.symm.trans ho)
  rw [← hdiagnostics] at htext
  refine ⟨htext, fun s hs => ?_, fun step hstep => ?_, ?_, fun options' hskip => ?_⟩
  · obtain ⟨hs, hdeclared⟩ := List.mem_filter.1 hs
    obtain ⟨d, hd⟩ :=
      exists_of_failure?_eq_none (List.findSome?_eq_none_iff.1 hnone s hs) hdeclared
    rw [schema_eq_append, hd]
  · rcases List.mem_append.1 hstep with hspaced | hlast
    · exact independent_of_mem_spacedSteps hspaced
    · rw [List.mem_singleton.1 hlast]
      exact independent_declarations _
  · rw [run_eq_generate, h]
    rfl
  -- Which schemas fail depends on the skipped ids alone, so the other run succeeds as well.
  · rw [← hskip] at hnone
    obtain ⟨o', ho', htext', hdiagnostics', hcount'⟩ := exists_generate configurations hne hnone
    rw [hskip] at htext' hdiagnostics' hcount'
    have heq : o'.diagnostics = o.diagnostics := hdiagnostics'.trans hdiagnostics.symm
    refine ⟨o', ho', ?_, by rw [Output.errors, heq, Output.errors], heq, hcount'.trans hcount.symm⟩
    rw [htext', ← hdiagnostics]

/-- A schema with an untyped property, one that is skipped and one without an id. -/
def notedCatalog : List Schema :=
  [.plain "Asset" none [("note", .object []), ("unit", textDescriptor)],
    .plain "Message" none [], { Schema.plain "" none [] with givenId := none }]

open Generation Emission in
theorem text_of_notedCatalog :
    let assets := notedCatalog.take 1
    ∃ o o', notedCatalog ≠ [] ∧ generate .withoutLegacy notedCatalog [] = .ok o ∧
      generate { Options.withoutLegacy with serverVersion := some "5.0" } notedCatalog [] =
        .ok o' ∧
      o.text = head none none none ++ body ⟨notedCatalog⟩ assets [] o.diagnostics ∧
      o'.text = head none (some "5.0") none ++ body ⟨notedCatalog⟩ assets [] o.diagnostics ∧
      o'.errors = o.errors ∧ o.diagnostics.items.length = 2 := by
  intro assets
  have hne : notedCatalog ≠ [] := List.cons_ne_nil _ _
  have hassets : notedCatalog.filter (isDeclared Options.withoutLegacy.skipped) = assets := rfl
  obtain ⟨o, ho, hcount⟩ : ∃ o, generate .withoutLegacy notedCatalog [] = .ok o ∧
      o.diagnostics.items.length = 2 := ⟨_, rfl, rfl⟩
  obtain ⟨htext, -, -, -, hother⟩ := text_of_generate hne ho
  obtain ⟨o', ho', htext', herrors, -⟩ :=
    hother { Options.withoutLegacy with serverVersion := some "5.0" } rfl
  rw [hassets] at htext htext'
  exact ⟨o, o', hne, ho, ho', htext, htext', herrors, hcount⟩

end EntityTypings
