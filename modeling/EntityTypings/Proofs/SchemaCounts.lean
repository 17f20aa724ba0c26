import EntityTypings.Command.Inspect
import EntityTypings.Proofs.Reports
import EntityTypings.Proofs.TreeChanges

/-!
# The counts of schemas

The inspecting command says how many schemas there are and how many of them are skipped, and a run
of the generating command with the same settings says how many it has declared and for how many an
id is missing. The two classify schemas on their own. Here it is shown that they agree: a schema is
skipped, declared or without an id, and never two of these (`kinds_eq_one`), the counts of both
commands are the numbers of such schemas, and so they add up (`check_counts_of_generate`).
-/

namespace EntityTypings

namespace Generation

variable {options : Options} {schemas : List Schema} {configurations : List AttributeConfiguration}
  {o : Output}

/-! ### Three kinds of schemas -/

/-- Whether a schema is left out because its id is to be skipped. -/
def isSkipped (skipped : List String) (s : Schema) : Bool := s.id?.any (· ∈ skipped)

/-- Whether a schema is left out because it has no id. -/
def isNameless (s : Schema) : Bool := s.id?.isNone

/-- A schema is of exactly one of three kinds. -/
theorem kinds_eq_one (skipped : List String) (s : Schema) :
    (isSkipped skipped s).toNat + (isDeclared skipped s).toNat + (isNameless s).toNat = 1 := by
  unfold isSkipped isDeclared isNameless
  cases s.id? with
  | none => rfl
  | some id => by_cases hskip : id ∈ skipped <;> simp [hskip]

/-- Where everything is of exactly one of three kinds, there are as many things as of all kinds. -/
theorem length_eq_countP {α : Type} {p q r : α → Bool} {l : List α}
    (h : ∀ a ∈ l, (p a).toNat + (q a).toNat + (r a).toNat = 1) :
    l.length = l.countP p + l.countP q + l.countP r := by
  induction l with
  | nil => rfl
  | cons a rest ih =>
    have hfirst := h a List.mem_cons_self
    have hrest := ih fun b hb => h b (List.mem_cons_of_mem _ hb)
    simp only [List.countP_cons, List.length_cons]
    cases hp : p a <;> cases hq : q a <;> cases hr : r a <;> simp [hp, hq, hr] at hfirst ⊢ <;> omega

/-! ### What a run counts -/

/-- A run declares the schemas whose ids are there and not skipped. -/
theorem schemaCount_of_generate (h : generate options schemas configurations = .ok o) :
    o.schemaCount = schemas.countP (isDeclared options.skipped) := by
  by_cases hne : schemas = []
  · subst hne
    cases h
    rfl
  · rw [generate_of_ne_nil options configurations hne] at h
    split at h
    · cases h
    · rename_i hnone
      cases h
      rw [List.length_filterMap_eq_countP]
      refine List.countP_congr fun s hs => ?_
      constructor
      · intro hdeclared
        obtain ⟨p, hp⟩ := Option.isSome_iff_exists.1 hdeclared
        exact (declared?_eq_some_iff.1 hp).1
      · intro hdeclared
        obtain ⟨d, hd⟩ := exists_of_failure?_eq_none (List.findSome?_eq_none_iff.1 hnone s hs)
          hdeclared
        exact Option.isSome_of_eq_some (declared?_eq_some_iff.2 ⟨hdeclared, rfl, hd⟩ :
          declared? ⟨schemas⟩ options.skipped s = some (s, d))

/-- Whether a problem is that an id is missing. -/
def isMissingId (d : Diagnostic) : Bool := d.code = .missingSchemaId

/-- One missing id is reported for a schema without an id, and none for any other. -/
theorem countP_reports (c : Catalog) (skipped : List String) (s : Schema) :
    (reports c skipped s).countP isMissingId = (isNameless s).toNat := by
  unfold reports isNameless
  cases s.id? with
  | none => rfl
  | some id =>
    refine List.countP_eq_zero.2 fun d hd => ?_
    dsimp only at hd
    split at hd
    · cases hd
    · obtain ⟨name, -, rfl⟩ := List.mem_map.1 hd
      simp [isMissingId, Diagnostic.untypedProperty]

/-- A run reports as many missing ids as there are schemas without an id. -/
theorem countP_missingId_of_generate (h : generate options schemas configurations = .ok o)
    (hne : schemas ≠ []) :
    o.diagnostics.items.countP isMissingId = schemas.countP isNameless := by
  rw [items_of_generate h hne]
  -- the catalog stays the same while the induction goes through the schemas
  generalize (⟨schemas⟩ : Catalog) = c
  clear h hne
  induction schemas with
  | nil => rfl
  | cons s rest ih =>
    rw [List.flatMap_cons, List.countP_append, ih, countP_reports, List.countP_cons]
    cases isNameless s <;> simp [Nat.add_comm]

end Generation

/-! ### What checking counts -/

namespace InspectCommand

open Generation FileTree

variable {s : Settings} {t : FileTree} {snapshot : Response.Snapshot} {now : Timestamp}
  {o : Generation.Output}

/-- The schemas that checking counts are those that a run with the same settings skips. -/
theorem skippedCount_eq_countP (s : Settings) (schemas : List Schema) :
    skippedCount s schemas = schemas.countP (isSkipped s.generation.legacySchemas) :=
  List.countP_eq_length_filter.symm

/-- Checking settings whose responses can be had reports their counts and changes nothing. -/
theorem check_run
    (hfetch : Run.answer (Response.fetch s.input.schemas s.input.customAttributes) t =
      .ok snapshot) :
    (check s : FileTree.Run Report).run t = (counts s snapshot, t) := by
  rw [check, (Response.readsOnly_fetch _ _).run_bind, hfetch]
  rfl

/-- **Checking and generating account for the same schemas.** Where the responses that settings
name can be had and hold schemas, checking prints the number of all schemas and of the skipped
ones. If a run with the same settings succeeds, each schema is skipped, declared or without an id,
and never two of these; the printed numbers, the number of declarations and that of missing ids are
the numbers of such schemas. So all schemas are those that are skipped, declared or reported. -/
theorem check_counts_of_generate
    (hfetch : Run.answer (Response.fetch s.input.schemas s.input.customAttributes) t =
      .ok snapshot)
    (hne : snapshot.schemas ≠ [])
    (h : generate (s.options now) snapshot.schemas snapshot.configurations = .ok o) :
    ∃ total skipped,
      (check s : FileTree.Run Report).run t =
        (⟨0, "✅ " ++ toString total ++ " schemas (" ++ toString skipped ++ " skipped), "
          ++ toString snapshot.configurations.length ++ " custom attributes\n", ""⟩, t) ∧
      total = skipped + o.schemaCount + o.diagnostics.items.countP isMissingId ∧
      (∀ schema ∈ snapshot.schemas, (isSkipped s.generation.legacySchemas schema).toNat +
        (isDeclared s.generation.legacySchemas schema).toNat + (isNameless schema).toNat = 1) ∧
      total = snapshot.schemas.length ∧
      skipped = snapshot.schemas.countP (isSkipped s.generation.legacySchemas) ∧
      o.schemaCount = snapshot.schemas.countP (isDeclared s.generation.legacySchemas) ∧
      o.diagnostics.items.countP isMissingId = snapshot.schemas.countP isNameless := by
  have hskipped := skippedCount_eq_countP s snapshot.schemas
  have hdeclared := schemaCount_of_generate h
  have hnameless := countP_missingId_of_generate h hne
  refine ⟨snapshot.schemas.length, skippedCount s snapshot.schemas, ?_, ?_,
    fun schema _ => kinds_eq_one _ schema, rfl, hskipped, hdeclared, hnameless⟩
  · rw [check_run hfetch, counts, if_neg (by simpa using hne)]
  · rw [hskipped, hdeclared, hnameless]
    exact length_eq_countP fun schema _ => kinds_eq_one _ schema

/-- A file with five schemas in order of id: one without an id, one with the empty one, one that is
skipped, and two of one id. -/
def mixedTree : FileTree :=
  ⟨[(["s.json"], .file ("[\x7b\x7d,\x7b\"id\":\"\"\x7d,\x7b\"id\":\"Message\"\x7d," ++
    "\x7b\"id\":\"Shot\"\x7d,\x7b\"id\":\"Shot\"\x7d]").toUTF8)], []⟩

/-- Settings that name the file. -/
def mixedSettings : Settings := { Settings.default with input := ⟨"s.json", none⟩ }

/-- Of the five schemas one is skipped, two are declared and two are reported. -/
theorem check_counts_of_mixedTree :
    ∃ snapshot o, Run.answer (Response.fetch "s.json" none) mixedTree = .ok snapshot ∧
      snapshot.schemas ≠ [] ∧
      generate (mixedSettings.options ⟨0, 0⟩) snapshot.schemas snapshot.configurations = .ok o ∧
      (check mixedSettings : FileTree.Run Report).run mixedTree =
        (⟨0, "✅ 5 schemas (1 skipped), 0 custom attributes\n", ""⟩, mixedTree) ∧
      o.schemaCount = 2 ∧ o.diagnostics.items.countP isMissingId = 2 := by
  have hcounts : (Run.answer (Response.readRecords Schema.ofJson? "s.json") mixedTree).toOption.map
      (fun schemas => (schemas.length,
        schemas.countP (isSkipped mixedSettings.generation.legacySchemas),
        schemas.countP (isDeclared mixedSettings.generation.legacySchemas),
        schemas.countP isNameless,
        decide (schemas.Pairwise fun a b => Response.notAfter a b = true),
        (generate (mixedSettings.options ⟨0, 0⟩) schemas []).toOption.isSome)) =
      some (5, 1, 2, 2, true, true) := by decide +kernel
  have eq_ok {ε α : Type} {x : Except ε α} {a : α} (h : x.toOption = some a) : x = .ok a := by
    cases x with
    | error e => cases h
    | ok b => rw [Option.some.inj h]
  obtain ⟨schemas, hrecords, hcounts⟩ := Option.map_eq_some_iff.1 hcounts
  simp only [Prod.mk.injEq, decide_eq_true_eq] at hcounts
  obtain ⟨hlength, hskip, hdeclare, hname, hsorted, hgenerate⟩ := hcounts
  obtain ⟨o, ho⟩ := Option.isSome_iff_exists.1 hgenerate
  -- the schemas are in order already, so that sorting them changes nothing
  have hfetch : Run.answer (Response.fetch "s.json" none) mixedTree = .ok ⟨schemas, []⟩ := by
    rw [Response.fetch, Run.answer_bind, eq_ok hrecords]
    show Except.ok (⟨Response.sortById schemas, []⟩ : Response.Snapshot) = _
    rw [Response.sortById, List.mergeSort_of_pairwise hsorted]
  have hne : schemas ≠ [] := by
    rintro rfl
    cases hlength
  have hok := eq_ok ho
  obtain ⟨total, skipped, hrun, -, -, htotal, hskipped, hdeclared, hmissing⟩ :=
    check_counts_of_generate (s := mixedSettings) hfetch hne hok
  have hreport : "✅ " ++ toString 5 ++ " schemas (" ++ toString 1 ++ " skipped), " ++
      toString 0 ++ " custom attributes\n" =
        "✅ 5 schemas (1 skipped), 0 custom attributes\n" := by decide +kernel
  have hnone : ([] : List AttributeConfiguration).length = 0 := rfl
  rw [htotal, hlength, hskipped, hskip, hnone, hreport] at hrun
  exact ⟨_, o, hfetch, hne, hok, hrun, hdeclared.trans hdeclare, hmissing.trans hname⟩

end InspectCommand

end EntityTypings
