import EntityTypings.Proofs.Assembly
import EntityTypings.Proofs.ResolvedProperties

/-!
# Schemas that cannot be declared

A source is written step by step, and one of the steps can fail: a schema with a faulty property has
no declaration. By then the untyped properties before the faulty one have been recorded, so the
failure does not leave the emission as it was. It does leave the text and the depth.

`Step` lists what an emission can be told to do. What a step does is said once, in `Step.effect`: it
appends a text and goes to a depth, both of which depend on the depth alone, and it records problems
that depend on nothing at all. So two emissions that differ in their problems only stay so
(`Tallies.step`), and a step that fails makes such a difference and no other (`Tallies.failed`).

The main statement, `schema_atomic`, is about one step and about many: from every emission, a schema
either appends its declaration or only records problems, for names before the faulty one; and in
every sequence of steps, leaving out those that fail changes nothing but the trailer.
-/

namespace EntityTypings

namespace Catalog

variable {c : Catalog} {s : Schema}

/-- A schema has a declaration if it is a subtype or all its candidates can be read. -/
theorem exists_declaration_of_allRead (h : s.isSubtype = true ∨ c.AllRead s) :
    ∃ d, (c.declare s).declaration = .ok d := by
  cases hs : s.isSubtype with
  | true => exact ⟨_, by rw [declaration_of_isSubtype hs]⟩
  | false =>
    have hread : c.AllRead s := by simpa [hs] using h
    rw [declaration_of_not_isSubtype hs, allRead_iff.1 hread]
    exact ⟨_, rfl⟩

/-- Otherwise it fails with the fault of its least faulty candidate, and what is found are the
lesser candidates that are left out. -/
theorem declare_of_not_allRead (hs : s.isSubtype = false) (h : ¬c.AllRead s) :
    ∃ name j fault, c.IsCandidate s name j ∧ Descriptor.ofJson j = .error fault ∧
      (∀ n i, c.IsCandidate s n i → n < name → ∃ d, Descriptor.ofJson i = .ok d) ∧
      ∃ untyped : List String, untyped.Pairwise (· < ·) ∧
        (∀ n, n ∈ untyped ↔ c.LeftOut s n ∧ n < name) ∧
        c.declare s = ⟨untyped.map (.untypedProperty s.displayId),
          .error (.property s.displayId name fault)⟩ := by
  obtain ⟨name, j, fault, hcandidate, hfault, hleast, hmembers, untyped, hsorted, hmem,
    hdiagnostics⟩ := resolve_of_not_allRead h
  refine ⟨name, j, fault, hcandidate, hfault, hleast, untyped, hsorted, hmem, ?_⟩
  simp only [declare, hs, Bool.false_eq_true, if_false, hmembers, hdiagnostics]
  rfl

end Catalog

namespace Emission

/-! ### Steps -/

/-- A step of writing a source. -/
inductive Step where
  /-- Appends a line. -/
  | line (text : String)
  /-- Appends an empty line. -/
  | blank
  /-- Appends a header with an opening brace. -/
  | opening (header : String)
  /-- Appends a closing brace. -/
  | closing (suffix : String)
  /-- Goes one level deeper. -/
  | indent
  /-- Goes one level less deep. -/
  | dedent
  /-- Records a problem. -/
  | report (d : Diagnostic)
  /-- Appends the preamble. -/
  | preamble (generatedAt : Option Timestamp) (serverVersion serverUrl : Option String)
  /-- Appends the declaration of a schema, or fails. -/
  | schema (c : Catalog) (s : Schema)
  /-- Appends declarations that are there already: those of lookups and of custom attributes. -/
  | declarations (ds : List Declaration)

/-- Carries out a step. -/
def take (e : Emission) : Step → Emission × Except Failure Unit
  | .line text => (e.line text, .ok ())
  | .blank => (e.blank, .ok ())
  | .opening header => (e.opening header, .ok ())
  | .closing suffix => (e.closing suffix, .ok ())
  | .indent => (e.indent, .ok ())
  | .dedent => (e.dedent, .ok ())
  | .report d => (e.report d, .ok ())
  | .preamble generatedAt serverVersion serverUrl =>
    (e.comments (EntityTypings.preamble generatedAt serverVersion serverUrl), .ok ())
  | .schema c s => e.schema c s
  | .declarations ds => (e.declarations ds, .ok ())

/-- The emission after steps, of which those that fail do not keep the others from being taken. -/
def after (e : Emission) (steps : List Step) : Emission := steps.foldl (fun e s => (e.take s).1) e

/-- The steps without those that fail where they stand. -/
def withoutFailed (e : Emission) : List Step → List Step
  | [] => []
  | s :: rest =>
    match (e.take s).2 with
    | .ok () => s :: withoutFailed (e.take s).1 rest
    | .error _ => withoutFailed (e.take s).1 rest

/-- What a step does to an emission, whatever has been written. -/
structure Effect where
  /-- The text that is appended, by the depth. -/
  text : Nat → String
  /-- The depth afterwards. -/
  depth : Nat → Nat
  /-- The problems that are recorded. -/
  found : List Diagnostic
  /-- Whether the step fails. -/
  outcome : Except Failure Unit

namespace Effect

/-- Lines at the depth that there is. -/
def ofLines (ls : List Line) : Effect := ⟨(renderLines · ls), id, [], .ok ()⟩

/-- An emission with the effect. -/
def apply (x : Effect) (e : Emission) : Emission × Except Failure Unit :=
  (⟨e.code ++ x.text e.depth, x.depth e.depth, e.diagnostics.append x.found⟩, x.outcome)

end Effect

/-- What a step does. -/
def Step.effect : Step → Effect
  | line text => .ofLines [⟨0, text⟩]
  | blank => .ofLines [⟨0, ""⟩]
  | opening header =>
    { Effect.ofLines [⟨0, if header = "" then "\x7b" else header ++ " \x7b"⟩] with
      depth := (· + 1) }
  | closing suffix =>
    ⟨fun depth => renderLines (depth - 1) [⟨0, "\x7d" ++ suffix⟩], (· - 1), [], .ok ()⟩
  | indent => { Effect.ofLines [] with depth := (· + 1) }
  | dedent => { Effect.ofLines [] with depth := (· - 1) }
  | report d => { Effect.ofLines [] with found := [d] }
  | preamble generatedAt serverVersion serverUrl =>
    .ofLines (preambleLines (EntityTypings.preamble generatedAt serverVersion serverUrl))
  | schema c s =>
    match (c.declare s).declaration with
    | .ok d => { Effect.ofLines d.lines with found := (c.declare s).diagnostics }
    | .error f =>
      { Effect.ofLines [] with found := (c.declare s).diagnostics, outcome := .error f }
  | declarations ds => .ofLines (ds.flatMap Declaration.lines)

theorem apply_ofLines (ls : List Line) (e : Emission) :
    (Effect.ofLines ls).apply e = (e.lines ls, .ok ()) := by
  simp [Effect.apply, Effect.ofLines, lines, Diagnostics.append]

/-- **What a step does**, from any emission. -/
theorem take_eq (e : Emission) (s : Step) : e.take s = s.effect.apply e := by
  cases s with
  | line text => exact (apply_ofLines _ e).symm
  | blank => exact (apply_ofLines _ e).symm
  | opening header =>
    simp [take, Step.effect, Effect.apply, Effect.ofLines, opening, line, lines, indent,
      Diagnostics.append]
  | closing suffix =>
    simp [take, Step.effect, Effect.apply, closing, line, lines, dedent, Diagnostics.append]
  | indent => simp [take, Step.effect, Effect.apply, Effect.ofLines, indent, Diagnostics.append]
  | dedent => simp [take, Step.effect, Effect.apply, Effect.ofLines, dedent, Diagnostics.append]
  | report d =>
    simp [take, Step.effect, Effect.apply, Effect.ofLines, report, Diagnostics.append,
      Diagnostics.push]
  | preamble generatedAt serverVersion serverUrl =>
    rw [take, comments_eq_lines]
    exact (apply_ofLines _ e).symm
  | schema c s =>
    rw [take, schema_eq_append]
    cases hd : (c.declare s).declaration with
    | ok d => simp [Step.effect, hd, Effect.apply, Effect.ofLines, append]
    | error f => simp [Step.effect, hd, Effect.apply, Effect.ofLines, append]
  | declarations ds =>
    rw [take, declarations_eq_lines]
    exact (apply_ofLines _ e).symm

/-- A step that fails appends nothing and leaves the depth as it is. -/
theorem effect_of_failed {s : Step} {f : Failure} (h : s.effect.outcome = .error f) :
    ∃ found, s.effect = ⟨fun _ => "", id, found, .error f⟩ := by
  cases s with
  | schema c s =>
    simp only [Step.effect] at h ⊢
    cases hd : (c.declare s).declaration with
    | ok d =>
      rw [hd] at h
      cases h
    | error failure =>
      rw [hd] at h
      obtain rfl : failure = f := Except.error.inj h
      exact ⟨_, rfl⟩
  | _ => cases h

/-! ### Emissions that differ in their problems -/

/-- The emissions have the same text at the same depth, and the first has the problems of the second
in their order, maybe with others among them. -/
structure Tallies (e kept : Emission) : Prop where
  /-- The same text. -/
  code : e.code = kept.code
  /-- The same depth. -/
  depth : e.depth = kept.depth
  /-- No problem is missing. -/
  diagnostics : kept.diagnostics.items.Sublist e.diagnostics.items

namespace Tallies

variable {e kept : Emission}

theorem refl (e : Emission) : Tallies e e := ⟨rfl, rfl, .refl _⟩

/-- A step does the same to both. -/
theorem step (h : Tallies e kept) (s : Step) : Tallies (e.take s).1 (kept.take s).1 := by
  rw [take_eq, take_eq]
  refine ⟨?_, ?_, h.diagnostics.append (.refl _)⟩
  · simp only [Effect.apply, h.code, h.depth]
  · simp only [Effect.apply, h.depth]

/-- A step that fails can be taken by one of them alone. -/
theorem failed (h : Tallies e kept) {s : Step} {f : Failure} (hf : (e.take s).2 = .error f) :
    Tallies (e.take s).1 kept := by
  rw [take_eq] at hf ⊢
  obtain ⟨found, heffect⟩ := effect_of_failed hf
  rw [heffect]
  exact ⟨by simp [Effect.apply, h.code], h.depth,
    h.diagnostics.trans (List.sublist_append_left _ _)⟩

/-- **Leaving out the steps that fail** changes neither text nor depth. -/
theorem withoutFailed (h : Tallies e kept) (steps : List Step) :
    Tallies (e.after steps) (kept.after (e.withoutFailed steps)) := by
  induction steps generalizing e kept with
  | nil => exact h
  | cons s rest ih =>
    cases hs : (e.take s).2 with
    | ok _ =>
      simp only [Emission.withoutFailed, hs]
      exact ih (h.step s)
    | error f =>
      -- The step is left out, so the second emission stays where it is.
      simp only [Emission.withoutFailed, hs]
      exact ih (h.failed hs)

/-- The finished texts are the same up to their trailers. -/
theorem finish (h : Tallies e kept) : ∃ text, e.finish.1 = text ++ trailer e.diagnostics ∧
    kept.finish.1 = text ++ trailer kept.diagnostics := by
  refine ⟨e.code, ?_, ?_⟩
  · rw [Emission.finish, renderLines_trailerLines]
  · rw [Emission.finish, renderLines_trailerLines, h.code]

end Tallies

end Emission

open Emission

/-- **A schema is declared as a whole or not at all.** From every emission: if the declaration of a
schema fails, it does so at a faulty property, and the text and the depth are as before; what is
recorded are untyped properties of the schema with lesser names. If it succeeds, the text and the
problems go on from those before, and the depth is as before. So in every sequence of steps those
that fail can be left out, and the finished text is the same up to the trailer, in which problems
can be missing. -/
theorem schema_atomic (e : Emission) (c : Catalog) (s : Schema) :
    (∀ f, (e.schema c s).2 = .error f → ∃ name j fault, ∃ untyped : List String,
      f = .property s.displayId name fault ∧ c.IsCandidate s name j ∧
      Descriptor.ofJson j = .error fault ∧ untyped.Pairwise (· < ·) ∧
      (∀ n, n ∈ untyped ↔ c.LeftOut s n ∧ n < name) ∧
      (e.schema c s).1.code = e.code ∧ (e.schema c s).1.depth = e.depth ∧
      (e.schema c s).1.diagnostics.items =
        e.diagnostics.items ++ untyped.map (.untypedProperty s.displayId)) ∧
    ((e.schema c s).2 = .ok () →
      (∃ text, (e.schema c s).1.code = e.code ++ text) ∧ (e.schema c s).1.depth = e.depth ∧
      e.diagnostics.items <+: (e.schema c s).1.diagnostics.items) ∧
    ∀ steps : List Step,
      let whole := e.after steps
      let kept := e.after (e.withoutFailed steps)
      (∃ text, whole.finish.1 = text ++ trailer whole.diagnostics ∧
        kept.finish.1 = text ++ trailer kept.diagnostics) ∧
      whole.depth = kept.depth ∧ kept.diagnostics.items.Sublist whole.diagnostics.items := by
  have htallies (steps : List Step) := (Tallies.refl e).withoutFailed steps
  refine ⟨fun f hf => ?_, fun hok => ?_, fun steps =>
    ⟨(htallies steps).finish, (htallies steps).depth, (htallies steps).diagnostics⟩⟩
  · have hnone : ¬(s.isSubtype = true ∨ c.AllRead s) := by
      intro hread
      obtain ⟨d, hd⟩ := Catalog.exists_declaration_of_allRead hread
      rw [schema_eq_append, hd] at hf
      cases hf
    obtain ⟨hsubtype, hread⟩ := not_or.1 hnone
    obtain ⟨name, j, fault, hcandidate, hfault, -, untyped, hsorted, hmem, hdeclare⟩ :=
      Catalog.declare_of_not_allRead (Bool.eq_false_iff.2 hsubtype) hread
    rw [schema_eq_append, hdeclare] at hf ⊢
    obtain rfl := Except.error.inj hf
    exact ⟨name, j, fault, untyped, rfl, hcandidate, hfault, hsorted, hmem, by simp [append],
      rfl, rfl⟩
  · rw [schema_eq_append] at hok ⊢
    cases hd : (c.declare s).declaration with
    | ok d => exact ⟨⟨_, rfl⟩, rfl, List.prefix_append _ _⟩
    | error f =>
      rw [hd] at hok
      cases hok

namespace Emission

/-- A source that has text, stands one level deep and has a problem. -/
def begun : Emission := ⟨"export namespace Entities \x7b\n", 1, ⟨[.noSchemas]⟩⟩

/-- A schema with an untyped property on either side of a faulty one. -/
def brokenVersion : Schema :=
  .plain "Version" none [("b", .string "text"), ("a", .object []), ("c", .object [])]

/-- Writing goes on after a schema that fails, inside braces and outside. -/
def stepsPastBrokenVersion : List Step :=
  [.opening "interface Names", .schema ⟨[]⟩ brokenVersion, .line "name: string;", .closing "",
    .schema ⟨[]⟩ brokenVersion, .report .missingSchemaId]

/-- Only the property before the faulty one is recorded. Of six steps two fail, and the source
without them has the same text and two problems fewer. -/
theorem schema_atomic_brokenVersion :
    (begun.schema ⟨[]⟩ brokenVersion).2 = .error (.property "Version" "b" .malformed) ∧
      (begun.schema ⟨[]⟩ brokenVersion).1 =
        ⟨begun.code, 1, ⟨[.noSchemas, .untypedProperty "Version" "a"]⟩⟩ ∧
      (begun.withoutFailed stepsPastBrokenVersion).length = 4 ∧
      ∃ text,
        (begun.after stepsPastBrokenVersion).finish.1 = text ++ trailer ⟨[.noSchemas,
          .untypedProperty "Version" "a", .untypedProperty "Version" "a", .missingSchemaId]⟩ ∧
        (begun.after (begun.withoutFailed stepsPastBrokenVersion)).finish.1 =
          text ++ trailer ⟨[.noSchemas, .missingSchemaId]⟩ := by
  have hfailed : (begun.schema ⟨[]⟩ brokenVersion).2 =
      .error (.property "Version" "b" .malformed) := by decide +kernel
  have hfound : (begun.schema ⟨[]⟩ brokenVersion).1.diagnostics =
      ⟨[.noSchemas, .untypedProperty "Version" "a"]⟩ := by decide +kernel
  obtain ⟨hatomic, -, hsteps⟩ := schema_atomic begun ⟨[]⟩ brokenVersion
  obtain ⟨_, _, _, _, -, -, -, -, -, hcode, hdepth, -⟩ := hatomic _ hfailed
  obtain ⟨⟨text, hwhole, hkept⟩, -⟩ := hsteps stepsPastBrokenVersion
  refine ⟨hfailed, ?_, by decide +kernel, text, ?_, ?_⟩
  · rw [← hcode, ← hfound]
    exact congrArg (Emission.mk _ · _) hdepth
  · rw [hwhole]
    exact congrArg (text ++ trailer ·) (by decide +kernel)
  · rw [hkept]
    exact congrArg (text ++ trailer ·) (by decide +kernel)

end Emission

end EntityTypings
