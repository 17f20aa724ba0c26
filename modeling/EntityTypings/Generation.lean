import EntityTypings.Artifact

/-!
# Generation

One run: from the schemas of a catalog and the configurations of custom
attributes to the generated source.

An empty catalog gives an empty source and a single error. Otherwise the schemas
are declared in the order of the catalog. A schema without an id is reported and
left out, a schema whose id is to be skipped is left out silently, and the first
schema that cannot be declared ends the run. A skipped schema can still be the
base of another.
-/

namespace EntityTypings

namespace Generation

/-- What a run is told besides its two inputs. -/
structure Options where
  /-- The version of the server, for the preamble. -/
  serverVersion : Option String
  /-- The address of the server, for the preamble. -/
  serverUrl : Option String
  /-- When the source is generated, for the preamble; without it the source does
  not depend on the time. -/
  generatedAt : Option Timestamp
  /-- The ids of the schemas that are left out. -/
  skipped : List String

/-- No header information, and nothing is left out. -/
def Options.default : Options := ⟨none, none, none, []⟩

/-- The schemas that servers still report but no longer use. -/
def legacySchemas : List String := ["Conversation", "Message", "Participant"]

/-- The options that leave out the legacy schemas. -/
def Options.withoutLegacy : Options := { Options.default with skipped := legacySchemas }

/-! ### Declaring the schemas -/

/-- The schemas that are declared, with what was found on the way. -/
structure Entities where
  /-- The schemas with their declarations, in the order of the catalog. -/
  declared : List (Schema × Declaration)
  /-- The problems, in the order in which they were found. -/
  diagnostics : List Diagnostic

namespace Entities

/-- The entities with problems found before theirs. -/
def after (found : List Diagnostic) (e : Entities) : Entities :=
  { e with diagnostics := found ++ e.diagnostics }

/-- The entities with a schema declared before theirs. -/
def cons (s : Schema) (d : Declaration) (e : Entities) : Entities :=
  { e with declared := (s, d) :: e.declared }

/-- The schemas that are declared. -/
def schemas (e : Entities) : List Schema := e.declared.map Prod.fst

/-- The ids of the schemas that are declared. -/
def ids (e : Entities) : List String := e.schemas.map Schema.displayId

/-- The ids of those that belong to the context family. -/
def memberIds (e : Entities) : List String :=
  (e.schemas.filter Schema.isMember).map Schema.displayId

end Entities

/-- Declares schemas in order, up to the first that cannot be declared. -/
def declareAll (c : Catalog) (skipped : List String) : List Schema → Except Failure Entities
  | [] => .ok ⟨[], []⟩
  | s :: rest =>
    match s.id? with
    | none => (declareAll c skipped rest).map (Entities.after [.missingSchemaId])
    | some id =>
      if id ∈ skipped then declareAll c skipped rest
      else
        match c.declare s with
        | ⟨_, .error failure⟩ => .error failure
        | ⟨found, .ok d⟩ =>
          (declareAll c skipped rest).map (fun e => (e.cons s d).after found)

/-! ### The run -/

/-- What a run gives. -/
structure Output where
  /-- The generated source, if there were any schemas. -/
  artifact : Option Artifact
  /-- The problems that were found. -/
  diagnostics : Diagnostics
  /-- The number of schemas that are declared. -/
  schemaCount : Nat

namespace Output

/-- The generated source as text, empty if there is none. -/
def text (o : Output) : String := (o.artifact.map Artifact.text).getD ""

/-- The messages of the problems. -/
def errors (o : Output) : List String := o.diagnostics.messages

/-- Whether there were no problems. -/
def isClean (o : Output) : Bool := o.errors.isEmpty

end Output

/-- The source for the declared schemas. -/
def assemble (options : Options) (configurations : List AttributeConfiguration)
    (e : Entities) : Artifact where
  preamble := preamble options.generatedAt options.serverVersion options.serverUrl
  entities := e.declared.map Prod.snd
  lookups :=
    [[.basicLink], Declaration.entityMap e.ids, Declaration.subtypeMap e.memberIds]
  attributes := Declaration.attributes configurations e.schemas
  messages := e.diagnostics.map Diagnostic.message

end Generation

open Generation in
/-- Generates the source for schemas and configurations. -/
def generate (options : Options) (schemas : List Schema)
    (configurations : List AttributeConfiguration) : Except Failure Output :=
  if schemas.isEmpty then .ok ⟨none, ⟨[.noSchemas]⟩, 0⟩
  else
    (declareAll ⟨schemas⟩ options.skipped schemas).map (fun e =>
      ⟨some (assemble options configurations e), ⟨e.diagnostics⟩, e.declared.length⟩)

namespace Generation

/-- An empty catalog gives no source. -/
@[simp] theorem generate_nil (options : Options) (configurations : List AttributeConfiguration) :
    generate options [] configurations = .ok ⟨none, ⟨[.noSchemas]⟩, 0⟩ := rfl

/-- A run gives no source exactly if the catalog is empty. -/
theorem artifact_eq_none_iff {options : Options} {schemas : List Schema}
    {configurations : List AttributeConfiguration} {o : Output}
    (h : generate options schemas configurations = .ok o) :
    o.artifact = none ↔ schemas = [] := by
  unfold generate at h
  cases schemas with
  | nil =>
    cases h
    simp
  | cons s rest =>
    simp only [List.isEmpty_cons, Bool.false_eq_true, if_false] at h
    cases hd : declareAll ⟨s :: rest⟩ options.skipped (s :: rest) with
    | error f => simp [hd, Except.map] at h
    | ok e =>
      simp only [hd, Except.map, Except.ok.injEq] at h
      simp [← h]

end Generation

end EntityTypings
