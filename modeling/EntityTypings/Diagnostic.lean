import EntityTypings.Json.Record

/-!
# Diagnostics

Problems that do not end a run. They are collected in the order in which they
are found, echoed at the end of the generated source and handed to the caller.
Only an empty catalog counts as an error; the others are warnings.
-/

namespace EntityTypings

/-- The kind of a problem. -/
inductive DiagnosticCode where
  /-- A schema has no id and is left out. -/
  | missingSchemaId
  /-- A property has neither a target nor a type and is left out. -/
  | untypedProperty
  /-- The catalog has no schemas and nothing is generated. -/
  | noSchemas
  deriving DecidableEq, Repr

/-- How grave a problem is. -/
inductive Severity where
  /-- The run goes on without the part concerned. -/
  | warning
  /-- Nothing is generated. -/
  | error
  deriving DecidableEq, Repr

namespace DiagnosticCode

/-- The short code that stands in front of a message. -/
def label : DiagnosticCode → String
  | missingSchemaId => "W001"
  | untypedProperty => "W002"
  | noSchemas => "E001"

/-- The name under which the kind is serialised. -/
def name : DiagnosticCode → String
  | missingSchemaId => "MissingSchemaId"
  | untypedProperty => "UntypedProperty"
  | noSchemas => "NoSchemas"

/-- All kinds. -/
def all : List DiagnosticCode := [missingSchemaId, untypedProperty, noSchemas]

/-- The kind with a given name. -/
def ofName? (name : String) : Option DiagnosticCode := all.find? (fun c => c.name = name)

@[simp] theorem ofName?_name (c : DiagnosticCode) : ofName? c.name = some c := by
  cases c <;> rfl

/-- How grave problems of the kind are. -/
def severity : DiagnosticCode → Severity
  | noSchemas => .error
  | missingSchemaId | untypedProperty => .warning

/-- The kind given by its name, alone or as the only field of an object whose value is `null`. -/
def ofJson? : Json → Option DiagnosticCode
  | .string name => ofName? name
  | .object [(name, .null)] => ofName? name
  | _ => none

end DiagnosticCode

/-- The word for a severity. -/
def Severity.word : Severity → String
  | .warning => "warning"
  | .error => "error"

/-- One problem. -/
structure Diagnostic where
  /-- The id of the schema concerned, empty when there is none. -/
  schemaId : String
  /-- The kind of problem. -/
  code : DiagnosticCode
  /-- The message as it is echoed into the generated source. -/
  message : String
  deriving DecidableEq, Repr

namespace Diagnostic

/-- A schema without an id. -/
def missingSchemaId : Diagnostic := ⟨"", .missingSchemaId, "No id defined for schema"⟩

/-- A property with neither a target nor a type. -/
def untypedProperty (schemaId property : String) : Diagnostic :=
  ⟨schemaId, .untypedProperty,
    s!"No type or $ref defined for property {property} in schema {schemaId}"⟩

/-- A catalog without schemas. -/
def noSchemas : Diagnostic := ⟨"", .noSchemas, "No schemas found!"⟩

/-- How grave the problem is. -/
def severity (d : Diagnostic) : Severity := d.code.severity

/-- The problem on one line, with its code and its severity. -/
def text (d : Diagnostic) : String := s!"[{d.code.label}] {d.severity.word}: {d.message}"

/-- The serialised problem. -/
def toJson (d : Diagnostic) : Json :=
  .object [("schema_id", .string d.schemaId), ("code", .string d.code.name),
    ("message", .string d.message)]

/-- The problem that a serialised record stands for. -/
def ofJson? (j : Json) : Option Diagnostic := do
  match ← Json.Record.byNameOrPosition ["schema_id", "code", "message"] j with
  | [schemaId, code, message] =>
    return {
      schemaId := ← Json.Record.required Json.asString? schemaId
      code := ← Json.Record.required DiagnosticCode.ofJson? code
      message := ← Json.Record.required Json.asString? message }
  | _ => none

end Diagnostic

/-- The problems of one run, in the order in which they were found. -/
structure Diagnostics where
  /-- The problems. -/
  items : List Diagnostic
  deriving DecidableEq, Repr

namespace Diagnostics

/-- No problems. -/
def empty : Diagnostics := ⟨[]⟩

instance : Inhabited Diagnostics := ⟨empty⟩

/-- The problems with one more at the end. -/
def push (ds : Diagnostics) (d : Diagnostic) : Diagnostics := ⟨ds.items ++ [d]⟩

/-- The problems with several more at the end. -/
def append (ds : Diagnostics) (more : List Diagnostic) : Diagnostics := ⟨ds.items ++ more⟩

@[simp] theorem items_push (ds : Diagnostics) (d : Diagnostic) :
    (ds.push d).items = ds.items ++ [d] := rfl

@[simp] theorem items_append (ds : Diagnostics) (more : List Diagnostic) :
    (ds.append more).items = ds.items ++ more := rfl

/-- Whether there are no problems. -/
def isEmpty (ds : Diagnostics) : Bool := ds.items.isEmpty

/-- Whether some problem is an error. -/
def hasErrors (ds : Diagnostics) : Bool := ds.items.any (fun d => d.severity = .error)

/-- The messages, in order. -/
def messages (ds : Diagnostics) : List String := ds.items.map Diagnostic.message

/-- The problems, one to a line. -/
def text (ds : Diagnostics) : String :=
  String.join (ds.items.map (fun d => d.text ++ "\n"))

/-- The serialised problems. -/
def toJson (ds : Diagnostics) : Json := .object [("items", .list (ds.items.map Diagnostic.toJson))]

/-- The problems that a serialised record stands for. -/
def ofJson? (j : Json) : Option Diagnostics := do
  match ← Json.Record.byNameOrPosition ["items"] j with
  | [items] => return ⟨← Json.Record.required (Json.listOf? Diagnostic.ofJson?) items⟩
  | _ => none

end Diagnostics

end EntityTypings
