import EntityTypings.Attribute.Types
import EntityTypings.Resolution
import EntityTypings.Timestamp

/-!
# The generated source

The declarations that a run generates and the source that they make up: a
preamble of comments, one declaration for each schema, the lookups over all
schemas, the declarations for custom attributes and, if there were problems, a
trailer of comments.

A subtype of the context family is declared as the root applied to its own id,
whatever properties it has. Every other schema is declared as an interface with
its resolved members and the two members that the generator adds; if it has a
base, it extends the base without those members, and without
`custom_attributes` if some base declares it.
-/

namespace EntityTypings

/-! ### Schemas -/

namespace Schema

/-- The names of the lookup of the context family and of its keys. -/
def subtypeMap : String := "TypedContextSubtypeMap"

/-- The name of the type of the keys of that lookup. -/
def subtypeKeys : String := "TypedContextSubtype"

/-- The type parameters of the declaration: the root has the subtype as one. -/
def parameters (s : Schema) : String :=
  if s.isRoot then
    "<" ++ rootParameter ++ " extends " ++ subtypeKeys ++ " = " ++ subtypeKeys ++ ">"
  else ""

/-- The members that the generator adds. -/
def addedMembers (s : Schema) : List Member :=
  [.optional entityType (.named (if s.isRoot then rootParameter else literal s.displayId)),
    .optional permissions (.named "Record<string, any>")]

/-- The declaration of a subtype. -/
def subtypeDeclaration (s : Schema) : Declaration :=
  .typeAlias s.displayId "" (rootId ++ "<" ++ literal s.displayId ++ ">")

end Schema

namespace Catalog

/-- What the declaration of a schema takes over from that of its base. -/
def heritage? (c : Catalog) (s : Schema) : Option Heritage := do
  let id ← (← c.base? s).id?
  let omitted := [Schema.entityType, Schema.permissions]
  return ⟨id, if (c.chainNames s).contains Schema.customAttributes
    then omitted ++ [Schema.customAttributes] else omitted⟩

/-- The interface of a schema with the given members of its own. -/
def interfaceOf (c : Catalog) (s : Schema) (members : List Member) : Declaration :=
  .interface s.displayId s.parameters (c.heritage? s) (members ++ s.addedMembers)

/-- The outcome of declaring a schema. -/
structure Declared where
  /-- The untyped properties that were found. -/
  diagnostics : List Diagnostic
  /-- The declaration. -/
  declaration : Except Failure Declaration

/-- The declaration of a schema. -/
def declare (c : Catalog) (s : Schema) : Declared :=
  if s.isSubtype then ⟨[], .ok s.subtypeDeclaration⟩
  else
    let r := c.resolve s
    ⟨r.diagnostics, r.members.map (c.interfaceOf s)⟩

/-- A subtype is declared as an alias of the root. -/
theorem declare_of_isSubtype {c : Catalog} {s : Schema} (h : s.isSubtype = true) :
    c.declare s = ⟨[], .ok s.subtypeDeclaration⟩ := by
  simp [declare, h]

end Catalog

/-! ### Lookups -/

namespace Declaration

/-- The record of which links are lists. -/
def basicLink : Declaration :=
  .interface Descriptor.basicLink "" none
    [.plain "id" .string, .plain "type" .string, .plain "name" .string]

/-- The interface that maps each id to the declaration of that name. -/
def identityMap (name : String) (ids : List String) : Declaration :=
  .interface name "" none (ids.map (fun id => .plain id (.named id)))

/-- The name of the lookup of all schemas. -/
def entityMapName : String := "EntityTypeMap"

/-- The lookup of all schemas, with the type of its keys and that of its values. -/
def entityMap (ids : List String) : List Declaration :=
  [identityMap entityMapName ids,
    .typeAlias "EntityType" "" "keyof EntityTypeMap",
    .typeAlias "EntityData" "<TEntityType extends EntityType = EntityType>"
      "EntityTypeMap[TEntityType]"]

/-- The lookup of the context family, with the type of its keys. -/
def subtypeMap (ids : List String) : List Declaration :=
  [identityMap Schema.subtypeMap ids,
    .typeAlias Schema.subtypeKeys "" ("keyof " ++ Schema.subtypeMap)]

/-! ### Custom attributes -/

/-- The name of the type of the rows of the configuration table. -/
def rowTypeName : String := "RuntimeCustomAttributeConfiguration"

/-- The types of the rows of the configuration table and of two of their fields. -/
def rowTypes : List Declaration :=
  [.typeAlias rowTypeName "" ("ReturnType<typeof " ++ configurationTableName ++ ">[number]"),
    .typeAlias (rowTypeName ++ "Name") "" (rowTypeName ++ "[\"name\"]"),
    .typeAlias (rowTypeName ++ "Label") "" (rowTypeName ++ "[\"label\"]")]

/-- The value record of a key. -/
def valueRecord (types : AttributeTypes) (key : String) : Option Declaration :=
  (types.valueType? key).map (fun t =>
    .attributeValue (types.typeName key)
      [.plain "key" (.named (Json.quoted key)), .plain "value" t])

/-- The lookup from schemas to the types of their attributes. -/
def attributeMap (types : AttributeTypes) (schemas : List Schema) : Declaration :=
  .interface Schema.attributeMap "" none
    (schemas.map (fun s => .plain s.displayId (types.schemaType s)))

/-- The declarations for custom attributes. -/
def attributes (configurations : List AttributeConfiguration) (schemas : List Schema) :
    List Declaration :=
  let types := AttributeTypes.derive configurations
  .configurationTable configurations :: rowTypes
    ++ types.keys.filterMap (valueRecord types) ++ [attributeMap types schemas]

end Declaration

/-! ### The whole source -/

/-- The preamble: when the source was generated and from which server. -/
def preamble (generatedAt : Option Timestamp) (serverVersion serverUrl : Option String) :
    List String :=
  (generatedAt.map (fun t => "// Generated on " ++ t.text ++ " using schema")).toList
    ++ (if serverVersion.isSome || serverUrl.isSome then
      ["// from an instance running version " ++ serverVersion.getD "unknown"
        ++ " using server on " ++ serverUrl.getD "unknown"]
      else [])
    ++ ["// Not intended to modify manually"]

/-- Comments and an empty line below them. -/
def preambleLines (comments : List String) : List Line := comments.map (⟨0, ·⟩) ++ [⟨0, ""⟩]

/-- The trailer that repeats messages, if there are any. -/
def trailerLines (messages : List String) : List Line :=
  if messages.isEmpty then []
  else ⟨0, ""⟩ :: ⟨0, "// Errors:"⟩ :: messages.map (fun m => ⟨0, "// " ++ m⟩)

/-- What a run generates. -/
structure Artifact where
  /-- The comments at the start. -/
  preamble : List String
  /-- The declarations of the schemas, in the order of the catalog. -/
  entities : List Declaration
  /-- The lookups over all schemas, each with the types that belong to it. -/
  lookups : List (List Declaration)
  /-- The declarations for custom attributes. -/
  attributes : List Declaration
  /-- The messages repeated at the end. -/
  messages : List String

namespace Artifact

/-- All declarations, in the order of the source. -/
def declarations (a : Artifact) : List Declaration :=
  a.entities ++ a.lookups.flatten ++ a.attributes

/-- The groups of declarations that an empty line follows. -/
def blocks (a : Artifact) : List (List Declaration) := a.entities.map ([·]) ++ a.lookups

/-- The lines of a block and the empty line below it. -/
def blockLines (block : List Declaration) : List Line :=
  block.flatMap Declaration.lines ++ [⟨0, ""⟩]

/-- The source as lines. -/
def lines (a : Artifact) : List Line :=
  preambleLines a.preamble ++ a.blocks.flatMap blockLines
    ++ a.attributes.flatMap Declaration.lines ++ trailerLines a.messages

/-- The source. -/
def text (a : Artifact) : String := renderLines 0 a.lines

end Artifact

end EntityTypings
