import EntityTypings.Descriptor
import EntityTypings.Json.Record
import EntityTypings.Schema.Basic
import EntityTypings.Text.Case

/-!
# Custom attributes

The configurations of custom attributes: which key an attribute has, what kind
of value it holds and which schemas it applies to.

An attribute applies to a schema in three ways. A hierarchical attribute
applies to every schema that bears attributes; an attribute bound to an object
type applies to the schema of that id; a project attribute applies to every
schema, with an id, that is an alias of `show` in any case of letters.
-/

namespace EntityTypings

/-- The configuration of one custom attribute. -/
structure AttributeConfiguration where
  /-- The key under which entities hold the value. -/
  key : String
  /-- The name shown to users. -/
  label : String
  /-- The category of entities that have the attribute. -/
  entityType : String
  /-- The object type that the attribute is bound to, if any. -/
  objectType : Option String
  /-- Whether the attribute is inherited down the hierarchy of entities. -/
  isHierarchical : Bool
  /-- The kind of value. -/
  valueKind : String
  /-- The value of an entity that has none of its own. -/
  defaultValue : Json

namespace AttributeConfiguration

/-- The category of project attributes. -/
def showEntityType : String := "show"

/-- The type of values of a kind; a kind that is not known is taken for a type. -/
def typeOfKind (kind : String) : TypeExpr :=
  if kind ∈ ["date", "text", "url", "expression"] then .string
  else if kind ∈ ["enumerator", "dynamic enumerator"] then .array .string
  else .named kind

/-- The type of the values of an attribute. -/
def valueType (a : AttributeConfiguration) : TypeExpr := typeOfKind a.valueKind

/-- Whether the schema is an alias of `show`, in any case of letters. -/
def isShowAlias (s : Schema) : Bool :=
  s.aliasTarget?.any (fun target => lowerCase target = showEntityType)

/-- Whether the attribute applies to entities of a schema. -/
def appliesTo (a : AttributeConfiguration) (s : Schema) : Bool :=
  (a.isHierarchical && s.bearsAttributes) ||
    match s.id? with
    | none => false
    | some id => a.objectType = some id || (a.entityType = showEntityType && isShowAlias s)

/-! ### Configurations as JSON records -/

open Json Json.Record

/-- The fields of a configuration, in the order in which a list gives them. -/
def fieldNames : List String :=
  ["key", "label", "entity_type", "object_type", "is_hierarchical", "type", "default"]

/-- The name of a kind or an object type, given by a record of its own. -/
def nameOfJson? (j : Json) : Option String := do
  match ← byNameOrPosition ["name"] j with
  | [name] => required asString? name
  | _ => none

/-- The configuration that a value stands for. -/
def ofJson? (j : Json) : Option AttributeConfiguration := do
  match ← byNameOrPosition fieldNames j with
  | [key, label, entityType, objectType, isHierarchical, kind, value] =>
    return {
      key := ← required asString? key
      label := ← defaulted "" asString? label
      entityType := ← defaulted "" asString? entityType
      objectType := ← optional nameOfJson? objectType
      isHierarchical := ← defaulted false asBool? isHierarchical
      valueKind := ← required nameOfJson? kind
      defaultValue := ← defaulted null (fun j => some j.canonical) value }
  | _ => none

/-- The serialised configuration, from which a missing object type is left out. -/
def toJson (a : AttributeConfiguration) : Json :=
  .object <|
    [("key", .string a.key), ("label", .string a.label), ("entity_type", .string a.entityType)]
    ++ (a.objectType.map (fun n => ("object_type", .object [("name", .string n)]))).toList
    ++ [("is_hierarchical", .bool a.isHierarchical),
      ("type", .object [("name", .string a.valueKind)]), ("default", a.defaultValue)]

end AttributeConfiguration

end EntityTypings
