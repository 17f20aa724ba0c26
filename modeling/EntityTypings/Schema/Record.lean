import EntityTypings.Json.Record
import EntityTypings.Schema.Basic

/-!
# Schemas as JSON records

How a schema is read from a catalog and how it is serialised. Every field may
be missing or `null`. The alias is either a bare name or an object, never a
list, and further fields of the object are ignored. Of a base, only the id
under `$ref` is kept.
-/

namespace EntityTypings

open Json Json.Record

/-- The alias that a value stands for. -/
def Alias.ofJson? : Json → Option Alias
  | .string target => some (.named target)
  | j => do
    match ← byName ["id"] j with
    | [target] => return .record (← Record.required asString? target)
    | _ => none

/-- The serialised alias. -/
def Alias.toJson : Alias → Json
  | .named target => .string target
  | .record target => .object [("id", .string target)]

/-- An alias is read back from its serialisation. -/
theorem Alias.ofJson?_toJson (a : Alias) : Alias.ofJson? a.toJson = some a := by
  cases a <;> rfl

namespace Schema

/-- The fields of a schema, in the order in which a list gives them. -/
def fieldNames : List String :=
  ["id", "properties", "$mixin", "alias_for", "immutable", "computed", "required", "primary_key"]

/-- The id under `$ref`. -/
def referenceOfJson? (j : Json) : Option String := do
  match ← byNameOrPosition ["$ref"] j with
  | [target] => Record.required asString? target
  | _ => none

/-- The properties given by an object, each with its raw descriptor. -/
def propertiesOfJson? (j : Json) : Option (NameMap Json) :=
  j.asObject?.map (fun fields => NameMap.ofList (canonicalFields fields))

/-- The schema that a value stands for. -/
def ofJson? (j : Json) : Option Schema := do
  match ← byNameOrPosition fieldNames j with
  | [id, properties, base, aliasOf, immutable, computed, required, primaryKey] =>
    return {
      givenId := ← optional asString? id
      properties := ← nullable .empty propertiesOfJson? properties
      base := ← optional referenceOfJson? base
      aliasOf := ← optional Alias.ofJson? aliasOf
      immutable := ← nullable [] asStrings? immutable
      computed := ← nullable [] asStrings? computed
      required := ← nullable [] asStrings? required
      primaryKey := ← nullable [] asStrings? primaryKey }
  | _ => none

/-- The serialised schema, from which a missing base and a missing alias are left out. -/
def toJson (s : Schema) : Json :=
  .object <|
    [("id", orNull (s.givenId.map .string)), ("properties", .object s.properties.entries)]
    ++ (s.base.map (fun b => ("$mixin", .object [("$ref", .string b)]))).toList
    ++ (s.aliasOf.map (fun a => ("alias_for", a.toJson))).toList
    ++ [("immutable", strings s.immutable), ("computed", strings s.computed),
      ("required", strings s.required), ("primary_key", strings s.primaryKey)]

end Schema

end EntityTypings
