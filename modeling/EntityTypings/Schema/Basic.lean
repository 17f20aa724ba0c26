import EntityTypings.Json.Basic

/-!
# Schemas

One entity schema of a catalog: its properties with their raw descriptors, the
schema it is based on, and what it says about the properties as a whole.

One schema has a part of its own, the *root* of the context family, whose id is
`TypedContext`. A schema that is an alias of `Task`, given in the form of a
record, is a *subtype* of the root; an alias given as a bare name only marks the
schema and makes it no subtype. Root and subtypes are the *members* of the
family.

A name with a single leading underscore is deprecated; one with two is reserved
for the properties that the generator itself adds.
-/

namespace EntityTypings

/-- The mark that a schema is an alias. -/
inductive Alias where
  /-- The target is given as a bare name. -/
  | named (target : String)
  /-- The target is given in a record. -/
  | record (target : String)
  deriving DecidableEq, Repr

/-- The schema or category that the alias stands for. -/
def Alias.target : Alias → String
  | .named t => t
  | .record t => t

/-- One entity schema. -/
structure Schema where
  /-- The id as the catalog gives it, which may be missing or empty. -/
  givenId : Option String
  /-- The descriptors of the properties, read only when they are needed. -/
  properties : NameMap Json
  /-- The id of the schema that this one is based on. -/
  base : Option String
  /-- The mark that the schema is an alias. -/
  aliasOf : Option Alias
  /-- The properties that cannot be changed. -/
  immutable : List String
  /-- The properties that the server computes. -/
  computed : List String
  /-- The properties that have to be there. -/
  required : List String
  /-- The properties that identify an entity. -/
  primaryKey : List String

/-- Whether a property of this name is deprecated. -/
def isDeprecated (name : String) : Bool :=
  match name.toList with
  | '_' :: '_' :: _ => false
  | '_' :: _ => true
  | _ => false

namespace Schema

/-! ### Names with a meaning -/

/-- The id of the root of the context family. -/
def rootId : String := "TypedContext"

/-- The target that makes an alias a subtype of the root. -/
def subtypeMarker : String := "Task"

/-- The property that holds the values of custom attributes. -/
def customAttributes : String := "custom_attributes"

/-- The property that holds the type of an entity. -/
def entityType : String := "__entity_type__"

/-- The property that holds what may be done with an entity. -/
def permissions : String := "__permissions"

/-! ### Identity and family -/

/-- The id, unless it is missing or empty. -/
def id? (s : Schema) : Option String := s.givenId.filter (fun i => i ≠ "")

/-- The id for display and comparison, empty when it is missing. -/
def displayId (s : Schema) : String := s.givenId.getD ""

/-- The target of the alias. -/
def aliasTarget? (s : Schema) : Option String := s.aliasOf.map Alias.target

/-- Whether the schema is the root of the context family. -/
def isRoot (s : Schema) : Bool := s.id? = some rootId

/-- Whether the schema is a subtype of the root. -/
def isSubtype (s : Schema) : Bool := s.aliasOf = some (.record subtypeMarker) && !s.isRoot

/-- Whether the schema belongs to the context family. -/
def isMember (s : Schema) : Bool := s.isRoot || s.isSubtype

/-- An id that is there is not empty, and is the display id. -/
theorem id?_eq_some_iff {s : Schema} {i : String} :
    s.id? = some i ↔ s.displayId = i ∧ i ≠ "" := by
  unfold id? displayId
  cases h : s.givenId with
  | none => simp
  | some g =>
    simp only [Option.filter_some, Option.getD_some]
    by_cases hg : g = ""
    · simp [hg]
    · simp only [hg, ne_eq, not_false_eq_true, decide_true, if_true, Option.some.injEq]
      exact ⟨fun e => ⟨e, e ▸ hg⟩, And.left⟩

/-- The id, or the empty text where there is none, is the display id. -/
theorem id?_getD (s : Schema) : s.id?.getD "" = s.displayId := by
  unfold id? displayId
  cases h : s.givenId with
  | none => rfl
  | some g => by_cases hg : g = "" <;> simp [Option.filter, hg]

/-- The root is not a subtype of itself. -/
theorem isSubtype_eq_false_of_isRoot {s : Schema} (h : s.isRoot = true) : s.isSubtype = false := by
  simp [isSubtype, h]

/-! ### Properties -/

/-- Whether the schema declares a property of this name. -/
def has (s : Schema) (name : String) : Bool := s.properties.contains name

/-- Whether a property cannot be changed. -/
def isImmutable (s : Schema) (name : String) : Bool :=
  s.immutable.contains name || s.computed.contains name

/-- Whether a property has to be there. -/
def isRequired (s : Schema) (name : String) : Bool :=
  s.required.contains name || s.primaryKey.contains name

/-- Whether entities of the schema can have custom attributes. -/
def bearsAttributes (s : Schema) : Bool := s.isMember || s.has customAttributes

end Schema

end EntityTypings
