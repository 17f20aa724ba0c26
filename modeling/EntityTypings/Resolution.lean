import EntityTypings.Catalog
import EntityTypings.Declaration
import EntityTypings.Descriptor
import EntityTypings.Diagnostic

/-!
# Resolving properties

Which properties a schema declares itself, and with what types.

Deprecated names are dropped, and so are inherited ones, except that
`custom_attributes` is always declared again, with a type of its own for each
schema. What is left is taken in order of name. A faulty descriptor ends the
run; an untyped property is reported and left out.

`candidates` are the properties to be declared and `resolve` goes through them.
A failure keeps the diagnostics found before it.
-/

namespace EntityTypings

/-- The outcome of resolving the properties of a schema. -/
structure Resolution where
  /-- The untyped properties that were found, up to the failure if there is one. -/
  diagnostics : List Diagnostic
  /-- The members to be declared. -/
  members : Except Failure (List Member)

namespace Schema

/-- The name of the lookup from schemas to the types of their attributes. -/
def attributeMap : String := "TypedContextCustomAttributesMap"

/-- The name of the root's type parameter. -/
def rootParameter : String := "K"

/-- The type of the custom attributes of a schema's entities. -/
def attributesType (s : Schema) : TypeExpr :=
  .named ("Array<" ++ attributeMap ++ "["
    ++ (if s.isRoot then rootParameter else literal s.displayId) ++ "]>")

/-- The type of a property of the schema, none if it is untyped. -/
def memberType? (s : Schema) (name : String) (d : Descriptor) : Option TypeExpr :=
  if name = customAttributes then some s.attributesType else d.propertyType? name

/-- A property of the schema as a member. -/
def member (s : Schema) (name : String) (type : TypeExpr) : Member :=
  ⟨name, type, s.isImmutable name, !s.isRequired name⟩

/-- Goes through properties in order, typing each. -/
def resolveAll (s : Schema) : List (String × Json) → Resolution
  | [] => ⟨[], .ok []⟩
  | (name, j) :: rest =>
    match Descriptor.ofJson j with
    | .error fault => ⟨[], .error (.property s.displayId name fault)⟩
    | .ok d =>
      let r := s.resolveAll rest
      match s.memberType? name d with
      | none => ⟨.untypedProperty s.displayId name :: r.diagnostics, r.members⟩
      | some t => ⟨r.diagnostics, r.members.map (s.member name t :: ·)⟩

end Schema

namespace Catalog

/-- Whether a schema is to declare a property of this name itself. -/
def declares (c : Catalog) (s : Schema) (name : String) : Bool :=
  !isDeprecated name && (name = Schema.customAttributes || !(c.inheritedNames s).contains name)

/-- The properties that a schema declares itself, in order of name. -/
def candidates (c : Catalog) (s : Schema) : List (String × Json) :=
  let inherited := c.inheritedNames s
  s.properties.entries.filter (fun p =>
    !isDeprecated p.1 && (p.1 = Schema.customAttributes || !inherited.contains p.1))

/-- The members that a schema declares itself. -/
def resolve (c : Catalog) (s : Schema) : Resolution := s.resolveAll (c.candidates s)

/-- The candidates are the properties that the schema is to declare. -/
theorem mem_candidates {c : Catalog} {s : Schema} {p : String × Json} :
    p ∈ c.candidates s ↔ p ∈ s.properties.entries ∧ c.declares s p.1 = true := by
  simp [candidates, declares, List.mem_filter]

/-- The candidates are in order of name. -/
theorem candidates_sorted (c : Catalog) (s : Schema) :
    (c.candidates s).Pairwise (fun a b => a.1 < b.1) :=
  s.properties.sorted.filter _

end Catalog

end EntityTypings
