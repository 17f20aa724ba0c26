/-!
# Failures

What ends a run. A property of a schema can be wrong in three ways, and these
are the violations of the contract that a catalog keeps; the other two failures
concern the catalog files themselves. `Failure.message` is the wording.

Problems that do not end a run are diagnostics and live in
`EntityTypings.Diagnostic`.
-/

namespace EntityTypings

/-- What is wrong with the descriptor of a property. -/
inductive DescriptorFault where
  /-- The named type is none of the types that a catalog uses. -/
  | unknownType (name : String)
  /-- A sequence does not say what its items are. -/
  | missingItems
  /-- The descriptor, or a part of it, does not have the shape of one. -/
  | malformed
  deriving DecidableEq, Repr

/-- What ends a run. -/
inductive Failure where
  /-- A property of a schema has a faulty descriptor. -/
  | property (schemaId name : String) (fault : DescriptorFault)
  /-- A saved response cannot be read as a catalog. -/
  | catalog (reason : String)
  /-- A file cannot be read or written. -/
  | file (reason : String)
  deriving DecidableEq, Repr

namespace Failure

/-- The wording of a failure. -/
def message : Failure → String
  | property schemaId name (.unknownType typeName) =>
    s!"Invalid type {typeName} for property {name} in schema {schemaId}"
  | property schemaId name .missingItems =>
    s!"No items defined for array {name} in schema {schemaId}"
  | property schemaId name .malformed =>
    s!"Property {name} in schema {schemaId} is not an object"
  | catalog reason => s!"Invalid catalog: {reason}"
  | file reason => s!"IO error: {reason}"

/-- Whether the contents of the catalog are at fault, and not the files. -/
def isContractViolation : Failure → Bool
  | property _ _ _ => true
  | catalog _ | file _ => false

@[simp] theorem isContractViolation_iff {f : Failure} :
    f.isContractViolation = true ↔ ∃ s p d, f = property s p d := by
  cases f <;> simp [isContractViolation]

end Failure

end EntityTypings
