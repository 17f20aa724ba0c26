import EntityTypings.Failure
import EntityTypings.Files.Access
import EntityTypings.Response

/-!
# Saved responses in files

Reads the two responses of a run from files. The schemas come first and are put
in order of id; the configurations of custom attributes are optional and keep
their order. The first file that cannot be read decides the failure.
-/

namespace EntityTypings.Response

variable {m : Type → Type} [Monad m] [FileAccess m] {α : Type}

/-- What both responses hold. -/
structure Snapshot where
  /-- The schemas in order of id. -/
  schemas : List Schema
  /-- The configurations of custom attributes in the order of their response. -/
  configurations : List AttributeConfiguration

/-- The records of a response given by the text of its file, or by the error of
reading it. -/
def recordsOf (read : Json → Option α) (path : String) :
    Except FileError String → Except Failure (List α)
  | .error e => .error (.file e.message)
  | .ok text =>
    match parse read text with
    | .error fault => .error (.catalog (path ++ ": " ++ fault.message))
    | .ok records => .ok records

/-- The records of the response in a file. -/
def readRecords (read : Json → Option α) (path : String) : m (Except Failure (List α)) :=
  return recordsOf read path (← FileAccess.readText path)

/-- The contents of the responses in two files, the second one optional. -/
def fetch (schemasPath : String) (configurationsPath : Option String) :
    m (Except Failure Snapshot) := do
  match ← readRecords Schema.ofJson? schemasPath with
  | .error failure => return .error failure
  | .ok schemas =>
    match configurationsPath with
    | none => return .ok ⟨sortById schemas, []⟩
    | some path =>
      match ← readRecords AttributeConfiguration.ofJson? path with
      | .error failure => return .error failure
      | .ok configurations => return .ok ⟨sortById schemas, configurations⟩

end EntityTypings.Response
