import EntityTypings.Json.Basic

/-!
# Records in JSON

How a record with named fields is given in JSON. An object gives fields by
name: the order is free, names that the record does not have are ignored, and a
name that it has may not be repeated. A list gives the fields by position, in
the order in which the record declares them: it may stop early and may not go on
beyond the last field.

`byName` and `byNameOrPosition` return one optional value per declared field;
`required` and `defaulted` say what a missing value means.
-/

namespace EntityTypings.Json.Record

/-! ### Finding fields -/

/-- The value that the fields of an object give for a name, if any; a repeated
name is an error. -/
def field? (fields : List (String × Json)) (name : String) : Option (Option Json) :=
  match fields.filter (fun f => f.1 = name) with
  | [] => some none
  | [f] => some (some f.2)
  | _ => none

/-- The values of the named fields, given by an object. -/
def byName (names : List String) : Json → Option (List (Option Json))
  | object fields => names.mapM (field? fields)
  | _ => none

/-- The values of the named fields, given by an object or by a list. -/
def byNameOrPosition (names : List String) : Json → Option (List (Option Json))
  | list items =>
    if items.length ≤ names.length then
      some (items.map some ++ List.replicate (names.length - items.length) none)
    else none
  | j => byName names j

/-! ### Reading fields -/

variable {α : Type}

/-- A field that has to be given. -/
def required (read : Json → Option α) (value : Option Json) : Option α :=
  value.bind read

/-- A field that has the value `default` when it is not given. -/
def defaulted (default : α) (read : Json → Option α) : Option Json → Option α
  | none => some default
  | some j => read j

/-- A field that has the value `default` when it is not given or `null`. -/
def nullable (default : α) (read : Json → Option α) : Option Json → Option α
  | none => some default
  | some j => (optional? read j).map (·.getD default)

/-- A field that may be missing or `null`. -/
def optional (read : Json → Option α) : Option Json → Option (Option α)
  | none => some none
  | some j => optional? read j

@[simp] theorem required_some (read : Json → Option α) (j : Json) :
    required read (some j) = read j := rfl

@[simp] theorem defaulted_none (default : α) (read : Json → Option α) :
    defaulted default read none = some default := rfl

@[simp] theorem defaulted_some (default : α) (read : Json → Option α) (j : Json) :
    defaulted default read (some j) = read j := rfl

@[simp] theorem optional_none (read : Json → Option α) : optional read none = some none := rfl

end EntityTypings.Json.Record
