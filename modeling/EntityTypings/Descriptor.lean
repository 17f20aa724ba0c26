import EntityTypings.Failure
import EntityTypings.Json.Basic
import EntityTypings.TypeExpr

/-!
# Property descriptors

A schema describes each of its properties by a JSON object. A non-empty `$ref`
names another schema; otherwise a non-empty `type` names one of the kinds of the
catalog's vocabulary, of which the two sequence kinds say under `items` what
their items are; an object with neither is untyped. A field that is absent,
`null` or the empty text counts as empty.

`Descriptor.ofJson` reads a descriptor. An untyped descriptor may stand alone
but not under `items`, and by its type a descriptor has items exactly if it is a
sequence. `Descriptor.typeExpr?` is the type of a property that is described so;
only an untyped property has none. `propertyType?` adds one rule: a property
named `link` whose type is `string` holds in fact a list of link records.
-/

namespace EntityTypings

/-! ### The vocabulary -/

/-- The kinds of values without items. -/
inductive ScalarKind where
  /-- Any object. -/
  | object
  /-- A text. -/
  | string
  /-- A number. -/
  | number
  /-- A truth value. -/
  | boolean
  /-- A whole number. -/
  | integer
  /-- A text, a number, a truth value or a list of texts. -/
  | variant
  deriving DecidableEq, Repr

/-- The kinds of sequences. -/
inductive SequenceKind where
  /-- A list of items. -/
  | array
  /-- A list of items that the server also offers by key. -/
  | mappedArray
  deriving DecidableEq, Repr

/-- A kind of the vocabulary. -/
inductive Kind where
  /-- A kind without items. -/
  | scalar (kind : ScalarKind)
  /-- A kind with items. -/
  | sequence (kind : SequenceKind)
  deriving DecidableEq, Repr

/-- The name of a scalar kind in a catalog. -/
def ScalarKind.name : ScalarKind → String
  | .object => "object"
  | .string => "string"
  | .number => "number"
  | .boolean => "boolean"
  | .integer => "integer"
  | .variant => "variable"

/-- The name of a sequence kind in a catalog. -/
def SequenceKind.name : SequenceKind → String
  | .array => "array"
  | .mappedArray => "mapped_array"

namespace Kind

/-- The name of a kind in a catalog. -/
def name : Kind → String
  | scalar k => k.name
  | sequence k => k.name

/-- Whether values of the kind have items. -/
def isSequence : Kind → Bool
  | scalar _ => false
  | sequence _ => true

/-- All kinds. -/
def all : List Kind :=
  [scalar .object, sequence .array, sequence .mappedArray, scalar .string, scalar .number,
    scalar .boolean, scalar .integer, scalar .variant]

/-- The kind with a given name. -/
def ofName? (name : String) : Option Kind := all.find? (fun k => k.name = name)

@[simp] theorem ofName?_name (k : Kind) : ofName? k.name = some k := by
  rcases k with k | k <;> cases k <;> rfl

/-- A name is that of at most one kind. -/
theorem ofName?_eq_some_iff {name : String} {k : Kind} : ofName? name = some k ↔ k.name = name := by
  constructor
  · intro h
    simpa using List.find?_some h
  · rintro rfl
    exact ofName?_name k

end Kind

/-! ### Descriptors -/

/-- What a property holds. -/
inductive Descriptor where
  /-- An entity of the schema named `target`. -/
  | reference (target : String)
  /-- A value without items. -/
  | scalar (kind : ScalarKind)
  /-- A sequence of items. -/
  | sequence (kind : SequenceKind) (items : Descriptor)
  /-- Neither a reference nor a kind is given. -/
  | untyped
  deriving DecidableEq, Repr

namespace Descriptor

/-- The text of a field of a descriptor, none if the field is empty; anything
but a text or `null` is malformed. -/
def textField (fields : List (String × Json)) (name : String) :
    Except DescriptorFault (Option String) :=
  match fields.lookup name with
  | none | some .null => .ok none
  | some (.string s) => .ok (if s.isEmpty then none else some s)
  | some _ => .error .malformed

/-- A descriptor in the place of items: it may not be untyped. -/
def asItems : Except DescriptorFault Descriptor → Except DescriptorFault Descriptor
  | .ok .untyped => .error .missingItems
  | r => r

mutual

/-- The descriptor that a value stands for. -/
def ofJson : Json → Except DescriptorFault Descriptor
  | .object fields =>
    match textField fields "$ref" with
    | .error e => .error e
    | .ok (some target) => .ok (.reference target)
    | .ok none =>
      match textField fields "type" with
      | .error e => .error e
      | .ok none => .ok .untyped
      | .ok (some name) =>
        match Kind.ofName? name with
        | none => .error (.unknownType name)
        | some (.scalar k) => .ok (.scalar k)
        | some (.sequence k) => (itemsOf fields).map (.sequence k)
  | _ => .error .malformed

/-- The descriptor under `items`. -/
def itemsOf : List (String × Json) → Except DescriptorFault Descriptor
  | [] => .error .missingItems
  | (name, j) :: rest =>
    if name = "items" then
      if j.isNull then .error .missingItems else asItems (ofJson j)
    else itemsOf rest

end

/-- The items are those of the field `items`, if it is there and not `null`. -/
theorem itemsOf_eq (fields : List (String × Json)) :
    itemsOf fields =
      match fields.lookup "items" with
      | none | some .null => .error .missingItems
      | some j => asItems (ofJson j) := by
  induction fields with
  | nil => simp [itemsOf]
  | cons f rest ih =>
    obtain ⟨name, j⟩ := f
    unfold itemsOf
    by_cases h : name = "items"
    · subst h
      cases j <;> simp [Json.isNull]
    · have h' : ("items" == name) = false := by simpa using Ne.symm h
      simp [h, ih, List.lookup_cons, h']

/-! ### Types -/

/-- The type of a scalar kind. -/
def scalarType : ScalarKind → TypeExpr
  | .integer => .number
  | .variant => .anyScalar
  | k => .named k.name

/-- The type of a property described so, none if the description is untyped. -/
def typeExpr? : Descriptor → Option TypeExpr
  | reference target => some (.named target)
  | scalar k => some (scalarType k)
  | sequence _ items => items.typeExpr?.map .array
  | untyped => none

/-- The name of the record of which links are lists. -/
def basicLink : String := "BasicLink"

/-- The type of a property of the given name. The catalog describes `link` as a
text, but its values are lists of link records. -/
def propertyType? (name : String) (d : Descriptor) : Option TypeExpr :=
  d.typeExpr?.map (fun t =>
    if name = "link" ∧ t.isBareString then .array (.named basicLink) else t)

/-- A property has a type exactly if its description as such has one. -/
@[simp] theorem propertyType?_isSome (name : String) (d : Descriptor) :
    (propertyType? name d).isSome = d.typeExpr?.isSome := by
  simp [propertyType?]

end Descriptor

end EntityTypings
