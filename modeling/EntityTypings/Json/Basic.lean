import EntityTypings.NameMap
import EntityTypings.Number.Decimal

/-!
# JSON values

A value is kept as its text gives it: the fields of an object stand in the
order of the text and a name may be repeated, because records are read by
rules that notice a repeated field. `canonical` gives the value that free-form
JSON stands for, in which the names of an object increase and of two values
given for one name the later one has won.

A number without fraction and exponent that fits 64 bits is an integer, and
any other number is a decimal, the shortest that reads back as the
floating-point number meant.
-/

namespace EntityTypings

/-- A JSON value. -/
inductive Json where
  /-- The value `null`. -/
  | null
  /-- A truth value. -/
  | bool (b : Bool)
  /-- A number that fits a signed or unsigned 64-bit integer. -/
  | integer (n : Int)
  /-- Any other number. -/
  | real (d : Decimal)
  /-- A text. -/
  | string (s : String)
  /-- A list of values. -/
  | list (items : List Json)
  /-- An object, with its fields in the order of the text. -/
  | object (fields : List (String × Json))
  deriving Inhabited

namespace Json

/-- Whether the value is `null`. -/
def isNull : Json → Bool
  | null => true
  | _ => false

@[simp] theorem isNull_iff {j : Json} : j.isNull = true ↔ j = null := by
  cases j <;> simp [isNull]

mutual

/-- The value with the names of every object in increasing order, none twice. -/
def canonical : Json → Json
  | list items => list (canonicalItems items)
  | object fields => object (NameMap.ofList (canonicalFields fields)).entries
  | j => j

/-- Each value of a list made canonical. -/
def canonicalItems : List Json → List Json
  | [] => []
  | j :: rest => j.canonical :: canonicalItems rest

/-- The value of each field made canonical. -/
def canonicalFields : List (String × Json) → List (String × Json)
  | [] => []
  | (name, j) :: rest => (name, j.canonical) :: canonicalFields rest

end

/-- A list of texts as a value. -/
def strings (texts : List String) : Json := list (texts.map string)

/-- A value or `null`. -/
def orNull : Option Json → Json
  | some j => j
  | none => null

/-- A natural number as a value. -/
def nat (n : Nat) : Json := integer n

/-! ### Reading plain values -/

/-- The text that a value is, if it is one. -/
def asString? : Json → Option String
  | string s => some s
  | _ => none

/-- The truth value that a value is, if it is one. -/
def asBool? : Json → Option Bool
  | bool b => some b
  | _ => none

/-- The list that a value is, if it is one. -/
def asList? : Json → Option (List Json)
  | list items => some items
  | _ => none

/-- The fields that a value has, if it is an object. -/
def asObject? : Json → Option (List (String × Json))
  | object fields => some fields
  | _ => none

/-- The integer that a value is, if it is one. -/
def asInteger? : Json → Option Int
  | integer n => some n
  | _ => none

/-- The list of texts that a value is, if it is one. -/
def asStrings? (j : Json) : Option (List String) := do
  (← j.asList?).mapM asString?

/-- The elements of a value that is a list, each read by `read`. -/
def listOf? {α : Type} (read : Json → Option α) (j : Json) : Option (List α) := do
  (← j.asList?).mapM read

/-- `none` for `null`, and otherwise the value as `read` reads it. -/
def optional? {α : Type} (read : Json → Option α) : Json → Option (Option α)
  | null => some none
  | j => (read j).map some

@[simp] theorem asString?_string (s : String) : (string s).asString? = some s := rfl

@[simp] theorem optional?_null {α : Type} (read : Json → Option α) :
    optional? read null = some none := rfl

/-- A list of texts is read back from its value. -/
@[simp] theorem asStrings?_strings (texts : List String) :
    (strings texts).asStrings? = some texts := by
  have h : ∀ ts : List String, (ts.map string).mapM asString? = some ts := by
    intro ts
    induction ts with
    | nil => rfl
    | cons t ts ih => simp [ih]
  exact h texts

end Json

end EntityTypings
