import EntityTypings.Attribute.Basic
import EntityTypings.Json.Reader
import EntityTypings.Schema.Record

/-!
# Saved server responses

A response holds a list of records in one of three layouts: the list itself, a
list of batches of which the first counts, or an object with the list under
`data`. Where a text fits several layouts, batches are tried first, then the
plain list, then the object; records given as lists can make a list of lists a
plain list of records. The layout is looked for in the value with which the text
starts, and only then nothing else may follow.

The records are schemas or configurations of custom attributes. Schemas are put
in order of id for a run, those without an id first.
-/

namespace EntityTypings

namespace Response

open Json

variable {α : Type}

/-- Why a text holds no response. -/
inductive Fault where
  /-- The text does not start with JSON, or has more after a response. -/
  | notJson
  /-- The text starts with JSON in none of the layouts. -/
  | unknownLayout
  deriving DecidableEq, Repr

/-- The wording of a fault. -/
def Fault.message : Fault → String
  | .notJson => "unrecognised response layout: JSON syntax"
  | .unknownLayout =>
    "unrecognised response layout: data did not match any variant of untagged enum Payload"

/-! ### Layouts -/

/-- The records of the first batch; the other batches have to be lists of records too. -/
def batched? (read : Json → Option α) (j : Json) : Option (List α) :=
  (j.listOf? (listOf? read)).map (·.headD [])

/-- The records of a plain list. -/
def flat? (read : Json → Option α) (j : Json) : Option (List α) := j.listOf? read

/-- The records under `data`. -/
def query? (read : Json → Option α) (j : Json) : Option (List α) := do
  match ← Record.byName ["data"] j with
  | [data] => Record.required (listOf? read) data
  | _ => none

/-- The records of a response in whichever layout it has. -/
def records? (read : Json → Option α) (j : Json) : Option (List α) :=
  (batched? read j).orElse fun _ => (flat? read j).orElse fun _ => query? read j

/-- The records of a response given as text. -/
def parse (read : Json → Option α) (text : String) : Except Fault (List α) :=
  match Json.parseStart Json.maxNesting text with
  | none => .error .notJson
  | some (j, rest) =>
    match records? read j with
    | none => .error .unknownLayout
    | some rs => if rest.isEmpty then .ok rs else .error .notJson

/-- The schemas of a response. -/
def schemas (text : String) : Except Fault (List Schema) := parse Schema.ofJson? text

/-- The configurations of custom attributes of a response. -/
def configurations (text : String) : Except Fault (List AttributeConfiguration) :=
  parse AttributeConfiguration.ofJson? text

/-! ### Order -/

/-- Whether a schema may stand before another: its id is not the larger one. -/
def notAfter (a b : Schema) : Bool := a.displayId ≤ b.displayId

/-- The schemas in order of id, those with one id in their given order. -/
def sortById (ss : List Schema) : List Schema := ss.mergeSort notAfter

/-- Sorting neither loses nor adds schemas. -/
theorem sortById_perm (ss : List Schema) : (sortById ss).Perm ss := List.mergeSort_perm _ _

/-- Sorted schemas are in order of id. -/
theorem sortById_sorted (ss : List Schema) :
    (sortById ss).Pairwise (fun a b => a.displayId ≤ b.displayId) := by
  have trans : ∀ a b c : Schema, notAfter a b → notAfter b c → notAfter a c := by
    intro a b c hab hbc
    simp only [notAfter, decide_eq_true_eq] at *
    exact String.le_trans hab hbc
  have total : ∀ a b : Schema, (notAfter a b || notAfter b a) = true := by
    intro a b
    simp only [notAfter, Bool.or_eq_true, decide_eq_true_eq]
    exact String.le_total _ _
  exact (List.pairwise_mergeSort trans total ss).imp (fun h => by simpa [notAfter] using h)

end Response

end EntityTypings
