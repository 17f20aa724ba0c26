import EntityTypings.Json.Reader
import EntityTypings.Number.Bounds
import EntityTypings.Text.Split

/-!
# Paths of settings

At the top of a settings file, and in the environment, a name can be a path: its
parts between dots lead through groups, and a part can go on with positions in
brackets, which lead to elements of lists. A position counts from zero, or back
from the end of the list if it is negative. A name that is no path is the name of
one entry.

A list is made long enough for a position that it does not have
(`index_lt_length_grown`).
-/

namespace EntityTypings

/-- A step of a path. -/
inductive SettingStep where
  /-- To the entry with a name. -/
  | entry (name : String)
  /-- To the element at a position. -/
  | element (position : Int)
  deriving DecidableEq, Repr

namespace SettingStep

/-! ### Reading paths -/

/-- A character of the name of an entry in a path. -/
def isNameChar (c : Char) : Bool := c.isAlphanum || c = '_' || c = '-' || c = ' '

/-- A blank that can stand around a position. -/
def isBlank (c : Char) : Bool := c = ' ' || c = '\t'

/-- The text without the blanks around it. -/
def trimmed (cs : List Char) : List Char :=
  ((cs.dropWhile isBlank).reverse.dropWhile isBlank).reverse

/-- The position that a text denotes, if it fits 64 bits. -/
def position? (cs : List Char) : Option Int :=
  let (negative, ds) := match trimmed cs with
    | '-' :: rest => (true, rest)
    | ds => (false, ds)
  match Json.Reader.digits ds with
  | ([], _) | (_, _ :: _) => none
  | (ds, []) =>
    let n : Int := Json.Reader.ofDigits ds
    let position := if negative then -n else n
    if fitsSigned64 position then some position else none

/-- The step that a text denotes after its opening bracket. -/
def element? (cs : List Char) : Option SettingStep :=
  if cs.getLast? = some ']' then (position? cs.dropLast).map element else none

/-- The steps that a part of a path denotes: a name and positions in brackets. -/
def ofPart? (part : List Char) : Option (List SettingStep) :=
  match partsBetween '[' part with
  | [] => none
  | name :: positions =>
    if name.isEmpty || !name.all isNameChar then none
    else (positions.mapM element?).map (entry (String.ofList name) :: ·)

/-- The path that a name denotes. -/
def path (name : String) : List SettingStep :=
  match (partsBetween '.' name.toList).mapM ofPart? with
  | some parts => parts.flatten
  | none => [entry name]

example : path "server.url" = [entry "server", entry "url"] := by decide
example : path "a[0][ -1 ].b" = [entry "a", element 0, element (-1), entry "b"] := by decide
example : path "a[+1]" = [entry "a[+1]"] := by decide
example : path "a..b" = [entry "a..b"] := by decide

/-! ### Elements of lists -/

/-- The list, made long enough to have an element at a position. -/
def grown {α : Type} (fill : α) (position : Int) (items : List α) : List α :=
  if 0 ≤ position then items ++ List.replicate (position.toNat + 1 - items.length) fill
  else List.replicate (position.natAbs - items.length) fill ++ items

/-- The index, from the start, of a position in a list of a length. -/
def index (position : Int) (length : Nat) : Nat :=
  if 0 ≤ position then position.toNat else length - position.natAbs

/-- A list that was made long enough has the position. -/
theorem index_lt_length_grown {α : Type} (fill : α) (position : Int) (items : List α) :
    index position (grown fill position items).length < (grown fill position items).length := by
  by_cases h : 0 ≤ position
  · simp only [index, grown, if_pos h, List.length_append, List.length_replicate]
    omega
  · simp only [index, grown, if_neg h, List.length_append, List.length_replicate]
    omega

/-- The list with the element at a position changed. -/
def modifyElement {α : Type} (fill : α) (position : Int) (f : α → α) (items : List α) : List α :=
  let items := grown fill position items
  items.modify (index position items.length) f

example : modifyElement 0 (-1) (fun _ => 7) [1, 2, 3] = [1, 2, 7] := by decide
example : modifyElement 0 4 (fun _ => 7) [1, 2, 3] = [1, 2, 3, 0, 7] := by decide
example : modifyElement 0 (-5) (fun _ => 7) [1, 2, 3] = [7, 0, 1, 2, 3] := by decide

end SettingStep

end EntityTypings
