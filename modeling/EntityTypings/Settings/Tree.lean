import EntityTypings.Json.Basic
import EntityTypings.Number.Bounds
import EntityTypings.Settings.Path
import EntityTypings.Text.Case
import EntityTypings.Toml.Basic

/-!
# Setting trees

What a source says about settings, whatever its format: a tree of named values.
Trees are put together one source after the other. A name counts in any case of
letters; a table adds its entries to the table that is there; any other value
replaces what is there, a list as a whole unless a path leads to an element of it.
-/

namespace EntityTypings

/-- A value that a source gives for a setting or a group of settings. -/
inductive SettingTree where
  /-- No value. -/
  | nothing
  /-- A truth value. -/
  | boolean (b : Bool)
  /-- A signed 64-bit integer. -/
  | integer (n : Int)
  /-- A floating-point number. -/
  | real (x : FloatValue)
  /-- A text. -/
  | text (s : String)
  /-- A list of values. -/
  | list (items : List SettingTree)
  /-- Named values. -/
  | table (entries : List (String × SettingTree))
  deriving Inhabited

namespace SettingTree

/-- The named values of a tree; a value that is no table has none. -/
def entries : SettingTree → List (String × SettingTree)
  | table es => es
  | _ => []

@[simp] theorem entries_table (es : List (String × SettingTree)) : (table es).entries = es := rfl

/-- The elements of a tree; a value that is no list has none. -/
def elements : SettingTree → List SettingTree
  | list items => items
  | _ => []

/-! ### Putting trees together -/

/-- The entries with a value set for a name, in its old place if there is one. -/
def replace (name : String) (v : SettingTree) :
    List (String × SettingTree) → List (String × SettingTree)
  | [] => [(name, v)]
  | (k, old) :: rest => if k = name then (k, v) :: rest else (k, old) :: replace name v rest

/-- A value that was set is found. -/
@[simp] theorem lookup_replace_self (name : String) (v : SettingTree)
    (es : List (String × SettingTree)) : (replace name v es).lookup name = some v := by
  induction es with
  | nil => simp [replace]
  | cons e rest ih =>
    obtain ⟨k, old⟩ := e
    by_cases h : k = name
    · simp [replace, h]
    · have hne : (name == k) = false := by simpa using fun e => h e.symm
      simp [replace, h, List.lookup_cons, hne, ih]

/-- The values of other names stay. -/
theorem lookup_replace_of_ne {name other : String} (h : other ≠ name) (v : SettingTree)
    (es : List (String × SettingTree)) : (replace name v es).lookup other = es.lookup other := by
  have hne : (other == name) = false := by simpa using h
  induction es with
  | nil => simp [replace, List.lookup_cons, hne]
  | cons e rest ih =>
    obtain ⟨k, old⟩ := e
    by_cases hk : k = name
    · subst hk
      simp [replace, List.lookup_cons, hne]
    · simp [replace, hk, List.lookup_cons, ih]

mutual

/-- The tree with a value put under a name. -/
def put (t : SettingTree) (name : String) : SettingTree → SettingTree
  | table incoming =>
    let there := (t.entries.lookup (lowerCase name)).getD (table [])
    table (replace (lowerCase name) (putAll there incoming) t.entries)
  | v => table (replace (lowerCase name) v t.entries)

/-- The tree with values put under their names, one after the other. -/
def putAll (t : SettingTree) : List (String × SettingTree) → SettingTree
  | [] => t
  | (name, v) :: rest => putAll (t.put name v) rest

end

/-- The tree with a value put where a path leads. What stands on the way and is
not a table, or not a list, makes room for one. -/
def putAt (v : SettingTree) : (path : List SettingStep) → SettingTree → SettingTree
  | [], _ => v
  | [.entry name], t => t.put name v
  | .entry name :: path, t =>
    let there := (t.entries.lookup (lowerCase name)).getD nothing
    table (replace (lowerCase name) (putAt v path there) t.entries)
  | .element position :: path, t =>
    list (SettingStep.modifyElement nothing position (putAt v path) t.elements)

/-! ### Trees of documents -/

mutual

/-- The tree of a value of a document. -/
def ofToml : Toml → SettingTree
  | .string s => text s
  | .integer n => integer n
  | .real x => real x
  | .boolean b => boolean b
  | .dateTime s => text s
  | .list items => list (ofTomlItems items)
  | .table es => table (ofTomlEntries es)

/-- The trees of the elements of a list. -/
def ofTomlItems : List Toml → List SettingTree
  | [] => []
  | v :: rest => ofToml v :: ofTomlItems rest

/-- The trees of the entries of a table. -/
def ofTomlEntries : List (String × Toml) → List (String × SettingTree)
  | [] => []
  | (name, v) :: rest => (name, ofToml v) :: ofTomlEntries rest

end

/-- An integer of JSON: one that does not fit a sign and 63 bits is rounded. -/
def ofInteger (n : Int) : SettingTree :=
  if fitsSigned64 n then integer n
  else real (.ofScientific (n < 0) n.natAbs 0)

mutual

/-- The tree of a JSON value. -/
def ofJson : Json → SettingTree
  | .null => nothing
  | .bool b => boolean b
  | .integer n => ofInteger n
  | .real d => real (.ofScientific d.negative d.digits d.exponent)
  | .string s => text s
  | .list items => list (ofJsonItems items)
  | .object fields => table (ofJsonFields fields)

/-- The trees of the elements of a list. -/
def ofJsonItems : List Json → List SettingTree
  | [] => []
  | j :: rest => ofJson j :: ofJsonItems rest

/-- The trees of the fields of an object. -/
def ofJsonFields : List (String × Json) → List (String × SettingTree)
  | [] => []
  | (name, j) :: rest => (name, ofJson j) :: ofJsonFields rest

end

end SettingTree

end EntityTypings
