import EntityTypings.Number.FloatValue

/-!
# TOML documents

A document is a table. It is written as a sequence of statements: a header opens
a table, a doubled header opens a new element of a list of tables, and an
assignment sets a key of the table that was opened last. A key with dots
reaches through further tables.

Nothing may be defined twice. A table can be opened by a header once, and only
if it is new or was merely passed through by the header of a table inside it. A
dotted key can go on with tables that dotted keys have made, and pass through
those that headers have passed through, but it adds nothing to a table that has,
or could have, a header of its own. While a document is read, each table
therefore carries its `Origin`.
-/

namespace EntityTypings

/-- A value of a document. -/
inductive Toml where
  /-- A text. -/
  | string (s : String)
  /-- A signed 64-bit integer. -/
  | integer (n : Int)
  /-- A floating-point number. -/
  | real (x : FloatValue)
  /-- A truth value. -/
  | boolean (b : Bool)
  /-- A date, a time of day or both, as normalised text. -/
  | dateTime (text : String)
  /-- A list of values. -/
  | list (items : List Toml)
  /-- A table, with its entries in the order in which they were named, those with
  a header in the order of their headers. -/
  | table (entries : List (String × Toml))
  deriving Inhabited

namespace Toml

/-- How a table came to be. -/
inductive Origin where
  /-- It was opened by a header. -/
  | header
  /-- It was passed through by the header of a table inside it. -/
  | implied
  /-- It was made by a dotted key. -/
  | dotted
  deriving DecidableEq, Repr

/-- A part of a document that is being read. -/
inductive Node where
  /-- A value that is complete. -/
  | value (v : Toml)
  /-- A table to which statements may still add. -/
  | table (origin : Origin) (entries : List (String × Node))
  /-- A list of tables, the last of which is the first one here. -/
  | tables (last : List (String × Node)) (earlier : List (List (String × Node)))

/-- The entries of a table that is being read. -/
abbrev Entries := List (String × Node)

namespace Entries

/-- The entries with an entry set, in its old place if there is one. -/
def put (name : String) (n : Node) : Entries → Entries
  | [] => [(name, n)]
  | (k, old) :: rest => if k = name then (name, n) :: rest else (k, old) :: put name n rest

/-- The entries with a value for a name that has none. -/
def define? (name : String) (v : Toml) (t : Entries) : Option Entries :=
  if (t.lookup name).isSome then none else some (t ++ [(name, .value v)])

/-! ### Assignments -/

/-- Sets a key in a table of the given origin, which a dotted key has reached. -/
def defineReached? (name : String) (v : Toml) : List String → Origin → Entries → Option Entries
  | [], origin, t => if origin = .dotted then define? name v t else none
  | k :: path, _, t =>
    match t.lookup k with
    | none => (defineReached? name v path .dotted []).map (fun u => t.put k (.table .dotted u))
    | some (.table .header _) => none
    | some (.table origin u) =>
      (defineReached? name v path origin u).map (fun u => t.put k (.table origin u))
    | some (.tables last earlier) =>
      (defineReached? name v path .header last).map (fun u => t.put k (.tables u earlier))
    | some (.value _) => none

/-- Sets a key, reached through the tables of `path`. -/
def assign? (path : List String) (name : String) (v : Toml) (t : Entries) : Option Entries :=
  match path with
  | [] => define? name v t
  | path => defineReached? name v path .header t

/-! ### Headers -/

/-- Changes the table that a header's path leads to, making the tables on the way. -/
def within? (change : Entries → Option Entries) : List String → Entries → Option Entries
  | [], t => change t
  | k :: path, t =>
    match t.lookup k with
    | none => (within? change path []).map (fun u => t.put k (.table .implied u))
    | some (.table origin u) =>
      (within? change path u).map (fun u => t.put k (.table origin u))
    | some (.tables last earlier) =>
      (within? change path last).map (fun u => t.put k (.tables u earlier))
    | some (.value _) => none

/-- The entries with an entry set, after all others. -/
def putLast (name : String) (n : Node) (t : Entries) : Entries :=
  t.filter (fun e => e.1 ≠ name) ++ [(name, n)]

/-- Opens a table for a name. A table that was passed through before takes its
place among the others only now. -/
def openTable? (name : String) (t : Entries) : Option Entries :=
  match t.lookup name with
  | none => some (t.put name (.table .header []))
  | some (.table .implied u) => some (t.putLast name (.table .header u))
  | some _ => none

/-- Opens a new element of the list of tables with a name. -/
def openElement? (name : String) (t : Entries) : Option Entries :=
  match t.lookup name with
  | none => some (t.put name (.tables [] []))
  | some (.tables last earlier) => some (t.put name (.tables [] (last :: earlier)))
  | some _ => none

end Entries

/-! ### Complete values -/

mutual

/-- A part of a document as a value. -/
def Node.complete : Node → Toml
  | .value v => v
  | .table _ t => .table (completeEntries t)
  | .tables last earlier =>
    .list (completeTables earlier [.table (completeEntries last)])

/-- The entries of a table as values. -/
def completeEntries : List (String × Node) → List (String × Toml)
  | [] => []
  | (name, n) :: rest => (name, n.complete) :: completeEntries rest

/-- The elements of a list of tables in order, `later` being those that follow. -/
def completeTables : List (List (String × Node)) → List Toml → List Toml
  | [], later => later
  | t :: earlier, later => completeTables earlier (.table (completeEntries t) :: later)

end

/-! ### Statements -/

/-- A key with the keys through which it is reached. -/
structure Key where
  /-- The keys of the tables on the way. -/
  path : List String
  /-- The key itself. -/
  name : String
  deriving DecidableEq, Repr

/-- A statement of a document. -/
inductive Statement where
  /-- Opens a table. -/
  | header (key : Key)
  /-- Opens a new element of a list of tables. -/
  | element (key : Key)
  /-- Sets a key of the table that was opened last. -/
  | assignment (key : Key) (v : Toml)

/-- A document that is being read, with the table that was opened last. -/
structure Draft where
  /-- The table that the document is. -/
  root : Entries
  /-- The path to the table that was opened last. -/
  current : List String

/-- The draft after a statement. -/
def Draft.step? (d : Draft) : Statement → Option Draft
  | .header key =>
    (Entries.within? (Entries.openTable? key.name) key.path d.root).map
      (⟨·, key.path ++ [key.name]⟩)
  | .element key =>
    (Entries.within? (Entries.openElement? key.name) key.path d.root).map
      (⟨·, key.path ++ [key.name]⟩)
  | .assignment key v =>
    (Entries.within? (Entries.assign? key.path key.name v) d.current d.root).map
      (⟨·, d.current⟩)

/-- The entries of the document that statements make. -/
def ofStatements? (statements : List Statement) : Option (List (String × Toml)) :=
  (statements.foldlM Draft.step? ⟨[], []⟩).map (fun d => completeEntries d.root)

/-- The table that assignments make on their own. -/
def ofAssignments? (assignments : List (Key × Toml)) : Option Toml :=
  (assignments.foldlM (fun t (a : Key × Toml) => Entries.assign? a.1.path a.1.name a.2 t) []).map
    (fun t => .table (completeEntries t))

end Toml

end EntityTypings
