import EntityTypings.Artifact

/-!
# Emission

A source that is written step by step: the text so far, the depth of
indentation at which the next line stands, and the problems found so far.

Each step appends to the text and none takes anything back. Only `indent`, `dedent`,
`opening` and `closing` change the depth. A declaration is written line by line and
uses all four, but each level that it goes down it comes up again: it appends its
lines at the current depth and leaves the depth as it is (`declaration_eq_lines`). A
schema that cannot be declared leaves the text alone and keeps the problems found
before the failure. `finish` gives the text with the trailer for the problems.
-/

namespace EntityTypings

/-- A source that is being written. -/
structure Emission where
  /-- The text so far. -/
  code : String
  /-- The depth of indentation. -/
  depth : Nat
  /-- The problems so far. -/
  diagnostics : Diagnostics

namespace Emission

/-- Nothing written yet. -/
def start : Emission := ⟨"", 0, .empty⟩

/-! ### Lines -/

/-- Appends lines at the current depth. -/
def lines (e : Emission) (ls : List Line) : Emission :=
  { e with code := e.code ++ renderLines e.depth ls }

/-- Appends a line at the current depth. -/
def line (e : Emission) (text : String) : Emission := e.lines [⟨0, text⟩]

/-- Appends an empty line. -/
def blank (e : Emission) : Emission := e.line ""

/-- One level deeper. -/
def indent (e : Emission) : Emission := { e with depth := e.depth + 1 }

/-- One level less deep, if there is one. -/
def dedent (e : Emission) : Emission := { e with depth := e.depth - 1 }

/-- Appends a header with an opening brace and goes one level deeper. -/
def opening (e : Emission) (header : String) : Emission :=
  (e.line (if header = "" then "\x7b" else header ++ " \x7b")).indent

/-- Goes one level less deep and appends a closing brace with a suffix. -/
def closing (e : Emission) (suffix : String) : Emission :=
  e.dedent.line ("\x7d" ++ suffix)

/-- Records a problem. -/
def report (e : Emission) (d : Diagnostic) : Emission :=
  { e with diagnostics := e.diagnostics.push d }

@[simp] theorem code_lines (e : Emission) (ls : List Line) :
    (e.lines ls).code = e.code ++ renderLines e.depth ls := rfl

@[simp] theorem depth_lines (e : Emission) (ls : List Line) : (e.lines ls).depth = e.depth := rfl

@[simp] theorem diagnostics_lines (e : Emission) (ls : List Line) :
    (e.lines ls).diagnostics = e.diagnostics := rfl

/-- Lines can be appended together or one part after the other. -/
theorem lines_append (e : Emission) (as bs : List Line) :
    e.lines (as ++ bs) = (e.lines as).lines bs := by
  simp [lines, renderLines_append, String.append_assoc]

/-- Appending lines for each of some values appends the lines of all. -/
theorem foldl_eq_lines {α : Type} {write : Emission → α → Emission} {f : α → List Line}
    (h : ∀ e a, write e a = e.lines (f a)) (e : Emission) (values : List α) :
    values.foldl write e = e.lines (values.flatMap f) := by
  induction values generalizing e with
  | nil => simp [lines]
  | cons a rest ih => rw [List.foldl_cons, h, ih, List.flatMap_cons, lines_append]

theorem foldl_line (e : Emission) (texts : List String) :
    texts.foldl line e = e.lines (texts.map (⟨0, ·⟩)) := by
  rw [List.map_eq_flatMap]
  exact foldl_eq_lines (fun _ _ => rfl) e texts

/-- Appends comments and an empty line below them. -/
def comments (e : Emission) (texts : List String) : Emission := (texts.foldl line e).blank

theorem comments_eq_lines (e : Emission) (texts : List String) :
    e.comments texts = e.lines (preambleLines texts) := by
  rw [comments, foldl_line, blank, line, ← lines_append]
  rfl

/-! ### Braces -/

/-- One level deeper and back: the same lines, each one level deeper. -/
theorem dedent_lines_indent (e : Emission) (ls : List Line) :
    (e.indent.lines ls).dedent = e.lines (ls.map (Line.indent 1)) := by
  simp [indent, dedent, lines, Nat.add_comm e.depth, renderLines_add]

/-- Lines between an opening and a closing brace are a block. -/
theorem closing_lines_opening (e : Emission) (header : String) (ls : List Line)
    (suffix : String) :
    ((e.opening header).lines ls).closing suffix = e.lines (Declaration.block header ls suffix) := by
  rw [closing, opening, dedent_lines_indent, line, line, ← lines_append, ← lines_append]
  rfl

/-- Appends lines in braces after a header. -/
def braced (e : Emission) (header : String) (texts : List String) (suffix : String) : Emission :=
  (texts.foldl line (e.opening header)).closing suffix

theorem braced_eq_lines (e : Emission) (header : String) (texts : List String)
    (suffix : String) :
    e.braced header texts suffix =
      e.lines (Declaration.block header (texts.map (⟨0, ·⟩)) suffix) := by
  rw [braced, foldl_line, closing_lines_opening]

/-! ### Declarations -/

/-- Appends a configuration as an element of the table. -/
def row (e : Emission) (a : AttributeConfiguration) : Emission :=
  e.braced "" ((Declaration.rowFields a).map Declaration.fieldText) ","

theorem row_eq_lines (e : Emission) (a : AttributeConfiguration) :
    e.row a = e.lines (Declaration.row a) := by
  rw [row, braced_eq_lines, List.map_map]
  rfl

/-- Appends a declaration. -/
def declaration (e : Emission) : Declaration → Emission
  | .interface name parameters heritage members =>
    e.braced (Declaration.interfaceHeader name parameters heritage) (members.map Member.text) ""
  | .typeAlias name parameters definition =>
    e.line (Declaration.aliasText name parameters definition)
  | .attributeValue name members =>
    e.braced (Declaration.attributeValueHeader name) (members.map Member.text) ";"
  | .configurationTable rows =>
    let e := ((e.opening Declaration.configurationTableHeader).line "return [").indent
    ((rows.foldl row e).dedent.line "] as const;").closing ""

/-- **A declaration leaves the depth as it is**: line by line it appends its lines at the
depth at which it starts, whatever stands before it. -/
theorem declaration_eq_lines (e : Emission) (d : Declaration) :
    e.declaration d = e.lines d.lines := by
  cases d with
  | interface name parameters heritage members =>
    rw [declaration, braced_eq_lines, List.map_map]
    rfl
  | typeAlias name parameters definition => rfl
  | attributeValue name members =>
    rw [declaration, braced_eq_lines, List.map_map]
    rfl
  | configurationTable rows =>
    simp only [declaration, foldl_eq_lines row_eq_lines, dedent_lines_indent]
    rw [line, line, ← lines_append, ← lines_append, closing_lines_opening]
    rfl

/-- Appends declarations. -/
def declarations (e : Emission) (ds : List Declaration) : Emission := ds.foldl declaration e

theorem declarations_eq_lines (e : Emission) (ds : List Declaration) :
    e.declarations ds = e.lines (ds.flatMap Declaration.lines) :=
  foldl_eq_lines declaration_eq_lines e ds

/-- Appends the declaration of a schema, or says why it has none. -/
def schema (e : Emission) (c : Catalog) (s : Schema) : Emission × Except Failure Unit :=
  let d := c.declare s
  let e := { e with diagnostics := e.diagnostics.append d.diagnostics }
  match d.declaration with
  | .ok declaration => (e.declaration declaration, .ok ())
  | .error failure => (e, .error failure)

/-! ### Finishing -/

/-- The text with the trailer for the problems. -/
def finish (e : Emission) : String × Diagnostics :=
  (e.code ++ renderLines 0 (trailerLines e.diagnostics.messages), e.diagnostics)

end Emission

end EntityTypings
