import EntityTypings.Attribute.Basic
import EntityTypings.Json.Writer

/-!
# Declarations

The declarations of the generated source and how they are written. A
declaration is a value that says what is declared; `Declaration.lines` lays it
out as lines, each with its depth of indentation. Text is made from lines only
in the end, with two spaces for each level.

Layout is separate from position: a declaration at a greater depth has the same
lines, each as much deeper (`renderLines_add`).
-/

namespace EntityTypings

/-! ### Lines -/

/-- A line of the generated source. -/
structure Line where
  /-- The depth of indentation. -/
  depth : Nat
  /-- The text after the indentation. -/
  text : String
  deriving DecidableEq, Repr

namespace Line

/-- The line indented by `depth` further levels. -/
def indent (depth : Nat) (l : Line) : Line := ⟨l.depth + depth, l.text⟩

/-- The line as text, with its line break; an empty line is not indented. -/
def render (l : Line) : String :=
  if l.text = "" then "\n" else String.ofList (List.replicate (2 * l.depth) ' ') ++ l.text ++ "\n"

@[simp] theorem indent_indent (m n : Nat) (l : Line) :
    (l.indent m).indent n = l.indent (m + n) := by
  simp [indent, Nat.add_assoc]

end Line

/-- Lines as text, at a depth of indentation. -/
def renderLines (depth : Nat) (lines : List Line) : String :=
  String.join (lines.map (fun l => (l.indent depth).render))

@[simp] theorem renderLines_nil (depth : Nat) : renderLines depth [] = "" := rfl

theorem renderLines_append (depth : Nat) (as bs : List Line) :
    renderLines depth (as ++ bs) = renderLines depth as ++ renderLines depth bs := by
  simp [renderLines]

theorem renderLines_flatMap {α : Type} (depth : Nat) (f : α → List Line) (values : List α) :
    renderLines depth (values.flatMap f) =
      String.join (values.map (fun a => renderLines depth (f a))) := by
  induction values with
  | nil => rfl
  | cons a rest ih =>
    rw [List.flatMap_cons, renderLines_append, ih, List.map_cons, String.join_cons]

/-- At the margin, lines are their texts with line breaks. -/
theorem renderLines_margin (texts : List String) :
    renderLines 0 (texts.map (⟨0, ·⟩)) = String.join (texts.map (· ++ "\n")) := by
  simp only [renderLines, List.map_map]
  congr 1
  refine List.map_congr_left fun t _ => ?_
  by_cases ht : t = "" <;> simp [Line.indent, Line.render, ht]

/-- Lines at a greater depth are deeper lines. -/
theorem renderLines_add (m n : Nat) (lines : List Line) :
    renderLines (m + n) lines = renderLines n (lines.map (Line.indent m)) := by
  simp [renderLines, Function.comp_def]

/-! ### Members -/

/-- A member of an interface or of a record type. -/
structure Member where
  /-- The name. -/
  name : String
  /-- The type of the values. -/
  type : TypeExpr
  /-- Whether the member may not be assigned to. -/
  isReadonly : Bool
  /-- Whether the member may be missing. -/
  isOptional : Bool
  deriving DecidableEq, Repr

namespace Member

/-- A member that has to be there and can be assigned to. -/
def plain (name : String) (type : TypeExpr) : Member := ⟨name, type, false, false⟩

/-- A member that may be missing. -/
def optional (name : String) (type : TypeExpr) : Member := ⟨name, type, false, true⟩

/-- The member as it is written. -/
def text (m : Member) : String :=
  (if m.isReadonly then "readonly " else "") ++ m.name ++ (if m.isOptional then "?" else "")
    ++ ": " ++ m.type.text ++ ";"

end Member

/-! ### Declarations -/

/-- What an interface takes over from another type. -/
structure Heritage where
  /-- The type that is extended. -/
  base : String
  /-- The members of it that are left out. -/
  omitted : List String
  deriving DecidableEq, Repr

/-- A name as a literal type. -/
def literal (name : String) : String := "\"" ++ name ++ "\""

/-- The heritage as it is written. -/
def Heritage.text (h : Heritage) : String :=
  " extends Omit<" ++ h.base ++ ", " ++ " | ".intercalate (h.omitted.map literal) ++ ">"

/-- A declaration of the generated source. -/
inductive Declaration where
  /-- An interface with its type parameters, its heritage and its own members. -/
  | interface (name parameters : String) (heritage : Option Heritage) (members : List Member)
  /-- A name, with type parameters, for a type given by its text. -/
  | typeAlias (name parameters definition : String)
  /-- The value record of an attribute key. -/
  | attributeValue (name : String) (members : List Member)
  /-- The function that returns the attribute configurations. -/
  | configurationTable (rows : List AttributeConfiguration)

namespace Declaration

/-- The name of the function that returns the attribute configurations. -/
def configurationTableName : String := "getAttributeConfigurations"

/-- The name that is declared. -/
def name : Declaration → String
  | interface n _ _ _ => n
  | typeAlias n _ _ => n
  | attributeValue n _ => n
  | configurationTable _ => configurationTableName

/-- The members that are declared in the body. -/
def members : Declaration → List Member
  | interface _ _ _ ms => ms
  | attributeValue _ ms => ms
  | typeAlias _ _ _ | configurationTable _ => []

/-- What is taken over from another type. -/
def heritage? : Declaration → Option Heritage
  | interface _ _ h _ => h
  | typeAlias _ _ _ | attributeValue _ _ | configurationTable _ => none

/-! ### Layout -/

/-- Lines in braces after a header, which may be empty. -/
def block (header : String) (body : List Line) (suffix : String) : List Line :=
  ⟨0, if header = "" then "\x7b" else header ++ " \x7b"⟩
    :: body.map (Line.indent 1) ++ [⟨0, "\x7d" ++ suffix⟩]

/-- The header of an interface. -/
def interfaceHeader (name parameters : String) (heritage : Option Heritage) : String :=
  "export interface " ++ name ++ parameters ++ (heritage.map Heritage.text).getD ""

/-- A name for a type, as it is written. -/
def aliasText (name parameters definition : String) : String :=
  "export type " ++ name ++ parameters ++ " = " ++ definition ++ ";"

/-- The header of the value record of an attribute key. -/
def attributeValueHeader (name : String) : String :=
  "export type " ++ name ++ " = Omit<ContextCustomAttributeValue, \"key\" | \"value\"> &"

/-- The header of the function that returns the attribute configurations. -/
def configurationTableHeader : String := "export function " ++ configurationTableName ++ "()"

/-- The fields of a configuration, each with its value. -/
def rowFields (a : AttributeConfiguration) : List (String × String) :=
  [("name", Json.quoted a.key), ("type", Json.quoted a.valueKind), ("label", Json.quoted a.label),
    ("entityType", Json.quoted a.entityType), ("default", a.defaultValue.compact),
    ("objectType", (a.objectType.map Json.quoted).getD "undefined"),
    ("isHierarchical", if a.isHierarchical then "true" else "false")]

/-- A field with its value, as it is written. -/
def fieldText (f : String × String) : String := f.1 ++ ": " ++ f.2 ++ ","

/-- A configuration as an element of the table. -/
def row (a : AttributeConfiguration) : List Line :=
  block "" ((rowFields a).map (fun f => ⟨0, fieldText f⟩)) ","

/-- The declaration as lines. -/
def lines : Declaration → List Line
  | interface name parameters heritage members =>
    block (interfaceHeader name parameters heritage) (members.map (fun m => ⟨0, m.text⟩)) ""
  | typeAlias name parameters definition => [⟨0, aliasText name parameters definition⟩]
  | attributeValue name members =>
    block (attributeValueHeader name) (members.map (fun m => ⟨0, m.text⟩)) ";"
  | configurationTable rows =>
    block configurationTableHeader
      (⟨0, "return ["⟩ :: (rows.flatMap row).map (Line.indent 1) ++ [⟨0, "] as const;"⟩]) ""

end Declaration

end EntityTypings
