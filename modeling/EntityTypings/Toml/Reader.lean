import EntityTypings.Toml.Dates
import EntityTypings.Toml.Strings

/-!
# Reading TOML

Reads the text of a document as statements, one a line, and makes the document
of them. Lines end with a line feed or a carriage return and a line feed; a
comment goes to the end of its line and has no control characters but tabs.
Lists can span lines and have a comma at the end; inline tables cannot.

Keys have fewer than `maxNesting` parts, and lists and inline tables nest fewer
than that many deep. The recursion is bounded by a budget that `parse` derives
from the length of the text.
-/

namespace EntityTypings.Toml

/-- The depth that keys and values do not reach. -/
def maxNesting : Nat := 80

namespace Reader

/-! ### Between the tokens -/

/-- The text without its leading blanks. -/
def skipBlanks (text : List Char) : List Char := text.dropWhile isBlank

/-- The text after the comment that it may start with. -/
def skipComment : List Char → List Char
  | '#' :: rest => rest.dropWhile isPlain
  | text => text

/-- The text after the end of a line, on which a comment may stand. -/
def endLine (text : List Char) : Option (List Char) :=
  match skipComment (skipBlanks text) with
  | [] => some []
  | text => lineBreak? text

/-- The text without its leading blanks, comments and line breaks; `inComment`
if it starts inside a comment. -/
def skipLayout (inComment : Bool) : List Char → List Char
  | '\r' :: '\n' :: rest => skipLayout false rest
  | c :: rest =>
    if c = '\n' then skipLayout false rest
    else if inComment then if isPlain c then skipLayout true rest else c :: rest
    else if c = '#' then skipLayout true rest
    else if isBlank c then skipLayout false rest
    else c :: rest
  | [] => []

/-! ### Keys -/

/-- A character of a key without quotes. -/
def isBare (c : Char) : Bool := c.isAlphanum || c = '_' || c = '-'

/-- A part of a key. -/
def keyPart : List Char → Option (String × List Char)
  | '"' :: rest => (basicString rest).map (fun (cs, r) => (String.ofList cs, r))
  | '\'' :: rest => (literalString rest).map (fun (cs, r) => (String.ofList cs, r))
  | text =>
    match text.takeWhile isBare with
    | [] => none
    | cs => some (String.ofList cs, text.dropWhile isBare)

/-- The parts of a key, with the blanks around them. -/
def keyParts : (budget : Nat) → List Char → Option (List String × List Char)
  | 0, _ => none
  | budget + 1, text =>
    match keyPart (skipBlanks text) with
    | none => none
    | some (part, rest) =>
      match skipBlanks rest with
      | '.' :: rest => (keyParts budget rest).map (fun (parts, r) => (part :: parts, r))
      | rest => some ([part], rest)

/-- A key, with the blanks around it. -/
def key (text : List Char) : Option (Key × List Char) := do
  let (parts, rest) ← keyParts (text.length + 1) text
  if maxNesting ≤ parts.length then none
  else some (⟨parts.dropLast, ← parts.getLast?⟩, rest)

/-! ### Values -/

mutual

/-- A value; `depth` more lists and tables may be opened. -/
def value : (budget depth : Nat) → List Char → Option (Toml × List Char)
  | 0, _, _ => none
  | budget + 1, depth, text =>
    match text with
    | '[' :: rest =>
      match depth with
      | 0 => none
      | depth + 1 => (items budget depth rest).map (fun (vs, r) => (.list vs, r))
    | '\x7b' :: rest =>
      match depth with
      | 0 => none
      | depth + 1 =>
        match skipBlanks rest with
        | '\x7d' :: rest => some (.table [], rest)
        | rest => do
          let (assignments, rest) ← assignments budget depth rest
          return (← ofAssignments? assignments, rest)
    | 't' :: 'r' :: 'u' :: 'e' :: rest => some (.boolean true, rest)
    | 'f' :: 'a' :: 'l' :: 's' :: 'e' :: rest => some (.boolean false, rest)
    | c :: rest =>
      if c = '"' || c = '\'' then
        (string? (c :: rest)).map (fun (cs, r) => (.string (String.ofList cs), r))
      else numberOrDate (c :: rest)
    | [] => none

/-- The elements of a list up to its closing bracket. -/
def items : (budget depth : Nat) → List Char → Option (List Toml × List Char)
  | 0, _, _ => none
  | budget + 1, depth, text =>
    match skipLayout false text with
    | ']' :: rest => some ([], rest)
    | text =>
      match value budget depth text with
      | none => none
      | some (v, rest) =>
        match skipLayout false rest with
        | ',' :: rest => (items budget depth rest).map (fun (vs, r) => (v :: vs, r))
        | ']' :: rest => some ([v], rest)
        | _ => none

/-- The assignments of an inline table up to its closing brace, at least one. -/
def assignments : (budget depth : Nat) → List Char → Option (List (Key × Toml) × List Char)
  | 0, _, _ => none
  | budget + 1, depth, text =>
    match key text with
    | some (k, '=' :: rest) =>
      match value budget depth (skipBlanks rest) with
      | none => none
      | some (v, rest) =>
        match skipBlanks rest with
        | ',' :: rest => (assignments budget depth rest).map (fun (as, r) => ((k, v) :: as, r))
        | '\x7d' :: rest => some ([(k, v)], rest)
        | _ => none
    | _ => none

end

/-! ### Statements -/

/-- A statement up to the end of its line. -/
def statement : List Char → Option (Statement × List Char)
  | '[' :: '[' :: rest => do
    match ← key rest with
    | (k, ']' :: ']' :: rest) => return (.element k, ← endLine rest)
    | _ => none
  | '[' :: rest => do
    match ← key rest with
    | (k, ']' :: rest) => return (.header k, ← endLine rest)
    | _ => none
  | text => do
    match ← key text with
    | (k, '=' :: rest) =>
      let (v, rest) ← value (2 * rest.length + 2) (maxNesting - 1) (skipBlanks rest)
      return (.assignment k v, ← endLine rest)
    | _ => none

/-- The statements of a document. -/
def statements : (budget : Nat) → List Char → Option (List Statement)
  | 0, _ => none
  | budget + 1, text =>
    match skipLayout false text with
    | [] => some []
    | text =>
      match statement text with
      | none => none
      | some (s, rest) => (statements budget rest).map (s :: ·)

end Reader

/-- The entries of the document that a text denotes, if it is one. A mark may
stand at the start of the text. -/
def parse (text : String) : Option (List (String × Toml)) := do
  let chars := match text.toList with
    | '\uFEFF' :: rest => rest
    | chars => chars
  let entries ← ofStatements? (← Reader.statements (chars.length + 1) chars)
  datedDocument? entries

end EntityTypings.Toml
