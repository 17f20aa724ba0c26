import EntityTypings.Json.Writer
import EntityTypings.Toml.Basic

/-!
# Writing TOML

Writes documents that are a sequence of sections, each a header and the keys
under it. The values are texts, truth values and lists of texts. The names of
sections and keys are bare keys and are written as they are.

A text is written in the plainest of four styles that needs no escapes, and in a
basic style with escapes if none does. A list of several texts has a line for
each of them.
-/

namespace EntityTypings.Toml

/-- A value that is written. -/
inductive Plain where
  /-- A text. -/
  | string (s : String)
  /-- A truth value. -/
  | boolean (b : Bool)
  /-- A list of texts. -/
  | strings (ss : List String)
  deriving DecidableEq, Repr

/-- The value in a document. -/
def Plain.toToml : Plain → Toml
  | string s => .string s
  | boolean b => .boolean b
  | strings ss => .list (ss.map .string)

/-- A section of a document. -/
structure Section where
  /-- The name in the header. -/
  name : String
  /-- The keys with their values. -/
  entries : List (String × Plain)
  deriving DecidableEq, Repr

/-- The section as a table of the document. -/
def Section.toToml (s : Section) : Toml := .table (s.entries.map (fun e => (e.1, e.2.toToml)))

namespace Writer

/-! ### Choosing a style -/

/-- How a text is written. -/
inductive Style where
  /-- Between quotes, in one line. -/
  | basic
  /-- Between apostrophes, in one line. -/
  | literal
  /-- Between triple quotes. -/
  | basicLines
  /-- Between triple apostrophes. -/
  | literalLines
  deriving DecidableEq, Repr

/-- A control character that is neither a tab nor a line feed. -/
def isControl (c : Char) : Bool := (c.toNat < 0x20 && c ≠ '\t' && c ≠ '\n') || c.toNat = 0x7F

/-- The length of the longest run of a character, `run` being the length of the
run that ends before the text. -/
def longestRun (quote : Char) (run : Nat) : List Char → Nat
  | [] => run
  | c :: cs => if c = quote then longestRun quote (run + 1) cs else max run (longestRun quote 0 cs)

/-- The first style that needs no escapes, or else a basic one. -/
def styleOf (cs : List Char) : Style :=
  let control := cs.any isControl
  let backslash := cs.contains '\\'
  let lines := cs.contains '\n'
  let double := longestRun '"' 0 cs
  let single := longestRun '\'' 0 cs
  if !control && !backslash && !lines && double = 0 then .basic
  else if !control && !lines && single = 0 then .literal
  else if !control && !backslash && double ≤ 2 then .basicLines
  else if !control && single ≤ 2 then .literalLines
  else if lines then .basicLines
  else .basic

/-! ### Writing texts -/

/-- The upper-case hexadecimal digits of a number below 256. -/
def hexPair (n : Nat) : List Char :=
  (Json.hexPair n).map Char.toUpper

/-- A character between quotes. -/
def escape (c : Char) : List Char :=
  match c with
  | '"' => ['\\', '"']
  | '\\' => ['\\', '\\']
  | '\x08' => ['\\', 'b']
  | '\t' => ['\\', 't']
  | '\n' => ['\\', 'n']
  | '\x0c' => ['\\', 'f']
  | '\r' => ['\\', 'r']
  | c =>
    if c.toNat < 0x20 ∨ c.toNat = 0x7F then ['\\', 'u', '0', '0'] ++ hexPair c.toNat else [c]

/-- A text between triple quotes, after `run` quotes that stand for themselves.
Line feeds stand for themselves too, and every third quote of a run is escaped. -/
def escapeLines (run : Nat) : List Char → List Char
  | [] => []
  | c :: cs =>
    if c = '"' then
      if run = 2 then '\\' :: '"' :: escapeLines 0 cs else '"' :: escapeLines (run + 1) cs
    else if c = '\n' then '\n' :: escapeLines 0 cs
    else escape c ++ escapeLines 0 cs

/-- The line break after an opening mark, which a text that spans lines has. -/
def opening (cs : List Char) : List Char := if cs.contains '\n' then ['\n'] else []

/-- A text in a style. -/
def styled (cs : List Char) : Style → List Char
  | .basic => '"' :: cs.flatMap escape ++ ['"']
  | .literal => '\'' :: cs ++ ['\'']
  | .basicLines => ['"', '"', '"'] ++ opening cs ++ escapeLines 0 cs ++ ['"', '"', '"']
  | .literalLines => ['\'', '\'', '\''] ++ opening cs ++ cs ++ ['\'', '\'', '\'']

/-- A text as it is written. -/
def string (s : String) : String := String.ofList (styled s.toList (styleOf s.toList))

example : string "it's" = "\"it's\"" := by decide
example : string "C:\\dir" = "'C:\\dir'" := by decide
example : string "'\"" = "\"\"\"'\"\"\"\"" := by decide
example : string "'\"\"\"" = "''''\"\"\"'''" := by decide
example : string "\n" = "\"\"\"\n\n\"\"\"" := by decide
example : string "\x01\x1f" = "\"\\u0001\\u001F\"" := by decide

/-! ### Writing documents -/

/-- A list of texts as it is written. -/
def strings : List String → String
  | [] => "[]"
  | [s] => "[" ++ string s ++ "]"
  | ss => "[\n" ++ String.join (ss.map (fun s => "    " ++ string s ++ ",\n")) ++ "]"

/-- A value as it is written. -/
def plain : Plain → String
  | .string s => string s
  | .boolean true => "true"
  | .boolean false => "false"
  | .strings ss => strings ss

/-- A section as it is written. -/
def block (s : Section) : String :=
  "[" ++ s.name ++ "]\n" ++
    String.join (s.entries.map (fun e => e.1 ++ " = " ++ plain e.2 ++ "\n"))

end Writer

/-- The text of a document, with an empty line between its sections. -/
def render (sections : List Section) : String := "\n".intercalate (sections.map Writer.block)

end EntityTypings.Toml
