import EntityTypings.Json.Reader

/-!
# Strings of TOML

A string is basic or literal, and each of them can span lines. Basic strings
have escapes; literal strings have none. In a string that spans lines a line
break is a line feed whatever ends the line, one directly after the opening mark
does not count, and up to two quotes may stand together in the text, also right
before the closing mark. In a basic one, a backslash at the end of a line takes
away that line break and all blanks and line breaks that follow.

A string is read as a sequence of pieces up to its closing mark: `pieces` is the
loop, and each kind of string says what its closing mark and its pieces are.
-/

namespace EntityTypings.Toml.Reader

/-! ### Characters -/

/-- A blank within a line. -/
def isBlank (c : Char) : Bool := c = ' ' || c = '\t'

/-- A character that comments and strings can contain: any but the control
characters, of which the tab is allowed. -/
def isPlain (c : Char) : Bool := c = '\t' || (0x20 ≤ c.toNat && c.toNat ≠ 0x7F)

/-- The text after a line break. -/
def lineBreak? : List Char → Option (List Char)
  | '\n' :: rest => some rest
  | '\r' :: '\n' :: rest => some rest
  | _ => none

/-- The text without its leading blanks and line breaks. -/
def skipLines : List Char → List Char
  | '\r' :: '\n' :: rest => skipLines rest
  | c :: rest => if isBlank c || c = '\n' then skipLines rest else c :: rest
  | [] => []

/-! ### Pieces -/

/-- How a part of a text is read: what it stands for, and the rest. -/
abbrev Piece := List Char → Option (List Char × List Char)

/-- The text that the pieces before a closing mark stand for. The closing mark
may stand for the last characters itself. -/
def pieces (closing piece : Piece) : (budget : Nat) → Piece
  | 0, _ => none
  | budget + 1, text =>
    match closing text with
    | some found => some found
    | none =>
      match piece text with
      | none => none
      | some (cs, rest) =>
        (pieces closing piece budget rest).map (fun (ds, r) => (cs ++ ds, r))

/-- A character that stands for itself. -/
def plainPiece (quote : Char) : Piece
  | c :: rest => if isPlain c && c ≠ quote then some ([c], rest) else none
  | [] => none

/-- A character given by its number in hexadecimal digits. -/
def codePiece (count : Nat) (text : List Char) : Option (List Char × List Char) := do
  let ds := text.take count
  if ds.length = count then
    let n ← Json.Reader.hexNumber? ds
    if n.isValidChar then some ([Char.ofNat n], text.drop count) else none
  else none

/-- The character that an escape stands for, after its backslash. -/
def escapePiece : Piece
  | 'b' :: rest => some (['\x08'], rest)
  | 't' :: rest => some (['\t'], rest)
  | 'n' :: rest => some (['\n'], rest)
  | 'f' :: rest => some (['\x0c'], rest)
  | 'r' :: rest => some (['\r'], rest)
  | '"' :: rest => some (['"'], rest)
  | '\\' :: rest => some (['\\'], rest)
  | 'u' :: rest => codePiece 4 rest
  | 'U' :: rest => codePiece 8 rest
  | _ => none

/-! ### Strings in one line -/

/-- A single quote as a closing mark. -/
def closingQuote (quote : Char) : Piece
  | c :: rest => if c = quote then some ([], rest) else none
  | [] => none

/-- A piece of a basic string. -/
def basicPiece : Piece
  | '\\' :: rest => escapePiece rest
  | text => plainPiece '"' text

/-- A basic string after its opening quote. -/
def basicString (text : List Char) : Option (List Char × List Char) :=
  pieces (closingQuote '"') basicPiece (text.length + 1) text

/-- A literal string after its opening quote. -/
def literalString (text : List Char) : Option (List Char × List Char) :=
  pieces (closingQuote '\'') (plainPiece '\'') (text.length + 1) text

/-! ### Strings that span lines -/

/-- The number of quotes that a text starts with. -/
def quoteRun (quote : Char) (text : List Char) : Nat :=
  (text.takeWhile (fun c => c = quote)).length

/-- Three quotes as a closing mark, with up to two more before them. -/
def closingRun (quote : Char) (text : List Char) : Option (List Char × List Char) :=
  let n := quoteRun quote text
  if 3 ≤ n ∧ n ≤ 5 then some (List.replicate (n - 3) quote, text.drop n) else none

/-- Quotes that stand for themselves, at most two together. -/
def quotePiece (quote : Char) (text : List Char) : Option (List Char × List Char) :=
  let n := quoteRun quote text
  if 1 ≤ n ∧ n ≤ 2 then some (List.replicate n quote, text.drop n) else none

/-- A piece of a literal string that spans lines. -/
def linesPiece (quote : Char) (text : List Char) : Option (List Char × List Char) :=
  match lineBreak? text with
  | some rest => some (['\n'], rest)
  | none =>
    match plainPiece quote text with
    | some found => some found
    | none => quotePiece quote text

/-- A piece of a basic string that spans lines. -/
def basicLinesPiece : Piece
  | '\\' :: rest =>
    match lineBreak? (rest.dropWhile isBlank) with
    | some rest => some ([], skipLines rest)
    | none => escapePiece rest
  | text => linesPiece '"' text

/-- The text without the line break that follows an opening mark. -/
def afterOpening (text : List Char) : List Char := (lineBreak? text).getD text

/-- A basic string that spans lines, after its opening mark. -/
def basicLines (text : List Char) : Option (List Char × List Char) :=
  pieces (closingRun '"') basicLinesPiece (text.length + 1) (afterOpening text)

/-- A literal string that spans lines, after its opening mark. -/
def literalLines (text : List Char) : Option (List Char × List Char) :=
  pieces (closingRun '\'') (linesPiece '\'') (text.length + 1) (afterOpening text)

/-! ### Any string -/

/-- A string of any kind, if the text starts with one. -/
def string? : List Char → Option (List Char × List Char)
  | '"' :: '"' :: '"' :: rest => basicLines rest
  | '"' :: rest => basicString rest
  | '\'' :: '\'' :: '\'' :: rest => literalLines rest
  | '\'' :: rest => literalString rest
  | _ => none

end EntityTypings.Toml.Reader
