import EntityTypings.Json.Basic
import EntityTypings.Number.Bounds

/-!
# Reading JSON

A strict reader of JSON text. Blanks are spaces, tabs, line feeds and carriage
returns and may stand only between tokens; a text is a single value; a control
character may not stand in a string as itself; an escaped surrogate has to be
followed by the escape of its partner. Containers nest at most `maxNesting` deep.

Numbers are read as the interchange format of the catalogs has them: of the
digits, the longest run that fits 64 bits is kept, further digits before the
point count for the magnitude and further digits after it not at all, and the
power of ten is then applied with a rounding at each step. A number beyond the
floating-point range is no number.

Every function returns the rest of the text beside what it read. The recursion
is bounded by a budget that `parseWithin` derives from the length of the text.
-/

namespace EntityTypings.Json

/-- How deep containers may nest in a catalog. -/
def maxNesting : Nat := 127

namespace Reader

/-! ### Blanks -/

/-- A character that may stand between tokens. -/
def isBlank (c : Char) : Bool := c = ' ' || c = '\t' || c = '\n' || c = '\r'

/-- The text without its leading blanks. -/
def skipBlanks (text : List Char) : List Char := text.dropWhile isBlank

/-! ### Strings -/

/-- The value of a hexadecimal digit. -/
def hexDigit? (c : Char) : Option Nat :=
  if c.isDigit then some (c.toNat - '0'.toNat)
  else if 'a' ≤ c ∧ c ≤ 'f' then some (c.toNat - 'a'.toNat + 10)
  else if 'A' ≤ c ∧ c ≤ 'F' then some (c.toNat - 'A'.toNat + 10)
  else none

/-- The number that hexadecimal digits denote. -/
def hexNumber? (digits : List Char) : Option Nat :=
  digits.foldlM (fun n c => (hexDigit? c).map (16 * n + ·)) 0

/-- Whether a code unit is the first of a surrogate pair. -/
def isHighSurrogate (n : Nat) : Bool := 0xD800 ≤ n && n < 0xDC00

/-- Whether a code unit is the second of a surrogate pair. -/
def isLowSurrogate (n : Nat) : Bool := 0xDC00 ≤ n && n < 0xE000

/-- The character that a surrogate pair stands for. -/
def surrogatePair (high low : Nat) : Char :=
  Char.ofNat (0x10000 + (high - 0xD800) * 0x400 + (low - 0xDC00))

/-- The character that a one-letter escape stands for. -/
def simpleEscape? : Char → Option Char
  | '"' => some '"'
  | '\\' => some '\\'
  | '/' => some '/'
  | 'b' => some '\x08'
  | 'f' => some '\x0c'
  | 'n' => some '\n'
  | 'r' => some '\r'
  | 't' => some '\t'
  | _ => none

/-- The rest of a string after its opening quote, `read` being the characters
read so far in reverse. -/
def stringBody (read : List Char) : List Char → Option (String × List Char)
  | [] => none
  | '"' :: rest => some (String.ofList read.reverse, rest)
  | '\\' :: 'u' :: a :: b :: c :: d :: rest =>
    match hexNumber? [a, b, c, d] with
    | none => none
    | some n =>
      if isHighSurrogate n then
        match rest with
        | '\\' :: 'u' :: e :: f :: g :: h :: rest =>
          match hexNumber? [e, f, g, h] with
          | none => none
          | some m =>
            if isLowSurrogate m then stringBody (surrogatePair n m :: read) rest else none
        | _ => none
      else if isLowSurrogate n then none
      else stringBody (Char.ofNat n :: read) rest
  | '\\' :: c :: rest =>
    match simpleEscape? c with
    | some e => stringBody (e :: read) rest
    | none => none
  | c :: rest => if c.toNat < 0x20 then none else stringBody (c :: read) rest

/-! ### Numbers -/

/-- The leading decimal digits of a text, and the rest. -/
def digits (text : List Char) : List Nat × List Char :=
  ((text.takeWhile Char.isDigit).map (fun c => c.toNat - '0'.toNat), text.dropWhile Char.isDigit)

/-- The number that decimal digits denote. -/
def ofDigits (ds : List Nat) : Nat := ds.foldl (fun n d => 10 * n + d) 0

/-- The digits appended to a number as long as it fits 64 bits, and the
digits left over. -/
def absorb (n : Nat) : List Nat → Nat × List Nat
  | [] => (n, [])
  | d :: ds => if 10 * n + d < unsigned64Bound then absorb (10 * n + d) ds else (n, d :: ds)

/-- The number with the given sign whose magnitude is a floating-point value. -/
def realOf (negative : Bool) (magnitude : Option Binary64) : Option Json :=
  magnitude.map (fun x => real (x.toDecimal .toEven negative))

/-- An integer literal: an integer if it fits 64 bits, except that minus zero has a sign. -/
def integerValue (negative : Bool) (whole : List Nat) : Option Json :=
  match absorb 0 whole with
  | (n, []) =>
    if !negative then some (integer n)
    else if 0 < n ∧ fitsSigned64 (-n) then some (integer (-n))
    else realOf true (Binary64.ofNat n)
  | (n, rest) => realOf negative (Binary64.ofScientificStepwise n rest.length)

/-- A literal with a fraction or an exponent. -/
def realValue (negative : Bool) (whole fraction : List Nat) (exponent : Int) : Option Json :=
  let (n, skipped) := absorb 0 whole
  let (m, dropped) := absorb n fraction
  let places := fraction.length - dropped.length
  realOf negative (Binary64.ofScientificStepwise m (exponent + skipped.length - places))

/-- The digits after the decimal point, at least one; none if there is no point. -/
def fractionPart : List Char → Option (Option (List Nat) × List Char)
  | '.' :: rest =>
    match digits rest with
    | ([], _) => none
    | (ds, rest') => some (some ds, rest')
  | text => some (none, text)

/-- The digits of an exponent, at least one. -/
def exponentDigits (text : List Char) : Option (Nat × List Char) :=
  match digits text with
  | ([], _) => none
  | (ds, rest) => some (ofDigits ds, rest)

/-- The exponent after an `e`, with its sign. -/
def signedExponent : List Char → Option (Int × List Char)
  | '+' :: rest => (exponentDigits rest).map (fun (n, r) => ((n : Int), r))
  | '-' :: rest => (exponentDigits rest).map (fun (n, r) => (-(n : Int), r))
  | rest => (exponentDigits rest).map (fun (n, r) => ((n : Int), r))

/-- The exponent of a number; none if there is no `e`. -/
def exponentPart : List Char → Option (Option Int × List Char)
  | 'e' :: rest | 'E' :: rest => (signedExponent rest).map (fun (n, r) => (some n, r))
  | text => some (none, text)

/-- The digits before the decimal point: a single zero, or digits that start with another. -/
def wholePart (text : List Char) : Option (List Nat × List Char) :=
  match digits text with
  | ([], _) => none
  | (0 :: _ :: _, _) => none
  | (ds, rest) => some (ds, rest)

/-- A number after its sign. -/
def unsignedNumber (negative : Bool) (text : List Char) : Option (Json × List Char) := do
  let (whole, text) ← wholePart text
  let (fraction, text) ← fractionPart text
  let (exponent, text) ← exponentPart text
  let value ← match fraction, exponent with
    | none, none => integerValue negative whole
    | _, _ => realValue negative whole (fraction.getD []) (exponent.getD 0)
  return (value, text)

/-- A number. -/
def number : List Char → Option (Json × List Char)
  | '-' :: rest => unsignedNumber true rest
  | text => unsignedNumber false text

/-! ### Values -/

/-- The name of a field with the colon that follows it. -/
def fieldName (text : List Char) : Option (String × List Char) :=
  match skipBlanks text with
  | '"' :: rest =>
    match stringBody [] rest with
    | some (name, rest) =>
      match skipBlanks rest with
      | ':' :: rest => some (name, rest)
      | _ => none
    | none => none
  | _ => none

mutual

/-- A value, with leading blanks; `depth` more containers may be opened. -/
def value : (budget depth : Nat) → List Char → Option (Json × List Char)
  | 0, _, _ => none
  | budget + 1, depth, text =>
    match skipBlanks text with
    | 'n' :: 'u' :: 'l' :: 'l' :: rest => some (null, rest)
    | 't' :: 'r' :: 'u' :: 'e' :: rest => some (bool true, rest)
    | 'f' :: 'a' :: 'l' :: 's' :: 'e' :: rest => some (bool false, rest)
    | '"' :: rest => (stringBody [] rest).map (fun (s, r) => (string s, r))
    | '[' :: rest =>
      match depth with
      | 0 => none
      | depth + 1 =>
        match skipBlanks rest with
        | ']' :: rest => some (list [], rest)
        | rest => (items budget depth rest).map (fun (js, r) => (list js, r))
    | '\x7b' :: rest =>
      match depth with
      | 0 => none
      | depth + 1 =>
        match skipBlanks rest with
        | '\x7d' :: rest => some (object [], rest)
        | rest => (fields budget depth rest).map (fun (fs, r) => (object fs, r))
    | text => number text

/-- The elements of a list up to its closing bracket, at least one. -/
def items : (budget depth : Nat) → List Char → Option (List Json × List Char)
  | 0, _, _ => none
  | budget + 1, depth, text =>
    match value budget depth text with
    | none => none
    | some (j, rest) =>
      match skipBlanks rest with
      | ',' :: rest => (items budget depth rest).map (fun (js, r) => (j :: js, r))
      | ']' :: rest => some ([j], rest)
      | _ => none

/-- The fields of an object up to its closing brace, at least one. -/
def fields : (budget depth : Nat) → List Char → Option (List (String × Json) × List Char)
  | 0, _, _ => none
  | budget + 1, depth, text =>
    match fieldName text with
    | none => none
    | some (name, rest) =>
      match value budget depth rest with
      | none => none
      | some (j, rest) =>
        match skipBlanks rest with
        | ',' :: rest => (fields budget depth rest).map (fun (fs, r) => ((name, j) :: fs, r))
        | '\x7d' :: rest => some ([(name, j)], rest)
        | _ => none

end

end Reader

/-- The value with which a text starts, if its containers nest at most `nesting`
deep, and the text after the blanks that follow it. Each step of the reader takes a
character or is followed by one that does, so twice the length bounds the steps. -/
def parseStart (nesting : Nat) (text : String) : Option (Json × List Char) :=
  let chars := text.toList
  (Reader.value (2 * chars.length + 2) nesting chars).map (fun (j, rest) =>
    (j, Reader.skipBlanks rest))

/-- The value that a whole text denotes, if it is JSON whose containers nest at most
`nesting` deep. -/
def parseWithin (nesting : Nat) (text : String) : Option Json :=
  match parseStart nesting text with
  | some (j, []) => some j
  | _ => none

/-- The value that a text denotes, if it is JSON. -/
def parse (text : String) : Option Json := parseWithin maxNesting text

end EntityTypings.Json
