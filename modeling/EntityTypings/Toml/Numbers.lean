import EntityTypings.Json.Reader
import EntityTypings.Number.Bounds
import EntityTypings.Toml.Basic

/-!
# Numbers of TOML

The numbers of a document. Underscores may stand between digits. An integer has
to fit 64 bits with a sign. A floating-point number is rounded to the nearest
value; one that is too large is an error, and one that is too far below zero is
the negative infinity.

Every function returns the rest of the text beside what it read.
-/

namespace EntityTypings.Toml.Reader

/-! ### Digits -/

/-- The digits, as `digit?` values them, with which a text goes on, after
underscores that each stand before a digit; an underscore elsewhere is an error. -/
def moreDigits (digit? : Char → Option Nat) : List Char → Option (List Nat × List Char)
  | '_' :: c :: rest =>
    match digit? c with
    | some d => (moreDigits digit? rest).map (fun (ds, r) => (d :: ds, r))
    | none => none
  | c :: rest =>
    match digit? c with
    | some d => (moreDigits digit? rest).map (fun (ds, r) => (d :: ds, r))
    | none => if c = '_' then none else some ([], c :: rest)
  | [] => some ([], [])

/-- Digits with underscores between them, at least one. -/
def someDigits (digit? : Char → Option Nat) : List Char → Option (List Nat × List Char)
  | c :: rest =>
    match digit? c with
    | some d => (moreDigits digit? rest).map (fun (ds, r) => (d :: ds, r))
    | none => none
  | [] => none

/-- The value of a digit of the given base. -/
def digitOf (base : Nat) (c : Char) : Option Nat := do
  let d ← Json.Reader.hexDigit? c
  if d < base then some d else none

/-- The number that digits denote in a base. -/
def inBase (base : Nat) (ds : List Nat) : Nat := ds.foldl (fun n d => base * n + d) 0

/-! ### Integers and floating-point numbers -/

/-- The sign that stands before a number, if any; whether it is a minus. -/
def sign : List Char → Bool × List Char
  | '-' :: rest => (true, rest)
  | '+' :: rest => (false, rest)
  | text => (false, text)

/-- The digits of a number before its point: a single zero, or digits that start
with another. -/
def wholeDigits : List Char → Option (List Nat × List Char)
  | '0' :: rest => some ([0], rest)
  | text => someDigits (digitOf 10) text

/-- An integer that fits 64 bits. -/
def integerOf (negative : Bool) (n : Nat) : Option Toml :=
  let signed : Int := if negative then -n else n
  if fitsSigned64 signed then some (.integer signed) else none

/-- A floating-point number that is not too large. -/
def realOf (negative : Bool) (digits : Nat) (exponent : Int) : Option Toml :=
  match FloatValue.ofScientific negative digits exponent with
  | .infinite false => none
  | x => some (.real x)

/-- The digits after a point, if there is one. -/
def fraction : List Char → Option (Option (List Nat) × List Char)
  | '.' :: rest => (someDigits (digitOf 10) rest).map (fun (ds, r) => (some ds, r))
  | text => some (none, text)

/-- The exponent after an `e`, if there is one. -/
def exponent : List Char → Option (Option Int × List Char)
  | 'e' :: rest | 'E' :: rest =>
    let (negative, rest) := sign rest
    (someDigits (digitOf 10) rest).map (fun (ds, r) =>
      (some (if negative then -(inBase 10 ds : Int) else inBase 10 ds), r))
  | text => some (none, text)

/-- A decimal number after its sign. -/
def decimalNumber (negative : Bool) (text : List Char) : Option (Toml × List Char) := do
  let (whole, text) ← wholeDigits text
  let (fraction, text) ← fraction text
  let (exponent, text) ← exponent text
  let value ← match fraction, exponent with
    | none, none => integerOf negative (inBase 10 whole)
    | _, _ =>
      let places := fraction.getD []
      realOf negative (inBase 10 (whole ++ places)) (exponent.getD 0 - places.length)
  return (value, text)

/-- A number that is not written in decimal digits after its sign. -/
def namedNumber (negative : Bool) : List Char → Option (Toml × List Char)
  | 'i' :: 'n' :: 'f' :: rest => some (.real (.infinite negative), rest)
  | 'n' :: 'a' :: 'n' :: rest => some (.real .nan, rest)
  | text => decimalNumber negative text

/-- An integer in a base of digits. -/
def integerInBase (base : Nat) (text : List Char) : Option (Toml × List Char) := do
  let (ds, rest) ← someDigits (digitOf base) text
  return (← integerOf false (inBase base ds), rest)

/-- A number. -/
def number : List Char → Option (Toml × List Char)
  | '0' :: 'x' :: rest => integerInBase 16 rest
  | '0' :: 'o' :: rest => integerInBase 8 rest
  | '0' :: 'b' :: rest => integerInBase 2 rest
  | text => let (negative, rest) := sign text; namedNumber negative rest

end EntityTypings.Toml.Reader
