import EntityTypings.Json.Basic

/-!
# Writing JSON

The two forms in which values are written. `compact` has no blanks at all and
is what generated declarations contain; `pretty` puts each element and each
field on a line of its own, indented by two spaces for each container around it.

In a string, only the quote, the backslash and the characters below the space
are escaped. A floating-point number is written in positional notation from
`1e-5` up to below `1e16`, with at least one digit after the point, and with a
signed exponent elsewhere.
-/

namespace EntityTypings.Json

/-! ### Numbers and strings -/

/-- Whether a decimal is written positionally: its leading digit stands within
sixteen places before the point or five after it. -/
def isPositional (d : Decimal) : Bool := -5 < d.pointPosition && d.pointPosition ≤ 16

/-- A floating-point number as it is written. -/
def realText (d : Decimal) : String :=
  if d.isZero || isPositional d then d.pointed else d.scientific

/-- The lower-case hexadecimal digits of a number below 256. -/
def hexPair (n : Nat) : List Char :=
  [Nat.digitChar (n / 16), Nat.digitChar (n % 16)]

/-- A character as it is written in a string. -/
def escape (c : Char) : List Char :=
  match c with
  | '"' => ['\\', '"']
  | '\\' => ['\\', '\\']
  | '\x08' => ['\\', 'b']
  | '\x0c' => ['\\', 'f']
  | '\n' => ['\\', 'n']
  | '\r' => ['\\', 'r']
  | '\t' => ['\\', 't']
  | c => if c.toNat < 0x20 then ['\\', 'u', '0', '0'] ++ hexPair c.toNat else [c]

/-- A string as it is written, between quotes. -/
def quoted (s : String) : String :=
  String.ofList ('"' :: s.toList.flatMap escape ++ ['"'])

/-- No control character is written as itself. -/
theorem escape_printable {c d : Char} (h : d ∈ escape c) : 0x20 ≤ d.toNat := by
  have printable {cs : List Char} (hc : cs.all (fun x => decide (0x20 ≤ x.toNat)) = true)
      (hd : d ∈ cs) : 0x20 ≤ d.toNat := by
    simpa using List.all_eq_true.1 hc d hd
  unfold escape at h
  split at h
  case h_8 =>
    split at h
    · rename_i hc
      have hex : ∀ n : Nat, n < 0x20 →
          (['\\', 'u', '0', '0'] ++ hexPair n).all (fun x => decide (0x20 ≤ x.toNat)) = true := by
        decide
      exact printable (hex _ hc) h
    · rename_i hc
      rw [List.mem_singleton.1 h]
      omega
  all_goals exact printable (by decide) h

/-! ### Compact form -/

mutual

/-- The value without any blanks. -/
def compact : Json → String
  | null => "null"
  | bool true => "true"
  | bool false => "false"
  | integer n => toString n
  | real d => realText d
  | string s => quoted s
  | list items => "[" ++ compactItems items ++ "]"
  | object fields => "\x7b" ++ compactFields fields ++ "\x7d"

/-- The elements of a list, separated by commas. -/
def compactItems : List Json → String
  | [] => ""
  | [j] => j.compact
  | j :: rest => j.compact ++ "," ++ compactItems rest

/-- The fields of an object, separated by commas. -/
def compactFields : List (String × Json) → String
  | [] => ""
  | [(name, j)] => quoted name ++ ":" ++ j.compact
  | (name, j) :: rest => quoted name ++ ":" ++ j.compact ++ "," ++ compactFields rest

end

/-! ### Pretty form -/

/-- The line break before an element that stands in `depth` containers. -/
def lineBreak (depth : Nat) : String := String.ofList ('\n' :: List.replicate (2 * depth) ' ')

mutual

/-- The value with line breaks, inside `depth` containers. -/
def prettyAt (depth : Nat) : Json → String
  | list [] => "[]"
  | list items => "[" ++ prettyItems (depth + 1) items ++ lineBreak depth ++ "]"
  | object [] => "\x7b\x7d"
  | object fields => "\x7b" ++ prettyFields (depth + 1) fields ++ lineBreak depth ++ "\x7d"
  | null => compact null
  | bool b => compact (bool b)
  | integer n => compact (integer n)
  | real d => compact (real d)
  | string s => compact (string s)

/-- The elements of a list, each on its own line. -/
def prettyItems (depth : Nat) : List Json → String
  | [] => ""
  | [j] => lineBreak depth ++ j.prettyAt depth
  | j :: rest => lineBreak depth ++ j.prettyAt depth ++ "," ++ prettyItems depth rest

/-- The fields of an object, each on its own line. -/
def prettyFields (depth : Nat) : List (String × Json) → String
  | [] => ""
  | [(name, j)] => lineBreak depth ++ quoted name ++ ": " ++ j.prettyAt depth
  | (name, j) :: rest =>
    lineBreak depth ++ quoted name ++ ": " ++ j.prettyAt depth ++ "," ++ prettyFields depth rest

end

/-- The value with line breaks. -/
def pretty (j : Json) : String := j.prettyAt 0

end EntityTypings.Json
