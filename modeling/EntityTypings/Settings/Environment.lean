import EntityTypings.Json.Reader
import EntityTypings.Number.Bounds
import EntityTypings.Settings.Tree

/-!
# Settings from the environment

A variable whose name starts with `namePrefix`, in any case of letters, sets the
setting that the rest of its name spells, two underscores standing between the
name of a group and the name of a setting in it. Its value is taken for a truth
value, an integer or a floating-point number if it can be read as one, in this
order, and for a text otherwise.
-/

namespace EntityTypings.Environment

/-- How the names of variables start, in lower case. -/
def namePrefix : String := "typegen__"

/-! ### Names -/

/-- The text with a dot in place of every two underscores. -/
def withDots : List Char → List Char
  | '_' :: '_' :: rest => '.' :: withDots rest
  | c :: rest => c :: withDots rest
  | [] => []

/-- The name of the setting that a variable sets, with dots between its parts. -/
def settingName? (variableName : String) : Option String :=
  let cs := (lowerCase variableName).toList
  let start := namePrefix.toList
  if start.isPrefixOf cs then some (String.ofList (withDots (cs.drop start.length))) else none

/-! ### Values -/

/-- The integer that a text spells, with or without a sign, if it fits 64 bits. -/
def integer? (text : List Char) : Option Int :=
  let (negative, ds) := match text with
    | '-' :: rest => (true, rest)
    | '+' :: rest => (false, rest)
    | text => (false, text)
  match Json.Reader.digits ds with
  | ([], _) => none
  | (ds, []) =>
    let n : Int := Json.Reader.ofDigits ds
    let signed := if negative then -n else n
    if fitsSigned64 signed then some signed else none
  | _ => none

/-- The exponent that may follow the digits of a number, up to the end of the text. -/
def exponent? : List Char → Option Int
  | [] => some 0
  | c :: rest =>
    if c = 'e' ∨ c = 'E' then
      match Json.Reader.signedExponent rest with
      | some (n, []) => some n
      | _ => none
    else none

/-- The number that digits with an optional point and an optional exponent
spell; there is a digit before or after the point. -/
def decimal? (negative : Bool) (text : List Char) : Option FloatValue :=
  let (whole, rest) := Json.Reader.digits text
  let (fraction, rest) := match rest with
    | '.' :: rest => Json.Reader.digits rest
    | rest => ([], rest)
  if whole.isEmpty && fraction.isEmpty then none
  else (exponent? rest).map (fun e =>
    .ofScientific negative (Json.Reader.ofDigits (whole ++ fraction)) (e - fraction.length))

/-- A floating-point number after its sign, by name or by its digits. -/
def unsigned? (negative : Bool) (text : List Char) : Option FloatValue :=
  let word := lowerCase (String.ofList text)
  if word = "inf" ∨ word = "infinity" then some (.infinite negative)
  else if word = "nan" then some .nan
  else decimal? negative text

/-- The floating-point number that a text spells. -/
def real? : List Char → Option FloatValue
  | '-' :: rest => unsigned? true rest
  | '+' :: rest => unsigned? false rest
  | text => unsigned? false text

/-- The value of a variable. -/
def typed (value : String) : SettingTree :=
  if lowerCase value = "true" then .boolean true
  else if lowerCase value = "false" then .boolean false
  else
    match integer? value.toList with
    | some n => .integer n
    | none =>
      match real? value.toList with
      | some x => .real x
      | none => .text value

/-- What the environment says about settings, by their names. -/
def settings (environment : List (String × String)) : List (String × SettingTree) :=
  environment.filterMap (fun v => (settingName? v.1).map (·, typed v.2))

end EntityTypings.Environment
