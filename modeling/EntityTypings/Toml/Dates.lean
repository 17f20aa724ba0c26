import EntityTypings.Toml.Numbers

/-!
# Dates of TOML

The dates and times of a document, with their offsets, are kept as normalised
text: the fraction of a second goes to nanoseconds and has no trailing zeros, and
an offset is hours and minutes with a sign.

A table is another way to write a date: one whose first key is `dateKey` stands
for the date that the text there denotes, whatever else is in it (`dated?`).
-/

namespace EntityTypings.Toml

namespace Reader

/-! ### Parts of dates -/

/-- A number of exactly `count` digits. -/
def fixedDigits (count : Nat) (text : List Char) : Option (Nat × List Char) :=
  let ds := text.take count
  if ds.length = count ∧ ds.all Char.isDigit then
    some (inBase 10 (ds.map (fun c => c.toNat - '0'.toNat)), text.drop count)
  else none

/-- The text after a character that has to be there. -/
def expect (c : Char) : List Char → Option (List Char)
  | d :: rest => if c = d then some rest else none
  | [] => none

/-- Two digits for a number within bounds. -/
def twoDigits (low high : Nat) (text : List Char) : Option (Nat × List Char) := do
  let (n, rest) ← fixedDigits 2 text
  if low ≤ n ∧ n ≤ high then some (n, rest) else none

/-- The number of days of a month. -/
def daysOfMonth (year month : Nat) : Nat :=
  if month = 2 then
    if year % 4 = 0 ∧ (year % 100 ≠ 0 ∨ year % 400 = 0) then 29 else 28
  else if month = 4 ∨ month = 6 ∨ month = 9 ∨ month = 11 then 30
  else 31

/-- A number as decimal digits, with leading zeros up to a width. -/
def padded (width n : Nat) : List Char :=
  let ds := (toString n).toList
  List.replicate (width - ds.length) '0' ++ ds

/-- A day. -/
def date (text : List Char) : Option (List Char × List Char) := do
  let (year, text) ← fixedDigits 4 text
  let (month, text) ← twoDigits 1 12 (← expect '-' text)
  let (day, text) ← twoDigits 1 31 (← expect '-' text)
  if day ≤ daysOfMonth year month then
    some (padded 4 year ++ '-' :: padded 2 month ++ '-' :: padded 2 day, text)
  else none

/-- The number of digits that a fraction of a second keeps. -/
def secondPlaces : Nat := 9

/-- The fraction of a second, without trailing zeros. -/
def secondFraction : List Char → Option (List Char × List Char)
  | '.' :: rest =>
    let ds := rest.takeWhile Char.isDigit
    let kept := ((ds.take secondPlaces).reverse.dropWhile (fun c => c = '0')).reverse
    if ds.isEmpty then none
    else some (if kept.isEmpty then [] else '.' :: kept, rest.dropWhile Char.isDigit)
  | text => some ([], text)

/-- A time of day. -/
def time (text : List Char) : Option (List Char × List Char) := do
  let (hour, text) ← twoDigits 0 23 text
  let (minute, text) ← twoDigits 0 59 (← expect ':' text)
  let (second, text) ← twoDigits 0 60 (← expect ':' text)
  let (fraction, text) ← secondFraction text
  some (padded 2 hour ++ ':' :: padded 2 minute ++ ':' :: padded 2 second ++ fraction, text)

/-- The offset of a time from universal time; none is written as nothing, and a
zero has a plus. -/
def offset : List Char → Option (List Char × List Char)
  | 'Z' :: rest | 'z' :: rest => some (['Z'], rest)
  | c :: rest =>
    if c = '+' ∨ c = '-' then do
      let (hours, text) ← twoDigits 0 23 rest
      let (minutes, text) ← twoDigits 0 59 (← expect ':' text)
      let sign := if c = '+' ∨ hours + minutes = 0 then '+' else '-'
      some (sign :: padded 2 hours ++ ':' :: padded 2 minutes, text)
    else some ([], c :: rest)
  | [] => some ([], [])

/-- Whether a character can stand between a date and a time. -/
def isDateTimeGap (c : Char) : Bool := c = 'T' || c = 't' || c = ' '

/-! ### Dates in documents -/

/-- Whether a text goes on with the hour of a time. -/
def startsTime : List Char → Bool
  | a :: b :: ':' :: _ => a.isDigit && b.isDigit
  | _ => false

/-- Whether a text goes on with the year of a date. -/
def startsDate : List Char → Bool
  | a :: b :: c :: d :: '-' :: _ => [a, b, c, d].all Char.isDigit
  | _ => false

/-- A date with the time after it, if there is one. -/
def dateThenTime (text : List Char) : Option (Toml × List Char) := do
  let (day, text) ← date text
  match text with
  | c :: rest =>
    if isDateTimeGap c && startsTime rest then do
      let (clock, text) ← time rest
      let (shift, text) ← offset text
      some (.dateTime (String.ofList (day ++ 'T' :: clock ++ shift)), text)
    else some (.dateTime (String.ofList day), text)
  | [] => some (.dateTime (String.ofList day), [])

/-- A date, a time or a number. -/
def numberOrDate (text : List Char) : Option (Toml × List Char) :=
  if startsDate text then dateThenTime text
  else if startsTime text then
    (time text).map (fun (clock, rest) => (.dateTime (String.ofList clock), rest))
  else number text

/-! ### Dates in texts -/

/-- The date or time that a whole text denotes, normalised. -/
def dateText? (text : String) : Option String :=
  match numberOrDate text.toList with
  | some (.dateTime date, []) => some date
  | _ => none

example : dateText? "1979-05-27t23:00:60.500-00:30" = some "1979-05-27T23:00:60.5-00:30" := by
  decide

end Reader

/-! ### Tables that stand for dates -/

/-- The first key of a table that stands for a date. -/
def dateKey : String := "$__toml_private_datetime"

mutual

/-- The value with dates in place of the tables that stand for them. -/
def dated? : Toml → Option Toml
  | .list items => (datedItems? items).map .list
  | .table [] => some (.table [])
  | .table ((name, v) :: rest) =>
    if name = dateKey then
      match v with
      | .string s => (Reader.dateText? s).map .dateTime
      | _ => none
    else
      match dated? v, datedEntries? rest with
      | some v, some rest => some (.table ((name, v) :: rest))
      | _, _ => none
  | v => some v

/-- The elements of a list with dates in place of the tables that stand for them. -/
def datedItems? : List Toml → Option (List Toml)
  | [] => some []
  | v :: rest =>
    match dated? v, datedItems? rest with
    | some v, some rest => some (v :: rest)
    | _, _ => none

/-- The entries of a table with dates in place of the tables that stand for them. -/
def datedEntries? : List (String × Toml) → Option (List (String × Toml))
  | [] => some []
  | (name, v) :: rest =>
    match dated? v, datedEntries? rest with
    | some v, some rest => some ((name, v) :: rest)
    | _, _ => none

end

/-- The entries of a whole document, which itself is no date. -/
def datedDocument? (entries : List (String × Toml)) : Option (List (String × Toml)) :=
  match dated? (.table entries) with
  | some (.table entries) => some entries
  | _ => none

end EntityTypings.Toml
