/-!
# Timestamps

Instants of universal time and their text. An instant is given by seconds and
nanoseconds since the start of 1970; nanoseconds from a whole second on stand
for a leap second and are possible only in the last second of a minute.

The text has the date, the letter `T`, the time of day with milliseconds and the
letter `Z`. Milliseconds are cut off, not rounded. A year outside 0 to 9999 has
a sign and at least four digits.
-/

namespace EntityTypings

/-- An instant of universal time. -/
structure Timestamp where
  /-- Whole seconds since the start of 1970. -/
  seconds : Int
  /-- Nanoseconds after them, from a whole second on within a leap second. -/
  nanoseconds : Nat
  deriving DecidableEq, Repr

/-- A day of the calendar. -/
structure CivilDate where
  /-- The year, counted through zero. -/
  year : Int
  /-- The month from 1 to 12. -/
  month : Nat
  /-- The day of the month from 1. -/
  day : Nat
  deriving DecidableEq, Repr

namespace CivilDate

/-- The days from the first of March of the year zero to the start of 1970. -/
def epochOffset : Int := 719468

/-- The days of 400 years. -/
def cycleDays : Int := 146097

/-- The day that lies `days` days after the start of 1970. Years are counted from
March, so that a leap day is the last day of its year. -/
def ofEpochDay (days : Int) : CivilDate :=
  let z := days + epochOffset
  let cycle := z.fdiv cycleDays
  let dayOfCycle := (z.fmod cycleDays).toNat
  let yearOfCycle := (dayOfCycle - dayOfCycle / 1460 + dayOfCycle / 36524 - dayOfCycle / 146096) / 365
  let dayOfYear := dayOfCycle - (365 * yearOfCycle + yearOfCycle / 4 - yearOfCycle / 100)
  let monthFromMarch := (5 * dayOfYear + 2) / 153
  let month := if monthFromMarch < 10 then monthFromMarch + 3 else monthFromMarch - 9
  { year := yearOfCycle + cycle * 400 + (if month ≤ 2 then 1 else 0)
    month := month
    day := dayOfYear - (153 * monthFromMarch + 2) / 5 + 1 }

example : ofEpochDay 0 = ⟨1970, 1, 1⟩ := by decide
example : ofEpochDay 11016 = ⟨2000, 2, 29⟩ := by decide
example : ofEpochDay (-719528) = ⟨0, 1, 1⟩ := by decide

end CivilDate

namespace Timestamp

/-- The first second of the year -262143, before which there are no instants. -/
def minSeconds : Int := -8334601228800

/-- The last second of the year 262142, after which there are no instants. -/
def maxSeconds : Int := 8210266876799

/-- The nanoseconds of a second. -/
def secondNanos : Nat := 1000000000

/-- The instant of the given seconds and nanoseconds, if there is one. -/
def ofUnix? (seconds : Int) (nanoseconds : Nat) : Option Timestamp :=
  if minSeconds ≤ seconds ∧ seconds ≤ maxSeconds ∧ nanoseconds < 2 * secondNanos ∧
      (secondNanos ≤ nanoseconds → seconds % 60 = 59) then
    some ⟨seconds, nanoseconds⟩
  else none

/-! ### Text -/

/-- A number with leading zeros up to a width. -/
def padded (width n : Nat) : String :=
  let digits := (toString n).toList
  String.ofList (List.replicate (width - digits.length) '0' ++ digits)

/-- A year, with a sign outside the four-digit years. -/
def yearText (year : Int) : String :=
  if 0 ≤ year ∧ year ≤ 9999 then padded 4 year.toNat
  else (if year < 0 then "-" else "+") ++ padded 4 year.natAbs

/-- The instant as text, with milliseconds. -/
def text (t : Timestamp) : String :=
  let date := CivilDate.ofEpochDay (t.seconds.fdiv 86400)
  let time := (t.seconds.fmod 86400).toNat
  let leap := t.nanoseconds / secondNanos
  let millis := t.nanoseconds % secondNanos / 1000000
  yearText date.year ++ "-" ++ padded 2 date.month ++ "-" ++ padded 2 date.day ++ "T"
    ++ padded 2 (time / 3600) ++ ":" ++ padded 2 (time / 60 % 60) ++ ":"
    ++ padded 2 (time % 60 + leap) ++ "." ++ padded 3 millis ++ "Z"

end Timestamp

end EntityTypings
