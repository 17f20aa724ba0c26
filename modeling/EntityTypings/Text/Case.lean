/-!
# Letter case

Names are compared in any case of letters at a few places. All names that they
are compared with, and all names that are read as paths, consist of ASCII
characters. So it is enough to change the characters that are a single ASCII
letter in lower case: the ASCII capitals and the Kelvin sign, which is a capital
of its own that becomes the letter k.
-/

namespace EntityTypings

/-- The sign of the unit of temperature, which is not the letter K. -/
def kelvinSign : Char := '\u212a'

/-- The character in lower case, if that is an ASCII letter; any other as it is. -/
def lowerCaseChar (c : Char) : Char := if c = kelvinSign then 'k' else c.toLower

/-- The text with the characters that are ASCII letters in lower case changed to these. -/
def lowerCase (s : String) : String := s.map lowerCaseChar

example : lowerCase "Bar" = "bar" := by decide +kernel
example : lowerCase "BAR\u212a" = "bark" := by decide +kernel

end EntityTypings
