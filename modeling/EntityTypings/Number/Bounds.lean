/-!
# Bounds of integers

The integers that fit 64 bits, with and without a sign. Numbers beyond the
bounds are read as something else where they are read.
-/

namespace EntityTypings

/-- The number of values of 64 bits. -/
def unsigned64Bound : Nat := 0x10000000000000000

/-- Whether an integer fits 64 bits of which one is the sign. -/
def fitsSigned64 (n : Int) : Bool := -0x8000000000000000 ≤ n && n < 0x8000000000000000

end EntityTypings
