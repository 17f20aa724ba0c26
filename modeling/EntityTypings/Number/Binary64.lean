/-!
# Binary64 magnitudes in exact arithmetic

The non-negative finite values of the 64-bit binary floating-point format, as
pairs of natural numbers and integers, with rounding to nearest. No operation
of the machine's floating-point unit is used, so every rounding is a
calculation on natural numbers that a proof can follow.

A value is `significand · 2 ^ exponent` with a significand below `2 ^ 53` and an
exponent from `-1074` on. `ofRatio` is the nearest such value to a quotient, a
tie going to the even significand; it is `none` when the quotient lies beyond
the largest value. `ofScientific` is the nearest value to a decimal.
`ofScientificStepwise` is the value that results when the digits are rounded
first and then multiplied or divided by a power of ten, with a rounding at each
step; the two can differ in the last place.
-/

namespace EntityTypings

/-- A quotient of natural numbers, `num / den`. -/
structure Ratio where
  /-- The dividend. -/
  num : Nat
  /-- The divisor, which is positive wherever a ratio is built here. -/
  den : Nat
  deriving Repr

namespace Ratio

/-- `num · base ^ power`, for a power of either sign. -/
def scaled (num base : Nat) (power : Int) : Ratio :=
  if 0 ≤ power then ⟨num * Nat.pow base power.toNat, 1⟩ else ⟨num, Nat.pow base (-power).toNat⟩

/-- The product. -/
def mul (a b : Ratio) : Ratio := ⟨a.num * b.num, a.den * b.den⟩

/-- The quotient. -/
def div (a b : Ratio) : Ratio := ⟨a.num * b.den, a.den * b.num⟩

/-- Whether `a ≤ b`. -/
def le (a b : Ratio) : Bool := a.num * b.den ≤ b.num * a.den

/-- Whether `a < b`. -/
def lt (a b : Ratio) : Bool := a.num * b.den < b.num * a.den

/-- The nearest natural number, a half going to the even neighbour. -/
def roundHalfEven (r : Ratio) : Nat :=
  let low := r.num / r.den
  let excess := 2 * (r.num % r.den)
  if excess < r.den then low
  else if r.den < excess then low + 1
  else if low % 2 = 0 then low else low + 1

end Ratio

/-- A non-negative finite value of the 64-bit binary format, `significand · 2 ^ exponent`. -/
structure Binary64 where
  /-- The significand, below `2 ^ 53`. -/
  significand : Nat
  /-- The exponent of two, at least `-1074`. -/
  exponent : Int
  deriving DecidableEq, Repr

namespace Binary64

/-- The number of significands. -/
def significandBound : Nat := 0x20000000000000

/-- The least significand of 53 bits. -/
def leastNormal : Nat := 0x10000000000000

/-- The least exponent of two. -/
def minExponent : Int := -1074

/-- The value zero. -/
def zero : Binary64 := ⟨0, minExponent⟩

/-- The value as a quotient. -/
def ratio (x : Binary64) : Ratio := .scaled x.significand 2 x.exponent

/-- Whether the value is below the bound `2 ^ 1024` of the format. -/
def inRange (x : Binary64) : Bool := x.ratio.lt ⟨Nat.pow 2 1024, 1⟩

/-- The exponent at which a quotient has a significand of 53 bits, or the least one. -/
def exponentOf (r : Ratio) : Int :=
  let guess : Int := (r.num.log2 : Int) - r.den.log2 - 53
  max minExponent (if (Ratio.scaled significandBound 2 guess).le r then guess + 1 else guess)

/-- The value nearest to a quotient, a tie going to the even significand, if
that value is in range. -/
def ofRatio (r : Ratio) : Option Binary64 :=
  if r.num = 0 then some zero
  else
    let e := exponentOf r
    let m := (r.div (.scaled 1 2 e)).roundHalfEven
    let x : Binary64 := if m = significandBound then ⟨leastNormal, e + 1⟩ else ⟨m, e⟩
    if x.inRange then some x else none

/-- The value nearest to a natural number. -/
def ofNat (n : Nat) : Option Binary64 := ofRatio ⟨n, 1⟩

/-- The value nearest to `digits · 10 ^ exponent`. Decimals that are certain to
overflow, or to be nearer to zero than to anything else, are settled by their
magnitude alone. -/
def ofScientific (digits : Nat) (exponent : Int) : Option Binary64 :=
  if digits = 0 then some zero
  else
    let magnitude := ((toString digits).length : Int) + exponent
    if magnitude < -400 then some zero
    else if 400 < magnitude then none
    else ofRatio (.scaled digits 10 exponent)

/-- The largest power of ten by which a step multiplies or divides. -/
def maxPowerStep : Nat := 308

/-- Division by `10 ^ power` in steps of at most `10 ^ 308`, each rounded. -/
def divPowerOfTen (x : Binary64) (power : Nat) : Option Binary64 :=
  if power ≤ maxPowerStep then do
    let ten ← ofNat (Nat.pow 10 power)
    ofRatio (x.ratio.div ten.ratio)
  else if x.significand = 0 then some x
  else do
    let ten ← ofNat (Nat.pow 10 maxPowerStep)
    let y ← ofRatio (x.ratio.div ten.ratio)
    divPowerOfTen y (power - maxPowerStep)
termination_by power
decreasing_by
  have : ¬ power ≤ maxPowerStep := by assumption
  unfold maxPowerStep at *
  omega

/-- Multiplication by `10 ^ power`, rounded; a power beyond the format is in
range for zero only. -/
def mulPowerOfTen (x : Binary64) (power : Nat) : Option Binary64 :=
  if power ≤ maxPowerStep then do
    let ten ← ofNat (Nat.pow 10 power)
    ofRatio (x.ratio.mul ten.ratio)
  else if x.significand = 0 then some x
  else none

/-- `digits · 10 ^ exponent`, the digits rounded first and the power of ten
applied with a rounding at each step. -/
def ofScientificStepwise (digits : Nat) (exponent : Int) : Option Binary64 := do
  let x ← ofNat digits
  if 0 ≤ exponent then x.mulPowerOfTen exponent.toNat else x.divPowerOfTen (-exponent).toNat

end Binary64

end EntityTypings
