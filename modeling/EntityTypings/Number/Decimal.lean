import EntityTypings.Number.Binary64

/-!
# Decimals and shortest digits

A finite floating-point number is kept as the shortest decimal that reads back
as it: among the decimals that round to the number, one with the fewest digits
and, of those, the nearest. What is kept is thus exactly what is printed, and
two numbers are equal exactly if they are printed alike.

The search goes through the grids of one digit, two digits and so on up to
seventeen, which always suffices. On each grid only the two neighbours of the
number can be its nearest decimals. The reals that round to a number form an
interval whose ends belong to it if the significand is even.
-/

namespace EntityTypings

/-- A decimal, `± digits · 10 ^ exponent`. -/
structure Decimal where
  /-- Whether the sign is minus; a zero has a sign too. -/
  negative : Bool
  /-- The digits, as a natural number that ten does not divide unless it is zero. -/
  digits : Nat
  /-- The exponent of ten, zero for the number zero. -/
  exponent : Int
  deriving DecidableEq, Repr, Inhabited

/-- Which neighbour is taken when a number lies halfway between two decimals. -/
inductive HalfwayRule where
  /-- The neighbour whose last digit is even. -/
  | toEven
  /-- The larger neighbour. -/
  | up
  deriving DecidableEq, Repr

namespace Binary64

/-- The lower end of the interval of reals that round to a positive value, in
quarters of its last place: below a power of two the gap is half as wide. -/
def lowerQuarters (x : Binary64) : Nat :=
  4 * x.significand - (if x.significand = leastNormal ∧ minExponent < x.exponent then 1 else 2)

/-- The upper end of that interval, in quarters of the last place. -/
def upperQuarters (x : Binary64) : Nat := 4 * x.significand + 2

/-- Whether a quotient rounds to the positive value `x`. -/
def roundsFrom (x : Binary64) (r : Ratio) : Bool :=
  let low := Ratio.scaled x.lowerQuarters 2 (x.exponent - 2)
  let high := Ratio.scaled x.upperQuarters 2 (x.exponent - 2)
  if x.significand % 2 = 0 then low.le r && r.le high else low.lt r && r.lt high

/-- The exponent of ten of the leading digit of a positive quotient. -/
def leadingPower (r : Ratio) : Int :=
  let guess : Int := ((r.num.log2 : Int) - r.den.log2) * 30103 / 100000 - 2
  let powers := (List.range 6).map (fun (i : Nat) => guess + i)
  (powers.filter (fun p => (Ratio.scaled 1 10 p).le r)).getLastD guess

/-- The neighbour of `x` on the grid of multiples of `10 ^ power` that rounds
to `x`, the nearer one if both do. -/
def onGrid? (x : Binary64) (rule : HalfwayRule) (power : Int) : Option Nat :=
  let scaled := x.ratio.div (.scaled 1 10 power)
  let low := scaled.num / scaled.den
  let fits (n : Nat) : Bool := x.roundsFrom (.scaled n 10 power)
  match fits low, fits (low + 1) with
  | false, false => none
  | true, false => some low
  | false, true => some (low + 1)
  | true, true =>
    let excess := 2 * (scaled.num % scaled.den)
    if excess < scaled.den then some low
    else if scaled.den < excess then some (low + 1)
    else match rule with
      | .up => some (low + 1)
      | .toEven => some (if low % 2 = 0 then low else low + 1)

/-- The digits and the exponent of ten with trailing zeros moved into the exponent. -/
def withoutTrailingZeros (digits : Nat) (exponent : Int) : Nat × Int :=
  if h : digits ≠ 0 ∧ digits % 10 = 0 then withoutTrailingZeros (digits / 10) (exponent + 1)
  else (digits, if digits = 0 then 0 else exponent)
termination_by digits
decreasing_by omega

/-- The shortest digits that read back as the value, and their exponent of ten. -/
def shortest (x : Binary64) (rule : HalfwayRule) : Nat × Int :=
  if x.significand = 0 then (0, 0)
  else
    let lead := leadingPower x.ratio
    let grids := (List.range 17).map (fun (i : Nat) => lead - i)
    match grids.findSome? (fun p => (x.onGrid? rule p).map (·, p)) with
    | some (digits, power) => withoutTrailingZeros digits power
    | none => (0, 0)

/-- The value as a decimal of the given sign. -/
def toDecimal (x : Binary64) (rule : HalfwayRule) (negative : Bool) : Decimal :=
  let (digits, exponent) := x.shortest rule
  ⟨negative, digits, exponent⟩

end Binary64

namespace Decimal

/-! ### Texts -/

/-- The sign as it is written. -/
def sign (d : Decimal) : String := if d.negative then "-" else ""

/-- The digits as text. -/
def digitText (d : Decimal) : List Char := (toString d.digits).toList

/-- The number of digits before the decimal point, which is negative or zero
when zeros follow the point. -/
def pointPosition (d : Decimal) : Int := (d.digitText.length : Int) + d.exponent

/-- The digits before and after the decimal point in positional notation;
nothing follows the point of an integer. -/
def positionalParts (d : Decimal) : List Char × List Char :=
  let ds := d.digitText
  let p := d.pointPosition
  if 0 ≤ d.exponent then (ds ++ List.replicate d.exponent.toNat '0', [])
  else if 0 < p then (ds.take p.toNat, ds.drop p.toNat)
  else (['0'], List.replicate (-p).toNat '0' ++ ds)

/-- Positional notation, without a point for an integer. -/
def plain (d : Decimal) : String :=
  let (whole, fraction) := d.positionalParts
  d.sign ++ String.ofList (if fraction.isEmpty then whole else whole ++ '.' :: fraction)

/-- Positional notation with at least one digit after the point. -/
def pointed (d : Decimal) : String :=
  let (whole, fraction) := d.positionalParts
  d.sign ++ String.ofList (whole ++ '.' :: (if fraction.isEmpty then ['0'] else fraction))

/-- Scientific notation with one digit before the point and a signed exponent. -/
def scientific (d : Decimal) : String :=
  let power := d.pointPosition - 1
  let exponent := (if power < 0 then "e-" else "e+") ++ toString power.natAbs
  match d.digitText with
  | [] => d.sign
  | [c] => d.sign ++ String.singleton c ++ exponent
  | c :: cs => d.sign ++ String.ofList (c :: '.' :: cs) ++ exponent

/-- Whether the number is zero, of either sign. -/
def isZero (d : Decimal) : Bool := d.digits = 0

end Decimal

end EntityTypings
