import EntityTypings.Number.Decimal

/-!
# Floating-point values of settings

A floating-point number that a settings file or the environment gives: a finite
number, one of the infinities, or not a number. Finite numbers are rounded to
the nearest 64-bit value and kept by their shortest digits; of two shortest
decimals that are equally near the larger one is kept. The text is positional
for every magnitude and has no point if nothing follows it.
-/

namespace EntityTypings

/-- A 64-bit floating-point number. -/
inductive FloatValue where
  /-- A finite number. -/
  | finite (d : Decimal)
  /-- A number beyond every finite one. -/
  | infinite (negative : Bool)
  /-- Not a number. -/
  | nan
  deriving DecidableEq, Repr

namespace FloatValue

/-- The number nearest to `± digits · 10 ^ exponent`; an infinity if that lies
beyond the finite numbers. -/
def ofScientific (negative : Bool) (digits : Nat) (exponent : Int) : FloatValue :=
  match Binary64.ofScientific digits exponent with
  | some x => finite (x.toDecimal .up negative)
  | none => infinite negative

/-- The number as text. -/
def text : FloatValue → String
  | finite d => d.plain
  | infinite true => "-inf"
  | infinite false => "inf"
  | nan => "NaN"

/-- Whether the number differs from zero, as what is not a number does. -/
def isNonzero : FloatValue → Bool
  | finite d => !d.isZero
  | infinite _ | nan => true

@[simp] theorem isNonzero_finite (d : Decimal) : (finite d).isNonzero = !d.isZero := rfl

end FloatValue

end EntityTypings
