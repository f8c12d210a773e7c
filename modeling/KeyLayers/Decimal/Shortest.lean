import KeyLayers.Decimal.Binary

/-!
# The shortest decimal of a binary number

Every real number close enough to a binary number is rounded to it.  Among the
decimals in that interval, the shortest one is the one on the coarsest grid of
multiples of a power of ten, and if both neighbours of the number on that grid
lie in the interval, the nearer one.  All comparisons are between exact
integers.
-/

namespace KeyLayers

/-- A decimal number `digits · 10 ^ exponent`. -/
structure Decimal where
  digits : Nat
  exponent : Int
deriving DecidableEq, Repr

namespace Decimal

open Binary64 (twoTo tenTo)

/-- Whether `digits · 10 ^ exponent < quarters · 2 ^ power`. -/
def ltBinary (decimal : Decimal) (quarters : Nat) (power : Int) : Bool :=
  decimal.digits * tenTo decimal.exponent * twoTo (-power) <
    quarters * twoTo power * tenTo (-decimal.exponent)

/-- Whether `digits · 10 ^ exponent ≤ quarters · 2 ^ power`. -/
def leBinary (decimal : Decimal) (quarters : Nat) (power : Int) : Bool :=
  decimal.digits * tenTo decimal.exponent * twoTo (-power) ≤
    quarters * twoTo power * tenTo (-decimal.exponent)

/--
Whether a decimal is rounded to `mantissa · 2 ^ exponent`.

The bounds are counted in quarters of the last bit: half a bit on either side,
a quarter below a power of two, where the numbers lie twice as dense.  They
belong to the interval when the mantissa is even.
-/
def roundsTo (decimal : Decimal) (mantissa : Nat) (exponent : Int) : Bool :=
  let dense := mantissa = Binary64.leastMantissa ∧ Binary64.leastExponent < exponent
  let low := if dense then 4 * mantissa - 1 else 4 * mantissa - 2
  let high := 4 * mantissa + 2
  let power := exponent - 2
  if mantissa % 2 = 0 then
    !decimal.ltBinary low power && decimal.leBinary high power
  else
    !decimal.leBinary low power && decimal.ltBinary high power

/-- The multiple of `10 ^ grid` at or just below `mantissa · 2 ^ exponent`. -/
def floorOn (grid : Int) (mantissa : Nat) (exponent : Int) : Nat :=
  (mantissa * twoTo exponent * tenTo (-grid)) /
    (twoTo (-exponent) * tenTo grid)

/-- Whether the number is past the middle between two neighbours of a grid. -/
def pastMiddle (floor : Decimal) (mantissa : Nat) (exponent : Int) : Bool :=
  let middle : Decimal := ⟨2 * floor.digits + 1, floor.exponent⟩
  if middle.leBinary (2 * mantissa) exponent then
    middle.ltBinary (2 * mantissa) exponent || floor.digits % 2 = 1
  else false

/-- The decimal on one grid that is rounded to the number, if there is one. -/
def onGrid? (grid : Int) (mantissa : Nat) (exponent : Int) : Option Decimal :=
  let below : Decimal := ⟨floorOn grid mantissa exponent, grid⟩
  let above : Decimal := ⟨below.digits + 1, grid⟩
  match below.roundsTo mantissa exponent, above.roundsTo mantissa exponent with
  | true, true => some (if below.pastMiddle mantissa exponent then above else below)
  | true, false => some below
  | false, true => some above
  | false, false => none

/-- The first hit on the grids `grid`, `grid - 1`, …, as many as are allowed. -/
def search (mantissa : Nat) (exponent : Int) : Nat → Int → Decimal
  | 0, grid => ⟨floorOn grid mantissa exponent, grid⟩
  | count + 1, grid =>
      match onGrid? grid mantissa exponent with
      | some decimal => decimal
      | none => search mantissa exponent count (grid - 1)

/--
The shortest decimal that is rounded to a positive number.

The search begins on a grid too coarse for the number; twenty grids further
down, a step of the grid is finer than the interval.
-/
def shortest (mantissa : Nat) (exponent : Int) : Decimal :=
  let bits : Int := mantissa.log2 + 1 + exponent
  search mantissa exponent 24 (bits * 30103 / 100000 + 2)

end Decimal

end KeyLayers
