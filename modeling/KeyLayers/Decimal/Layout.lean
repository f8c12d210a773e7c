import KeyLayers.Decimal.Shortest

/-!
# The text of a floating-point number

A number is written with its shortest decimal.  A `Layout` says which numbers
are written positionally; the others have one digit before the point and an
exponent of ten with its sign.
-/

namespace KeyLayers.Decimal

/-- Which numbers are written without an exponent of ten. -/
structure Layout where
  /-- The least exponent of the leading digit that is written positionally. -/
  least : Int
  /-- The greatest exponent of the leading digit that is written positionally. -/
  greatest : Int

/-- Digits before and after the point, a zero standing for an empty part. -/
def positional (digits : List Char) (leading : Int) : List Char :=
  if leading < 0 then
    ['0', '.'] ++ List.replicate (-leading - 1).toNat '0' ++ digits
  else
    let whole := leading.toNat + 1
    let padded := digits ++ List.replicate (whole - digits.length) '0'
    let rest := padded.drop whole
    padded.take whole ++ ['.'] ++ (if rest.isEmpty then ['0'] else rest)

/-- One digit, the others after a point, and the exponent of ten. -/
def scientific (digits : List Char) (leading : Int) : List Char :=
  let rest := digits.drop 1
  digits.take 1 ++ (if rest.isEmpty then [] else '.' :: rest) ++
    ['e', if leading < 0 then '-' else '+'] ++ Nat.toDigits 10 leading.natAbs

/-- The text of a positive decimal. -/
def Layout.write (layout : Layout) (decimal : Decimal) : List Char :=
  let digits := Nat.toDigits 10 decimal.digits
  let leading : Int := digits.length - 1 + decimal.exponent
  if layout.least ≤ leading ∧ leading ≤ layout.greatest then
    positional digits leading
  else
    scientific digits leading

/-- The text of a finite binary number. -/
def Layout.writeFinite
    (layout : Layout) (negative : Bool) (mantissa : Nat) (exponent : Int) :
    List Char :=
  let sign := if negative then ['-'] else []
  if mantissa = 0 then sign ++ ['0', '.', '0']
  else sign ++ layout.write (shortest mantissa exponent)

end KeyLayers.Decimal
