import KeyLayers.Json.Value

/-!
# Numbers in JSON text

A numeral without a fraction and an exponent is an integer if a 64-bit word can
hold it.  Any other numeral is a binary number, computed in two roundings: the
leading digits are gathered into a 64-bit integer, which is rounded first, and
the result is then multiplied or divided by a rounded power of ten.  A numeral
with more than about fifteen digits or with a large exponent can therefore
differ in its last bit from the number nearest to it.
-/

namespace KeyLayers.Json

/-- A numeral as it stands in the text. -/
structure Numeral where
  negative : Bool
  /-- The digits before the point. -/
  whole : List Nat
  /-- The digits after the point. -/
  fraction : Option (List Nat)
  /-- Whether the exponent is negative, and its digits. -/
  exponent : Option (Bool × List Nat)
deriving DecidableEq, Repr

namespace Numeral

/-- The greatest unsigned 64-bit integer. -/
def greatestWord : Nat := Word.size - 1

/-- The greatest exponent that is taken at its value. -/
def greatestExponent : Nat := 0x7fffffff

/-- Appends digits as long as the number stays within a limit. -/
def gather (limit : Nat) : Nat → List Nat → Nat × List Nat
  | value, [] => (value, [])
  | value, digit :: rest =>
      if limit < value * 10 + digit then (value, digit :: rest)
      else gather limit (value * 10 + digit) rest

/-- Divides by a large power of ten until the exponent is within the table. -/
def shrink : Nat → Binary64 → Binary64
  | 0, value => value
  | count + 1, value =>
      if value.isZero then value
      else shrink count (value.div (Binary64.tenPow 308))

/-- The number `significand · 10 ^ exponent`, if it is not too large. -/
def scale? (significand : Nat) (exponent : Int) : Option Binary64 :=
  let value := Binary64.ofNat significand
  if 308 < exponent then
    if value.isZero then some value else none
  else if 0 ≤ exponent then
    let product := value.mul (Binary64.tenPow exponent.toNat)
    if product.isFinite then some product else none
  else
    let steps := ((-exponent).toNat - 1) / 308
    let left := (-exponent).toNat - 308 * steps
    let value := shrink steps value
    some (if value.isZero then value else value.div (Binary64.tenPow left))

/-- The magnitude of a numeral that has a fraction, an exponent or many digits. -/
def magnitude? (numeral : Numeral) : Option Binary64 :=
  let (leading, dropped) := gather greatestWord 0 numeral.whole
  let fraction := numeral.fraction.getD []
  let (significand, ignored) := gather greatestWord leading fraction
  let point : Int := (dropped.length : Int) - (fraction.length - ignored.length)
  match numeral.exponent with
  | none => scale? significand point
  | some (down, digits) =>
      match gather greatestExponent 0 digits with
      | (value, []) => scale? significand (if down then point - value else point + value)
      | (_, _ :: _) =>
          if down ∨ significand = 0 then some (Binary64.zero false) else none

/-- The value of a numeral, unless it is too large for a binary number. -/
def value? (numeral : Numeral) : Option Json :=
  let float : Option Json :=
    numeral.magnitude?.map fun magnitude =>
      .float (if numeral.negative then magnitude.negate else magnitude)
  match numeral.fraction, numeral.exponent, gather greatestWord 0 numeral.whole with
  | none, none, (value, []) =>
      if numeral.negative then
        if value = 0 ∨ Word.half < value then float else some (.int (-value))
      else some (.int value)
  | _, _, _ => float

end Numeral

end KeyLayers.Json
