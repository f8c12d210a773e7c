/-!
# Numbers of 64 bits

Integers of a document are held in signed words of 64 bits, and some counts in
unsigned ones.

A `Binary64` is a number of the IEEE 754 format with 53 bits of precision,
held as an exact mantissa and exponent.  `Binary64.ofRatio` rounds any
nonnegative fraction to the nearest such number, a tie to the even mantissa,
and every operation here is an exact fraction rounded once.
-/

namespace KeyLayers

namespace Word

/-- The number of negative values of a signed word, which is that of the others too. -/
def half : Nat := 0x8000000000000000

/-- The number of values of a word. -/
def size : Nat := 2 * half

/-- Whether an integer fits into a signed word. -/
def isSigned (value : Int) : Bool :=
  -half ≤ value && value < half

/-- Whether an integer fits into an unsigned word. -/
def isUnsigned (value : Int) : Bool :=
  0 ≤ value && value < size

end Word

/-- A number of the binary format with 53 bits of precision. -/
inductive Binary64 where
  /--
  The number `± mantissa · 2 ^ exponent`.

  The mantissa is below `2 ^ 53`; it is at least `2 ^ 52` unless the exponent
  is the least one.
  -/
  | finite (negative : Bool) (mantissa : Nat) (exponent : Int)
  | infinite (negative : Bool)
  | nan
deriving DecidableEq, Repr

namespace Binary64

/-- The exponent of the numbers next to zero. -/
def leastExponent : Int := -1074

/-- The exponent of the largest finite numbers. -/
def greatestExponent : Int := 971

/-- The integer nearest to a fraction, a tie going to the even one. -/
def roundEven (num den : Nat) : Nat :=
  let quotient := num / den
  let twice := 2 * (num % den)
  if twice < den then quotient
  else if den < twice then quotient + 1
  else if quotient % 2 = 0 then quotient
  else quotient + 1

/-- A power of two; one if the exponent is negative. -/
def twoTo (exponent : Int) : Nat :=
  Nat.pow 2 exponent.toNat

/-- A power of ten; one if the exponent is negative. -/
def tenTo (exponent : Int) : Nat :=
  Nat.pow 10 exponent.toNat

/-- The least mantissa of the numbers that are not next to zero. -/
def leastMantissa : Nat := twoTo 52

/-- The numerator and denominator of `num / den / 2 ^ exponent`. -/
def unscale (num den : Nat) (exponent : Int) : Nat × Nat :=
  (num * twoTo (-exponent), den * twoTo exponent)

/-- The exponent at which a positive fraction has a 53-bit integer part. -/
def exponentOf (num den : Nat) : Int :=
  let guess : Int := (num.log2 : Int) - den.log2 - 52
  let (n, d) := unscale num den guess
  max leastExponent (if n / d < leastMantissa then guess - 1 else guess)

/-- The finite number with a mantissa of at most 53 bits, unless too large. -/
def normalize (negative : Bool) (mantissa : Nat) (exponent : Int) : Binary64 :=
  let (m, e) :=
    if mantissa = 2 * leastMantissa then (leastMantissa, exponent + 1) else (mantissa, exponent)
  if greatestExponent < e then .infinite negative else .finite negative m e

/-- Zero, with its sign. -/
def zero (negative : Bool) : Binary64 :=
  .finite negative 0 leastExponent

/-- The number nearest to `± num / den`. -/
def ofRatio (negative : Bool) (num den : Nat) : Binary64 :=
  if num = 0 then zero negative
  else
    let exponent := exponentOf num den
    let (n, d) := unscale num den exponent
    normalize negative (roundEven n d) exponent

/-- The number nearest to a natural number. -/
def ofNat (n : Nat) : Binary64 :=
  ofRatio false n 1

/-- The number nearest to a power of ten. -/
def tenPow (exponent : Nat) : Binary64 :=
  ofNat (tenTo exponent)

/-- Whether the number is a zero of either sign. -/
def isZero : Binary64 → Bool
  | .finite _ 0 _ => true
  | _ => false

/-- Whether the number is neither infinite nor undefined. -/
def isFinite : Binary64 → Bool
  | .finite _ _ _ => true
  | _ => false

/-- The number with the opposite sign. -/
def negate : Binary64 → Binary64
  | .finite negative mantissa exponent => .finite (!negative) mantissa exponent
  | .infinite negative => .infinite (!negative)
  | .nan => .nan

/-- The magnitude of a finite number as a fraction. -/
def ratio (mantissa : Nat) (exponent : Int) : Nat × Nat :=
  (mantissa * twoTo exponent, twoTo (-exponent))

/-- The rounded product of two finite numbers. -/
def mul : Binary64 → Binary64 → Binary64
  | .finite s m e, .finite t n f =>
      let (a, b) := ratio m e
      let (c, d) := ratio n f
      ofRatio (s != t) (a * c) (b * d)
  | _, _ => .nan

/-- The rounded quotient of two finite numbers, the second one not zero. -/
def div : Binary64 → Binary64 → Binary64
  | .finite s m e, .finite t n f =>
      let (a, b) := ratio m e
      let (c, d) := ratio n f
      ofRatio (s != t) (a * d) (b * c)
  | _, _ => .nan

/--
The number nearest to `± digits · 10 ^ exponent`.

An exponent far outside the range of the format is settled without raising ten
to it: the result is infinite or zero.
-/
def ofDecimal (negative : Bool) (digits : Nat) (exponent : Int) : Binary64 :=
  let magnitude : Int := (Nat.toDigits 10 digits).length + exponent
  if digits = 0 ∨ magnitude < -330 then zero negative
  else if 330 < magnitude then .infinite negative
  else ofRatio negative (digits * tenTo exponent) (tenTo (-exponent))

end Binary64

end KeyLayers
