/-!
# Dyadic Numbers

Taking a 64-bit float apart.

A float is a sign bit, an exponent of eleven bits and a fraction of fifty-two.
The largest exponent marks infinities and values that are no numbers, the
smallest one marks numbers without a leading one bit. Every other float is a
natural number, its significand, times a power of two.

The gaps between neighbours are equal except at powers of two, below which they
are half as wide as above. A dyadic number remembers whether it stands at such
a place, because that decides which reals are nearest to it.

## Main definitions

* `Dyadic`: A natural number times a power of two.
* `FloatParts`: A float as a sign and a size.
* `FloatParts.ofBits`: The parts that a bit pattern stands for.
-/

namespace LineCalc

/-- The number `significand * 2 ^ exponent`. -/
structure Dyadic where
  significand : Nat
  exponent : Int
  /-- The gap to the float below is half the gap to the float above. -/
  narrowBelow : Bool
deriving DecidableEq

/-- A float as a sign and a size. -/
inductive FloatParts where
  | nan
  | infinite (negative : Bool)
  | finite (negative : Bool) (size : Dyadic)
deriving DecidableEq

namespace FloatParts

/-- The number of bits in a fraction. -/
def fractionBits : Nat := 52

/-- The exponent field of values that are not finite. -/
def topExponent : Nat := 2047

/-- The power of two that the last bit of a fraction stands for, when the
    exponent field is `1`. -/
def leastExponent : Int := -1074

/-- The parts that a bit pattern stands for. -/
def ofBits (bits : UInt64) : FloatParts :=
  let pattern := bits.toNat
  let hiddenBit := Nat.pow 2 fractionBits
  let fraction := pattern % hiddenBit
  let field := pattern / hiddenBit % Nat.pow 2 11
  let negative := pattern / Nat.pow 2 63 = 1
  if field = topExponent then
    if fraction = 0 then infinite negative else nan
  else if field = 0 then
    finite negative ⟨fraction, leastExponent, false⟩
  else
    finite negative {
      significand := hiddenBit + fraction
      exponent := leastExponent + (field - 1)
      narrowBelow := fraction = 0 ∧ field ≠ 1 }

end FloatParts

end LineCalc
