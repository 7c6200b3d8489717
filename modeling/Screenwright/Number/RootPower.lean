/-
Powers of a float with a fractional exponent.

The bits of the exponent behind the point ask for the square root of the base, for the square
root of that root, and so on.  All of it is computed in the natural numbers, in units of
`2^-powerBits`, so that what is left off on the way is far below the last bit of a float.
-/
import Screenwright.Number.Binary

namespace Screenwright.Number

/-- How many bits of a power are found behind the point. -/
def powerBits : Nat := 128

/-- The product of two numbers in units of `2^-powerBits`, rounded down. -/
def scaledProduct (a b : Nat) : Nat := a * b / pow2 powerBits

/-- The square root of a number in units of `2^-powerBits`, rounded down. -/
def scaledRoot (a : Nat) : Nat := (a * pow2 powerBits).sqrt

/-- A whole power of a number in units of `2^-powerBits`. -/
def wholePower (base : Nat) : Nat → Nat
  | 0 => pow2 powerBits
  | n + 1 => scaledProduct (wholePower base n) base

/-- The number `acc` times the repeated roots of `root` that the lowest bits of the exponent ask
for, the first root for the highest of these `places` bits. -/
def rootPower (exponent : Nat) : Nat → Nat → Nat → Nat
  | 0, _, acc => acc
  | places + 1, root, acc =>
    rootPower exponent places (scaledRoot root)
      (if exponent / pow2 places % 2 = 1 then scaledProduct acc (scaledRoot root) else acc)

/-- The number of units of `2^-powerBits` in the size of a finite float, rounded down. -/
def unitsOf (x : Float) : Nat :=
  let p := parts x
  let shift := p.exponent + powerBits
  p.significand * pow2 shift.toNat / pow2 (-shift).toNat

/-- The size of a finite float to the power of a finite float above zero; what is not finite stays
as it is. -/
def raise (x y : Float) : Float :=
  let q := parts y
  let places := (-q.exponent).toNat
  let exponent := q.significand * pow2 q.exponent.toNat
  let base := unitsOf x
  let n := rootPower exponent places base (wholePower base (exponent / pow2 places))
  if x.isFinite then Float.ofNat (2 * n + 1) / Float.ofNat (pow2 (powerBits + 1)) else x

end Screenwright.Number
