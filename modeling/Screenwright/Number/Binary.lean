/-
The exact value of a float.

A finite float is a signed whole number times a power of two.  Rounding to a whole
number and taking remainders are exact operations on that form, so both are
computed in the natural numbers.
-/
import Screenwright.Number.Power

namespace Screenwright.Number

/-- The float `(-1)^negative * significand * 2^exponent`. -/
structure Parts where
  negative : Bool
  significand : Nat
  exponent : Int
deriving DecidableEq, Repr

/-- The parts of a finite float. -/
def parts (x : Float) : Parts :=
  let bits := x.toBits.toNat
  let negative := bits / pow2 63 == 1
  let biased : Nat := bits / pow2 52 % pow2 11
  let fraction := bits % pow2 52
  if biased = 0 then ⟨negative, fraction, -1074⟩
  else ⟨negative, fraction + pow2 52, (biased : Int) - 1075⟩

/-- The bits of a significand below `2^53` times a power of two, where that is a float. -/
def magnitudeBits (significand : Nat) (exponent : Int) : Nat :=
  if significand = 0 then 0
  else
    let shift := 52 - significand.log2
    let biased := exponent - shift + 1075
    let aligned := significand * pow2 shift
    if 1 ≤ biased then biased.toNat * pow2 52 + (aligned - pow2 52)
    else aligned / pow2 (1 - biased).toNat

/-- The float with the given parts, for parts that some float has exactly. -/
def ofParts (p : Parts) : Float :=
  let sign := if p.negative then pow2 63 else 0
  Float.ofBits (UInt64.ofNat (sign + magnitudeBits p.significand p.exponent))

/-- Whether the sign bit is set. -/
def isNegative (x : Float) : Bool :=
  (parts x).negative

/-- The value rounded to a whole number, halves away from zero. -/
def round (x : Float) : Float :=
  let p := parts x
  if !x.isFinite || 0 ≤ p.exponent then x
  else
    let scale := pow2 (-p.exponent).toNat
    ofParts ⟨p.negative, (2 * p.significand + scale) / (2 * scale), 0⟩

/-- What is left of `x` after taking away `y` as often as fits, with the sign of `x`. -/
def remainder (x y : Float) : Float :=
  if x.isNaN || y.isNaN || x.isInf || y == 0.0 then 0.0 / 0.0
  else if y.isInf then x
  else
    let p := parts x
    let q := parts y
    let low := min p.exponent q.exponent
    let left := p.significand * pow2 (p.exponent - low).toNat
    let step := q.significand * pow2 (q.exponent - low).toNat
    ofParts ⟨p.negative, left % step, low⟩

end Screenwright.Number
