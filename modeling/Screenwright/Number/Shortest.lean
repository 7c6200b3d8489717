/-
The fewest decimal digits that read back to a float.

The reals that round to a float form an interval, which holds its ends exactly when
the significand is even.  For one digit, two digits and so on, the two neighbours of
the value on that decimal grid are tested; the first grid with a hit gives the digits,
of two hits the nearer one.  If any point of a grid lies in the interval then so does
one of the two neighbours, so no shorter decimal is missed.  A value halfway between two
hits has two equally good texts; which of them is written is up to the form.
-/
import Screenwright.Number.Binary

namespace Screenwright.Number

/-- Which neighbour a value halfway between two of them goes to. -/
inductive Tie where
  /-- The one that ends in an even digit. -/
  | even
  /-- The larger one. -/
  | up
deriving DecidableEq, Repr

/-- The neighbour that a value halfway between `lower` and the next number goes to. -/
def Tie.settle (tie : Tie) (lower : Nat) : Nat :=
  match tie with
  | .even => if lower % 2 = 0 then lower else lower + 1
  | .up => lower + 1

/-- A tie that goes to the even neighbour ends up even. -/
theorem Tie.settle_even (lower : Nat) : Tie.even.settle lower % 2 = 0 := by
  simp only [Tie.settle]
  split <;> omega

/-- A positive value in units, with the ends of the interval that rounds to it. -/
structure Interval where
  low : Nat
  value : Nat
  high : Nat
  /-- The number of units in one. -/
  unit : Nat
  closed : Bool

/-- The interval of the reals that round to `significand * 2^exponent`. -/
def roundingInterval (significand : Nat) (exponent : Int) : Interval :=
  let below := if significand = pow2 52 && -1074 < exponent then 1 else 2
  let up := pow2 (exponent - 2).toNat
  { low := (4 * significand - below) * up
    value := 4 * significand * up
    high := (4 * significand + 2) * up
    unit := pow2 (2 - exponent).toNat
    closed := significand % 2 == 0 }

/-- The decimal digits of a number, leading digit first. -/
def digitsOf (n : Nat) : List Char :=
  Nat.toDigits 10 n

/-- The exponent of the leading decimal digit of `value / unit`. -/
def leadingExponent (value unit : Nat) : Int :=
  if unit ≤ value then ((digitsOf (value / unit)).length : Int) - 1
  else
    let t := (digitsOf (unit / value)).length
    if unit ≤ pow10 (t - 1) * value then -((t : Int) - 1) else -(t : Int)

/-- The multiple of `10^grid` that lies in the interval and is nearest to the value. -/
def Interval.onGrid (tie : Tie) (i : Interval) (grid : Int) : Option Nat :=
  let up := pow10 (-grid).toNat
  let step := i.unit * pow10 grid.toNat
  let low := i.low * up
  let high := i.high * up
  let lower := i.value * up / step
  let rest := i.value * up % step
  let upper := lower + 1
  let fitsLow := if i.closed then low ≤ lower * step else low < lower * step
  let fitsHigh := if i.closed then upper * step ≤ high else upper * step < high
  match decide fitsLow, decide fitsHigh with
  | true, true =>
    if 2 * rest < step then some lower
    else if step < 2 * rest then some upper
    else some (tie.settle lower)
  | true, false => some lower
  | false, true => some upper
  | false, false => none

/-- Digits `d₁d₂…` that stand for `d₁.d₂… * 10^exponent`, without zeros at the end. -/
structure Digits where
  digits : List Char
  exponent : Int
deriving DecidableEq, Repr

/-- The digits of `n * 10^grid`. -/
def Digits.ofGrid (n : Nat) (grid : Int) : Digits :=
  let all := digitsOf n
  let kept := (all.reverse.dropWhile (· == '0')).reverse
  ⟨kept, grid + all.length - 1⟩

/-- The fewest digits that read back to `significand * 2^exponent`; none for zero. -/
def shortestOf (tie : Tie) (significand : Nat) (exponent : Int) : Digits :=
  if significand = 0 then ⟨[], 0⟩
  else
    let i := roundingInterval significand exponent
    let lead := leadingExponent i.value i.unit
    let found := (List.range 17).findSome? fun (n : Nat) =>
      (i.onGrid tie (lead - n)).map fun d => Digits.ofGrid d (lead - n)
    found.getD ⟨[], 0⟩

/-- The fewest digits that read back to the size of a finite float. -/
def shortest (tie : Tie) (x : Float) : Digits :=
  let p := parts x
  shortestOf tie p.significand p.exponent

end Screenwright.Number
