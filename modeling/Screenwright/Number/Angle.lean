/-
The angle of a direction in the plane.

The angle is found bit by bit as a fraction of half a turn.  Its first bit says whether the
direction points to the left, and doubling the angle brings the next bit to the front.  All of it is
computed in whole numbers with far more digits than a float has, and rounded once.
-/
import Screenwright.Number.Binary

namespace Screenwright.Number

/-- How many bits of an angle are found behind the point. -/
def angleBits : Nat := 160

/-- How many bits of a direction are kept while its angle is doubled. -/
def directionBits : Nat := 320

/-- Half a turn in units of `2^-angleBits`, rounded down. -/
def halfTurnUnits : Nat := 4591442807048218921384805199743311128454155024418

/-- A direction without its last bits, as many as leave `directionBits` of them. -/
def shortened (x : Int) (y : Nat) : Int × Nat :=
  let drop := pow2 (max x.natAbs.log2 y.log2 - directionBits)
  (x / drop, y / drop)

/-- The direction of twice the angle, less half a turn if the direction points to the left.  Like
the direction it is not below the horizontal. -/
def doubled (x : Int) (y : Nat) : Int × Nat :=
  let square : Int := x * x - y * y
  shortened (if 0 < x then square else -square) (2 * x.natAbs * y)

/-- The number `acc` followed by the first bits of an angle between zero and half a turn. -/
def anglePlaces (acc : Nat) : Nat → Int × Nat → Nat
  | 0, _ => acc
  | places + 1, (x, y) =>
    anglePlaces (if 0 < x then 2 * acc else 2 * acc + 1) places (doubled x y)

/-- The angle of a direction that is not below the horizontal. -/
def angleSize (x : Int) (y : Nat) : Float :=
  let n := anglePlaces 0 angleBits (x, y)
  Float.ofNat ((2 * n + 1) * halfTurnUnits) / Float.ofNat (pow2 (2 * angleBits + 1))

/-- The angle of the direction with the two parts, between half a turn below and half a turn above
zero.  To the right of a zero and for a slope that is next to nothing it is the slope. -/
def angle (y x : Float) : Float :=
  let p := parts y
  let q := parts x
  let low := min p.exponent q.exponent
  let rise := p.significand * pow2 (p.exponent - low).toNat
  let run := q.significand * pow2 (q.exponent - low).toNat
  if !y.isFinite || !x.isFinite then Float.atan2 y x
  else if !q.negative && rise * pow2 64 ≤ run then if run = 0 then y else y / x
  else
    let size := angleSize (if q.negative then -run else run) rise
    if p.negative then -size else size

end Screenwright.Number
