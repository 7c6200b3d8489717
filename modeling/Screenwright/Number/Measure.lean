/-
The arithmetic of design measures.

The formulas for colors and type sizes use only what this class offers.  The program
runs them over floats; the theory can read the same formulas over exact rationals.
-/
import Screenwright.Number.Binary

namespace Screenwright

/-- What the token formulas need of a number. -/
class Measure (α : Type) extends Add α, Sub α, Mul α, Div α, LE α, LT α, OfScientific α where
  decideLE : ∀ a b : α, Decidable (a ≤ b)
  decideLT : ∀ a b : α, Decidable (a < b)
  /-- The nearest whole number, halves away from zero. -/
  round : α → α
  /-- What is left after taking away the second as often as fits, with the sign of the first. -/
  remainder : α → α → α

namespace Measure

variable {α : Type} [Measure α]

instance (a b : α) : Decidable (a ≤ b) := Measure.decideLE a b

instance (a b : α) : Decidable (a < b) := Measure.decideLT a b

/-- How far apart two values are. -/
def distance (a b : α) : α :=
  if a ≤ b then b - a else a - b

/-- The value moved into the unit interval; what is not a number stays so. -/
def clampUnit (x : α) : α :=
  if x < 0.0 then 0.0 else if 1.0 < x then 1.0 else x

/-- The value, or zero if it is not above zero or not a number. -/
def atLeastZero (x : α) : α :=
  if 0.0 < x then x else 0.0

/-- Two decimal places. -/
def roundHundredths (x : α) : α :=
  Measure.round (x * 100.0) / 100.0

/-- Repeated squaring from the lowest bit up: `acc * base^n`. -/
def powerFrom (acc base : α) (n : Nat) : α :=
  if h : n = 0 then acc
  else
    let acc := if n % 2 = 1 then acc * base else acc
    if n / 2 = 0 then acc else powerFrom acc (base * base) (n / 2)
termination_by n
decreasing_by omega

/-- A whole power; a negative one is the inverse of the repeated product. -/
def power (base : α) : Int → α
  | .ofNat n => powerFrom 1.0 base n
  | .negSucc n => 1.0 / powerFrom 1.0 base (n + 1)

end Measure

instance : Measure Float where
  decideLE := inferInstance
  decideLT := inferInstance
  round := Number.round
  remainder := Number.remainder

/-- The whole number nearest to a rational, halves away from zero. -/
def roundRat (x : Rat) : Rat :=
  if 0 ≤ x then ((x + 1 / 2).floor : Rat) else -((-x + 1 / 2).floor : Rat)

/-- The remainder of a rational division that rounds toward zero. -/
def remainderRat (x y : Rat) : Rat :=
  let q := x / y
  x - y * (if 0 ≤ q then (q.floor : Rat) else -((-q).floor : Rat))

instance : Measure Rat where
  decideLE := inferInstance
  decideLT := inferInstance
  round := roundRat
  remainder := remainderRat

end Screenwright
