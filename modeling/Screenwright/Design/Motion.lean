/-
Motion: durations, easing curves and springs.
-/
import Screenwright.Entries
import Screenwright.Text.Split

namespace Screenwright

/-- A timing curve by its two control points. -/
structure Bezier where
  x1 : Float
  y1 : Float
  x2 : Float
  y2 : Float

/-- A spring by its response time and its damping. -/
structure Spring where
  response : Float
  dampingFraction : Float

/-- An animation. -/
inductive Animation where
  | timing (curve : Bezier) (duration : Float)
  | spring (spring : Spring)

/-- The animations by slot. -/
structure Motion where
  durations : Entries Float
  easings : Entries Bezier
  springs : Entries Spring

namespace Motion

/-- An easing together with a duration. -/
def timing? (motion : Motion) (easing duration : String) : Option Animation := do
  let curve ← motion.easings.lookup easing
  let seconds ← motion.durations.lookup duration
  return .timing curve seconds

/-- An animation by its slot: a spring, an easing with a duration, a duration with the
standard easing, or an easing with the normal duration. -/
def get? (motion : Motion) (slot : String) : Option Animation :=
  match Text.splitFirst '.' slot with
  | some (first, second) =>
    if first = "spring" then (motion.springs.lookup second).map .spring
    else motion.timing? first second
  | none =>
    if motion.durations.has slot then motion.timing? "standard" slot
    else motion.timing? slot "normal"

/-- The animations of every app. -/
def standard : Motion where
  durations :=
    [("instant", 0.0), ("fast", 0.15), ("normal", 0.25), ("slow", 0.4), ("slower", 0.6)]
  easings :=
    [("standard", ⟨0.2, 0.0, 0.0, 1.0⟩), ("decelerate", ⟨0.0, 0.0, 0.0, 1.0⟩),
      ("accelerate", ⟨0.3, 0.0, 1.0, 1.0⟩), ("linear", ⟨0.0, 0.0, 1.0, 1.0⟩)]
  springs := [("snappy", ⟨0.3, 0.85⟩), ("smooth", ⟨0.5, 1.0⟩), ("bouncy", ⟨0.5, 0.6⟩)]

end Motion

end Screenwright
