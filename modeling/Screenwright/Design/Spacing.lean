/-
Distances: spacing, corner radii and border widths.

Spacing and radii are multiples of a base unit; border widths are absolute.
-/
import Screenwright.Entries

namespace Screenwright

/-- The distances by slot. -/
structure Spacing where
  baseUnit : Float
  scale : Entries Float
  radii : Entries Float
  borderWidths : Entries Float

namespace Spacing

/-- A radius that rounds any corner off completely. -/
def fullRadius : Float := 9999.0

/-- The spacing slots in multiples of the base unit. -/
def factors : List (String × Float) :=
  [("none", 0.0), ("xs", 1.0), ("sm", 2.0), ("md", 4.0), ("lg", 6.0), ("xl", 8.0),
    ("xxl", 12.0)]

/-- The radii in multiples of the base unit. -/
def radiusFactors : List (String × Float) :=
  [("none", 0.0), ("sm", 1.0), ("md", 2.0), ("lg", 3.0), ("xl", 4.0)]

/-- The distances of a base unit. -/
def generate (baseUnit : Float) : Spacing where
  baseUnit := baseUnit
  scale := factors.map fun (slot, factor) => (slot, baseUnit * factor)
  radii := radiusFactors.map (fun (slot, factor) => (slot, baseUnit * factor)) ++
    [("full", fullRadius)]
  borderWidths := [("hairline", 0.5), ("thin", 1.0), ("medium", 2.0), ("thick", 4.0)]

end Spacing

end Screenwright
