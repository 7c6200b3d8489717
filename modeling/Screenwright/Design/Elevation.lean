/-
Shadows: five levels of elevation.

How strong shadows are changes their opacity and nothing else.
-/
import Screenwright.Design.Color
import Screenwright.Entries

namespace Screenwright

/-- How strong shadows are. -/
inductive ShadowIntensity where
  | subtle
  | normal
  | strong
deriving DecidableEq, Repr

namespace ShadowIntensity

/-- The strengths with their names in data. -/
def names : List (String × ShadowIntensity) :=
  [("subtle", subtle), ("normal", normal), ("strong", strong)]

/-- The name of a strength in data. -/
def name : ShadowIntensity → String
  | subtle => "subtle"
  | normal => "normal"
  | strong => "strong"

/-- What the opacity is multiplied with. -/
def multiplier : ShadowIntensity → Float
  | subtle => 0.5
  | normal => 1.0
  | strong => 1.5

end ShadowIntensity

/-- A shadow. -/
structure Shadow where
  x : Float
  y : Float
  blur : Float
  spread : Float
  color : Color Float

/-- The shadows by level. -/
structure Elevation where
  intensity : ShadowIntensity
  levels : Entries Shadow

namespace Elevation

/-- The levels: vertical offset, blur, spread and opacity. -/
def table : List (String × Float × Float × Float × Float) :=
  [("xs", 1.0, 2.0, 0.0, 0.05), ("sm", 2.0, 4.0, 0.0, 0.08), ("md", 4.0, 8.0, -1.0, 0.12),
    ("lg", 8.0, 16.0, -2.0, 0.16), ("xl", 16.0, 24.0, -4.0, 0.20)]

/-- The shadows of a strength. -/
def generate (intensity : ShadowIntensity) : Elevation where
  intensity := intensity
  levels := table.map fun (level, y, blur, spread, opacity) =>
    let alpha := opacity * intensity.multiplier
    (level, ⟨0.0, y, blur, spread, ⟨0.0, 0.0, 0.0, if alpha < 1.0 then alpha else 1.0⟩⟩)

end Elevation

end Screenwright
