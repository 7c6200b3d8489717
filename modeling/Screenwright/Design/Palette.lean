/-
The color palette, derived from a primary color.

Text colors are repaired until their lightness is far enough from what they stand on.
Everything here is read over any `Measure`, floats in the program.
-/
import Screenwright.Design.Color
import Screenwright.Entries

namespace Screenwright

/-- The interaction states of a color. -/
inductive ColorState where
  | base
  | hover
  | pressed
  | disabled
deriving DecidableEq, Repr

namespace ColorState

/-- The state a suffix stands for. -/
def ofSuffix? : String → Option ColorState
  | "hover" => some hover
  | "pressed" => some pressed
  | "disabled" => some disabled
  | _ => none

end ColorState

section

variable {α : Type} [Measure α]

namespace Color

/-- The lightness moved by `amount` away from the side of the middle given by `light`. -/
def shifted (light : Bool) (l amount : α) : α :=
  if light then l - amount else l + amount

/-- The color in an interaction state.  Light colors darken and dark ones lighten. -/
def inState (base : Color α) : ColorState → Color α
  | .base => base
  | .hover => base.withLightness (shifted base.isLight base.l 0.05)
  | .pressed => base.withLightness (shifted base.isLight base.l 0.10)
  | .disabled => { base.withChroma (base.c - 0.1) with alpha := 0.5 }

end Color

/-! ### Contrast -/

/-- What repairing a contrast came to. -/
structure ContrastResult (α : Type) where
  color : Color α
  /-- The difference in lightness to the background. -/
  delta : α
  /-- Whether the difference is as large as asked for. -/
  met : Bool

/-- The contrast that readable text needs. -/
def readableContrast : α := 0.4

/-- The difference in lightness of two colors. -/
def contrast (fg bg : Color α) : α :=
  Measure.distance fg.l bg.l

/-- Moves `current` away from the background, for at most `steps` steps and until the
best color so far is good enough. -/
def repairSteps (bg : Color α) (minDelta : α) : Nat → Color α → Color α → Color α
  | 0, _, best => best
  | steps + 1, current, best =>
    let next := current.withLightness (Color.shifted bg.isLight current.l 0.05)
    let best := if contrast best bg < contrast next bg then next else best
    if minDelta ≤ contrast best bg then best else repairSteps bg minDelta steps next best

/-- The color nearest to `fg` on its way away from `bg` whose contrast is at least
`minDelta`, or the best one within ten steps. -/
def ensureContrast (fg bg : Color α) (minDelta : α) : ContrastResult α :=
  if minDelta ≤ contrast fg bg then ⟨fg, contrast fg bg, true⟩
  else
    let best := repairSteps bg minDelta 10 fg fg
    ⟨best, contrast best bg, decide (minDelta ≤ contrast best bg)⟩

/-- A text color whose contrast could not be repaired. -/
structure ContrastShortfall (α : Type) where
  slot : String
  against : String
  achieved : α
  required : α

/-- What a repair reports. -/
def ContrastResult.shortfall (r : ContrastResult α) (slot against : String) :
    List (ContrastShortfall α) :=
  if r.met then [] else [⟨slot, against, r.delta, readableContrast⟩]

/-! ### Palette -/

/-- The colors by slot, in a fixed order. -/
structure Palette (α : Type) where
  slots : Entries (Color α)
  shortfalls : List (ContrastShortfall α)

namespace Palette

/-- A color by its slot, with an interaction suffix if need be. -/
def get? (palette : Palette α) (slot : String) : Option (Color α) :=
  match palette.slots.lookup slot with
  | some color => some color
  | none => do
    let (base, suffix) ← Text.splitLast '.' slot
    let state ← ColorState.ofSuffix? suffix
    let color ← palette.slots.lookup base
    return color.inState state

/-- The lightness and chroma of the slots tinted with the primary hue, on light ground. -/
def lightNeutrals : List (String × α × α) :=
  [("background", 0.99, 0.005), ("surface", 0.97, 0.01), ("surfaceVariant", 0.94, 0.015),
    ("border", 0.88, 0.02), ("textPrimary", 0.20, 0.02), ("textSecondary", 0.45, 0.02),
    ("textDisabled", 0.65, 0.01)]

/-- The lightness and chroma of the slots tinted with the primary hue, on dark ground. -/
def darkNeutrals : List (String × α × α) :=
  [("background", 0.15, 0.01), ("surface", 0.20, 0.015), ("surfaceVariant", 0.25, 0.02),
    ("border", 0.35, 0.02), ("textPrimary", 0.95, 0.01), ("textSecondary", 0.72, 0.015),
    ("textDisabled", 0.50, 0.01)]

/-- The colors of messages, the same in every palette. -/
def messageColors : Entries (Color α) :=
  [("success", .solid 0.65 0.17 145.0), ("warning", .solid 0.78 0.16 75.0),
    ("error", .solid 0.60 0.20 25.0), ("info", .solid 0.62 0.15 240.0)]

/-- Text on the primary color before its repair. -/
def onPrimaryStart (primary : Color α) : Color α :=
  if primary.isLight then .solid 0.15 0.02 primary.h else .solid 0.98 0.01 primary.h

/-- The accent of a palette that is given none. -/
def defaultAccent (primary : Color α) : Color α :=
  (primary.rotateHue 150.0).withChroma (primary.c + 0.02)

/-- The neutral color of a slot. -/
def neutral (dark : Bool) (hue : α) (slot : String) : Color α :=
  match (if dark then darkNeutrals else lightNeutrals).lookup slot with
  | some (l, c) => .solid l c hue
  | none => .solid 0.0 0.0 hue

/-- The neutral colors with the readable text repaired against the background. -/
def neutralSlots (dark : Bool) (hue : α) : Entries (Color α) × List (ContrastShortfall α) :=
  let background := neutral dark hue "background"
  let repaired (slot : String) : ContrastResult α :=
    ensureContrast (neutral dark hue slot) background readableContrast
  let names := (if dark then darkNeutrals (α := α) else lightNeutrals).map Prod.fst
  let isRepaired (slot : String) : Bool := slot == "textPrimary" || slot == "textSecondary"
  (names.map fun slot =>
      (slot, if isRepaired slot then (repaired slot).color else neutral dark hue slot),
    ["textPrimary", "textSecondary"].flatMap fun slot =>
      (repaired slot).shortfall slot "background")

/-- The palette of a primary color. -/
def generate (primary : Color α) (accent : Option (Color α)) (dark : Bool) : Palette α :=
  let onPrimary := ensureContrast (onPrimaryStart primary) primary readableContrast
  let (neutrals, textShortfalls) := neutralSlots dark primary.h
  { slots :=
      [("primary", primary), ("onPrimary", onPrimary.color),
        ("secondary", primary.withChroma (primary.c - 0.08)),
        ("accent", accent.getD (defaultAccent primary))] ++ neutrals ++ messageColors
    shortfalls := onPrimary.shortfall "onPrimary" "primary" ++ textShortfalls }

end Palette

end

/-- The message of a shortfall. -/
def ContrastShortfall.message (s : ContrastShortfall Float) : String :=
  "color `" ++ s.slot ++ "` reaches a lightness contrast of " ++ Number.fixed 2 s.achieved ++
    " against `" ++ s.against ++ "` (needs " ++ Number.fixed 2 s.required ++ ")"

end Screenwright
