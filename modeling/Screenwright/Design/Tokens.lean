/-
The design tokens of an app, and what their slots stand for.
-/
import Screenwright.Design.Elevation
import Screenwright.Design.Motion
import Screenwright.Design.Palette
import Screenwright.Design.Slot
import Screenwright.Design.Spacing
import Screenwright.Design.TypeScale
import Screenwright.Json.Basic
import Screenwright.Text.Quoted

namespace Screenwright

/-- What a set of design tokens is derived from. -/
structure TokenInputs where
  primary : Color Float
  accent : Option (Color Float)
  dark : Bool
  baseUnit : Float
  baseFontSize : Float
  shadowIntensity : ShadowIntensity

/-- The inputs that a primary color alone gives. -/
def TokenInputs.ofPrimary (primary : Color Float) : TokenInputs :=
  ⟨primary, none, false, 4.0, 16.0, .normal⟩

/-- A concrete design token. -/
inductive Token where
  | color (color : Color Float)
  /-- A length in points. -/
  | dimension (points : Float)
  /-- A factor. -/
  | number (x : Float)
  | font (style : TextStyle Float)
  | shadow (shadow : Shadow)
  | motion (animation : Animation)

/-- A slot that names no token of its kind. -/
structure UnknownSlot where
  kind : TokenKind
  slot : String

/-- The message of an unknown slot. -/
def UnknownSlot.message (e : UnknownSlot) : String :=
  "Unknown " ++ e.kind.title ++ " token `" ++ e.slot ++ "`"

/-- The design tokens of an app. -/
structure DesignTokens where
  name : String
  version : String
  colors : Palette Float
  typography : Typography Float
  spacing : Spacing
  shadows : Elevation
  motion : Motion

namespace DesignTokens

/-- The tokens derived from some inputs. -/
def generate (name version : String) (inputs : TokenInputs) : DesignTokens where
  name := name
  version := version
  colors := .generate inputs.primary inputs.accent inputs.dark
  typography := .generate inputs.baseFontSize Typography.defaultRatio
  spacing := .generate inputs.baseUnit
  shadows := .generate inputs.shadowIntensity
  motion := .standard

/-- The token of a slot, if there is one. -/
def find? (tokens : DesignTokens) (kind : TokenKind) (slot : String) : Option Token :=
  match kind with
  | .color => (tokens.colors.get? slot).map .color
  | .spacing => (tokens.spacing.scale.lookup slot).map .dimension
  | .radius => (tokens.spacing.radii.lookup slot).map .dimension
  | .borderWidth => (tokens.spacing.borderWidths.lookup slot).map .dimension
  | .font => (tokens.typography.font? slot).map .font
  | .lineHeight => (tokens.typography.lineHeights.lookup slot).map .number
  | .letterSpacing => (tokens.typography.tracking? slot).map .dimension
  | .shadow => (tokens.shadows.levels.lookup slot).map .shadow
  | .motion => (tokens.motion.get? slot).map .motion

/-- The token of a slot. -/
def resolve (tokens : DesignTokens) (kind : TokenKind) (slot : String) :
    Except UnknownSlot Token :=
  match tokens.find? kind slot with
  | some token => .ok token
  | none => .error ⟨kind, slot⟩

end DesignTokens

/-! ### Tokens in messages -/

namespace Token

/-- The fields of a nested value. -/
def record (name : String) (fields : List (String × String)) : String :=
  name ++ " \x7b " ++ Text.join ", " (fields.map fun (n, v) => n ++ ": " ++ v) ++ " \x7d"

/-- A color as a nested value. -/
def describeColor (c : Color Float) : String :=
  record "Oklch" [("l", Number.debug c.l), ("c", Number.debug c.c), ("h", Number.debug c.h),
    ("alpha", Number.debug c.alpha)]

/-- A text style as a nested value. -/
def describeStyle (s : TextStyle Float) : String :=
  record "TextStyle" [("step", Text.quoted s.step), ("size", Number.debug s.size),
    ("weight", s.weight.title), ("family", s.family.title),
    ("line_height", Number.debug s.lineHeight),
    ("letter_spacing", Number.debug s.letterSpacing)]

/-- A shadow as a nested value. -/
def describeShadow (s : Shadow) : String :=
  record "ShadowToken" [("x", Number.debug s.x), ("y", Number.debug s.y),
    ("blur", Number.debug s.blur), ("spread", Number.debug s.spread),
    ("color", describeColor s.color)]

/-- An animation as a nested value. -/
def describeAnimation : Animation → String
  | .spring s => "Spring(" ++ record "Spring" [("response", Number.debug s.response),
      ("damping_fraction", Number.debug s.dampingFraction)] ++ ")"
  | .timing c duration =>
    record "Timing" [("curve", record "CubicBezier" [("x1", Number.debug c.x1),
        ("y1", Number.debug c.y1), ("x2", Number.debug c.x2), ("y2", Number.debug c.y2)]),
      ("duration", Number.debug duration)]

/-- A token as messages show it. -/
def describe : Token → String
  | color c => "Color(" ++ describeColor c ++ ")"
  | dimension x => "Dimension(" ++ Number.debug x ++ ")"
  | number x => "Number(" ++ Number.debug x ++ ")"
  | font s => "Font(" ++ describeStyle s ++ ")"
  | shadow s => "Shadow(" ++ describeShadow s ++ ")"
  | motion a => "Motion(" ++ describeAnimation a ++ ")"

end Token

/-! ### Tokens as data -/

/-- A table as data, in its own order. -/
def Json.ofEntries {α : Type} (toJson : α → Json) (table : Entries α) : Json :=
  .object (table.map fun (name, value) => (name, toJson value))

/-- A curve as data. -/
def Bezier.toJson (c : Bezier) : Json :=
  .object [("x1", .float c.x1), ("y1", .float c.y1), ("x2", .float c.x2), ("y2", .float c.y2)]

/-- A spring as data. -/
def Spring.toJson (s : Spring) : Json :=
  .object [("response", .float s.response), ("dampingFraction", .float s.dampingFraction)]

/-- An animation as data. -/
def Animation.toJson : Animation → Json
  | .timing curve duration =>
    .object [("type", .string "timing"), ("curve", curve.toJson), ("duration", .float duration)]
  | .spring s =>
    .object [("type", .string "spring"), ("response", .float s.response),
      ("dampingFraction", .float s.dampingFraction)]

/-- A text style as data. -/
def TextStyle.toJson (s : TextStyle Float) : Json :=
  .object [("step", .string s.step), ("size", .float s.size), ("weight", .string s.weight.name),
    ("family", .string s.family.name), ("lineHeight", .float s.lineHeight),
    ("letterSpacing", .float s.letterSpacing)]

/-- A shadow as data. -/
def Shadow.toJson (s : Shadow) : Json :=
  .object [("x", .float s.x), ("y", .float s.y), ("blur", .float s.blur),
    ("spread", .float s.spread), ("color", .string s.color.text)]

/-- A shortfall as data. -/
def ContrastShortfall.toJson (s : ContrastShortfall Float) : Json :=
  .object [("slot", .string s.slot), ("against", .string s.against),
    ("achieved", .float s.achieved), ("required", .float s.required)]

/-- The tokens as data, every record in the order of its fields. -/
def DesignTokens.toJson (t : DesignTokens) : Json :=
  .object
    [("name", .string t.name), ("version", .string t.version),
      ("colors", .object
        [("slots", .ofEntries (fun c => .string c.text) t.colors.slots),
          ("shortfalls", .array (t.colors.shortfalls.map ContrastShortfall.toJson))]),
      ("typography", .object
        [("baseSize", .float t.typography.baseSize), ("ratio", .float t.typography.ratio),
          ("scale", .ofEntries .float t.typography.scale),
          ("families", .ofEntries (fun f => .string f.name) t.typography.families),
          ("lineHeights", .ofEntries .float t.typography.lineHeights),
          ("letterSpacing", .ofEntries .float t.typography.letterSpacings),
          ("styles", .ofEntries TextStyle.toJson t.typography.styles)]),
      ("spacing", .object
        [("baseUnit", .float t.spacing.baseUnit), ("scale", .ofEntries .float t.spacing.scale),
          ("radii", .ofEntries .float t.spacing.radii),
          ("borderWidths", .ofEntries .float t.spacing.borderWidths)]),
      ("shadows", .object
        [("intensity", .string t.shadows.intensity.name),
          ("levels", .ofEntries Shadow.toJson t.shadows.levels)]),
      ("motion", .object
        [("durations", .ofEntries .float t.motion.durations),
          ("easings", .ofEntries Bezier.toJson t.motion.easings),
          ("springs", .ofEntries Spring.toJson t.motion.springs)])]

end Screenwright
