/-
Typography: a scale of sizes and the text styles made from it.

The sizes are the base size times whole powers of a ratio, to two places.  They are
read over any `Measure`, floats in the program.
-/
import Screenwright.Entries
import Screenwright.Number.Measure

namespace Screenwright

/-- The weights of a font. -/
inductive FontWeight where
  | thin
  | extraLight
  | light
  | regular
  | medium
  | semiBold
  | bold
  | extraBold
  | black
deriving DecidableEq, Repr

namespace FontWeight

/-- Every weight, lightest first. -/
def all : List FontWeight :=
  [thin, extraLight, light, regular, medium, semiBold, bold, extraBold, black]

/-- The weight as a number. -/
def number : FontWeight → Nat
  | thin => 100
  | extraLight => 200
  | light => 300
  | regular => 400
  | medium => 500
  | semiBold => 600
  | bold => 700
  | extraBold => 800
  | black => 900

/-- The member of the Swift type of weights. -/
def swift : FontWeight → String
  | thin => ".thin"
  | extraLight => ".ultraLight"
  | light => ".light"
  | regular => ".regular"
  | medium => ".medium"
  | semiBold => ".semibold"
  | bold => ".bold"
  | extraBold => ".heavy"
  | black => ".black"

/-- The name of a weight in data. -/
def name : FontWeight → String
  | thin => "thin"
  | extraLight => "extraLight"
  | light => "light"
  | regular => "regular"
  | medium => "medium"
  | semiBold => "semiBold"
  | bold => "bold"
  | extraBold => "extraBold"
  | black => "black"

/-- The name of a weight in messages. -/
def title : FontWeight → String
  | thin => "Thin"
  | extraLight => "ExtraLight"
  | light => "Light"
  | regular => "Regular"
  | medium => "Medium"
  | semiBold => "SemiBold"
  | bold => "Bold"
  | extraBold => "ExtraBold"
  | black => "Black"

end FontWeight

/-- The designs of a font. -/
inductive FontFamily where
  | sans
  | serif
  | mono
  | rounded
deriving DecidableEq, Repr

namespace FontFamily

/-- Every design. -/
def all : List FontFamily := [sans, serif, mono, rounded]

/-- The member of the Swift type of designs. -/
def swift : FontFamily → String
  | sans => ".default"
  | serif => ".serif"
  | mono => ".monospaced"
  | rounded => ".rounded"

/-- The name of a design in data. -/
def name : FontFamily → String
  | sans => "sans"
  | serif => "serif"
  | mono => "mono"
  | rounded => "rounded"

/-- The name of a design in messages. -/
def title : FontFamily → String
  | sans => "Sans"
  | serif => "Serif"
  | mono => "Mono"
  | rounded => "Rounded"

end FontFamily

/-- A text style. -/
structure TextStyle (α : Type) where
  /-- The step of the scale that gives the size. -/
  step : String
  size : α
  weight : FontWeight
  family : FontFamily
  /-- The height of a line in multiples of the size. -/
  lineHeight : α
  /-- The space between letters in multiples of the size. -/
  letterSpacing : α

section

variable {α : Type} [Measure α]

namespace TextStyle

/-- The space between lines, in points. -/
def lineSpacing (style : TextStyle α) : α :=
  Measure.roundHundredths (style.size * (style.lineHeight - 1.0))

/-- The space between letters, in points. -/
def tracking (style : TextStyle α) : α :=
  Measure.roundHundredths (style.size * style.letterSpacing)

end TextStyle

/-- The sizes and styles of text. -/
structure Typography (α : Type) where
  baseSize : α
  ratio : α
  scale : Entries α
  families : Entries FontFamily
  lineHeights : Entries α
  letterSpacings : Entries α
  styles : Entries (TextStyle α)

namespace Typography

/-- The steps of the scale with the powers of the ratio they stand for. -/
def ladder : List (String × Int) :=
  [("xs", -2), ("sm", -1), ("base", 0), ("lg", 1), ("xl", 2), ("2xl", 3), ("3xl", 4), ("4xl", 5)]

/-- The ratio of a scale that is given none. -/
def defaultRatio : α := 1.25

/-- The size of a step. -/
def sizeOf (baseSize ratio : α) (power : Int) : α :=
  Measure.roundHundredths (baseSize * Measure.power ratio power)

/-- The height of a line that is neither tight nor relaxed. -/
def normalHeight : α := 1.5

/-- The line heights by slot. -/
def heights : Entries α := [("tight", 1.2), ("normal", normalHeight), ("relaxed", 1.75)]

/-- The letter spacings by slot. -/
def spacings : Entries α := [("tight", 0.0 - 0.025), ("normal", 0.0), ("wide", 0.025)]

/-- The text styles: step, its power, weight, line height and letter spacing. -/
def styleTable : List (String × String × Int × FontWeight × α × α) :=
  [("largeTitle", "4xl", 5, .bold, 1.2, 0.0 - 0.025),
    ("title", "3xl", 4, .bold, 1.2, 0.0 - 0.025),
    ("title2", "2xl", 3, .semiBold, 1.2, 0.0),
    ("title3", "xl", 2, .semiBold, 1.2, 0.0),
    ("headline", "lg", 1, .semiBold, 1.5, 0.0),
    ("body", "base", 0, .regular, 1.5, 0.0),
    ("callout", "base", 0, .medium, 1.5, 0.0),
    ("subheadline", "sm", -1, .regular, 1.5, 0.0),
    ("footnote", "sm", -1, .regular, 1.75, 0.0),
    ("caption", "xs", -2, .medium, 1.75, 0.025)]

/-- The typography of a base size and a ratio. -/
def generate (baseSize ratio : α) : Typography α where
  baseSize := baseSize
  ratio := ratio
  scale := ladder.map fun (step, power) => (step, sizeOf baseSize ratio power)
  families := FontFamily.all.map fun family => (family.name, family)
  lineHeights := heights
  letterSpacings := spacings
  styles := styleTable.map fun (name, step, power, weight, lineHeight, letterSpacing) =>
    (name, ⟨step, sizeOf baseSize ratio power, weight, .sans, lineHeight, letterSpacing⟩)

/-- A text style by its name, or a step of the scale as a regular style. -/
def font? (t : Typography α) (slot : String) : Option (TextStyle α) :=
  match t.styles.lookup slot with
  | some style => some style
  | none => (t.scale.lookup slot).map fun size =>
    ⟨slot, size, .regular, .sans, normalHeight, 0.0⟩

/-- The letter spacing of a slot in points at the base size. -/
def tracking? (t : Typography α) (slot : String) : Option α :=
  (t.letterSpacings.lookup slot).map fun em => Measure.roundHundredths (em * t.baseSize)

end Typography

end

end Screenwright
