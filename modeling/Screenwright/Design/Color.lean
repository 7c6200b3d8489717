/-
Colors in the OKLCH space.

A color has a lightness, a chroma, a hue in degrees and an opacity.  The operations that
derive one color from another need only the arithmetic of `Measure`; the conversion to
and from the channels of a screen needs roots and angles and is for floats.
-/
import Screenwright.Number.Angle
import Screenwright.Number.CubeRoot
import Screenwright.Number.Measure
import Screenwright.Number.Notation
import Screenwright.Number.Reading
import Screenwright.Number.RootPower
import Screenwright.Text.Blank
import Screenwright.Text.Split

namespace Screenwright

/-- A color: lightness, chroma, hue and opacity. -/
structure Color (α : Type) where
  l : α
  c : α
  h : α
  alpha : α
deriving DecidableEq

namespace Color

variable {α : Type} [Measure α]

/-- An opaque color. -/
def solid (l c h : α) : Color α := ⟨l, c, h, 1.0⟩

/-- The color with another lightness, moved into range. -/
def withLightness (color : Color α) (l : α) : Color α :=
  { color with l := Measure.clampUnit l }

/-- The color with another chroma, at least zero. -/
def withChroma (color : Color α) (c : α) : Color α :=
  { color with c := Measure.atLeastZero c }

/-- A hue brought into one turn. -/
def wrapHue (h : α) : α :=
  let wrapped := Measure.remainder h 360.0
  if wrapped < 0.0 then wrapped + 360.0 else wrapped

/-- The color with its hue turned by some degrees. -/
def rotateHue (color : Color α) (degrees : α) : Color α :=
  { color with h := wrapHue (color.h + degrees) }

/-- Whether the color lies on the light side of the middle. -/
def isLight (color : Color α) : Bool :=
  decide (0.5 ≤ color.l)

/-- Whether every part is finite and lies in its range. -/
def isValid (color : Color Float) : Bool :=
  color.l.isFinite && color.c.isFinite && color.h.isFinite && color.alpha.isFinite &&
    decide (0.0 ≤ color.l) && decide (color.l ≤ 1.0) && !decide (color.c < 0.0) &&
    decide (0.0 ≤ color.alpha) && decide (color.alpha ≤ 1.0)

end Color

/-- A color in the channels of a screen, each between zero and one. -/
structure Rgba where
  r : Float
  g : Float
  b : Float
  a : Float

namespace Rgba

/-- The value of a hexadecimal digit. -/
def hexDigit? (c : Char) : Option Nat :=
  if c.isDigit then some (c.toNat - '0'.toNat)
  else if 'a' ≤ c && c ≤ 'f' then some (c.toNat - 'a'.toNat + 10)
  else if 'A' ≤ c && c ≤ 'F' then some (c.toNat - 'A'.toNat + 10)
  else none

/-- The channel that two hexadecimal digits stand for. -/
def channel (high low : Nat) : Float :=
  Float.ofNat (16 * high + low) / 255.0

/-- A color of six or eight hexadecimal digits, behind any number of `#`. -/
def ofHexChars (cs : List Char) : Option Rgba :=
  match (cs.dropWhile (· == '#')).mapM hexDigit? with
  | some [r₁, r₂, g₁, g₂, b₁, b₂] =>
    some ⟨channel r₁ r₂, channel g₁ g₂, channel b₁ b₂, 1.0⟩
  | some [r₁, r₂, g₁, g₂, b₁, b₂, a₁, a₂] =>
    some ⟨channel r₁ r₂, channel g₁ g₂, channel b₁ b₂, channel a₁ a₂⟩
  | _ => none

/-- A color from its hexadecimal text. -/
def ofHex (s : String) : Option Rgba :=
  ofHexChars s.toList

/-- A channel as a number from 0 to 255; what is not a number counts as 0. -/
def toByte (x : Float) : Nat :=
  (Number.round (Measure.clampUnit x * 255.0)).toUInt8.toNat

/-- A hexadecimal digit in upper case. -/
def hexDigit (n : Nat) : Char :=
  if n < 10 then Char.ofNat ('0'.toNat + n) else Char.ofNat ('A'.toNat + (n - 10))

/-- A channel as two hexadecimal digits. -/
def hexByte (x : Float) : List Char :=
  [hexDigit (toByte x / 16), hexDigit (toByte x % 16)]

/-- A color as hexadecimal text; the opacity is left out where it is full. -/
def toHex (color : Rgba) : String :=
  let channels := hexByte color.r ++ hexByte color.g ++ hexByte color.b
  let opacity := if toByte color.a = 255 then [] else hexByte color.a
  String.ofList ('#' :: channels ++ opacity)

end Rgba

namespace Color

/-- A channel without its gamma. -/
def linearOf (c : Float) : Float :=
  if c ≤ 0.04045 then c / 12.92 else Number.raise ((c + 0.055) / 1.055) 2.4

/-- A channel with its gamma, moved into range. -/
def encodedOf (c : Float) : Float :=
  Measure.clampUnit
    (if c ≤ 0.0031308 then 12.92 * c else 1.055 * Float.pow c (1.0 / 2.4) - 0.055)

/-- Half a turn. -/
def halfTurn : Float := 3.14159265358979323846264338327950288

/-- The color of screen channels. -/
def ofRgba (color : Rgba) : Color Float :=
  let r := linearOf color.r
  let g := linearOf color.g
  let b := linearOf color.b
  let l := Number.cubeRoot (0.4122214708 * r + 0.5363325363 * g + 0.0514459929 * b)
  let m := Number.cubeRoot (0.2119034982 * r + 0.6806995451 * g + 0.1073969566 * b)
  let s := Number.cubeRoot (0.0883024619 * r + 0.2817188376 * g + 0.6299787005 * b)
  let lightness := 0.2104542553 * l + 0.7936177850 * m - 0.0040720468 * s
  let x := 1.9779984951 * l - 2.4285922050 * m + 0.4505937099 * s
  let y := 0.0259040371 * l + 0.7827717662 * m - 0.8086757660 * s
  let chroma := Float.sqrt (x * x + y * y)
  let hue := if chroma < 1e-6 then 0.0 else wrapHue (Number.angle y x * (180.0 / halfTurn))
  ⟨Measure.clampUnit lightness, chroma, hue, color.a⟩

/-- The screen channels of a color, moved into range. -/
def toRgba (color : Color Float) : Rgba :=
  let hue := color.h * (halfTurn / 180.0)
  let x := color.c * Float.cos hue
  let y := color.c * Float.sin hue
  let l := Measure.power (color.l + 0.3963377774 * x + 0.2158037573 * y) 3
  let m := Measure.power (color.l - 0.1055613458 * x - 0.0638541728 * y) 3
  let s := Measure.power (color.l - 0.0894841775 * x - 1.2914855480 * y) 3
  { r := encodedOf (4.0767416621 * l - 3.3077115913 * m + 0.2309699292 * s)
    g := encodedOf (-1.2684380046 * l + 2.6097574011 * m - 0.3413193965 * s)
    b := encodedOf (-0.0041960863 * l - 0.7034186147 * m + 1.7076147010 * s)
    a := Measure.clampUnit color.alpha }

/-! ### Text -/

/-- The text of a color; a full opacity is left out. -/
def text (color : Color Float) : String :=
  let channels := Number.fixed 3 color.l ++ " " ++ Number.fixed 3 color.c ++ " " ++
    Number.fixed 1 color.h
  if (color.alpha - 1.0).abs < 2.220446049250313e-16 then "oklch(" ++ channels ++ ")"
  else "oklch(" ++ channels ++ " / " ++ Number.fixed 2 color.alpha ++ ")"

/-- What stands between `oklch(` and `)`. -/
def functionBody? (cs : List Char) : Option (List Char) :=
  match cs with
  | 'o' :: 'k' :: 'l' :: 'c' :: 'h' :: '(' :: rest =>
    match rest.reverse with
    | ')' :: body => some body.reverse
    | _ => none
  | _ => none

/-- A color from the channels in its functional text.  A lightness or an opacity out of
range is refused, and so is a chroma below zero. -/
def ofFunctionBody (body : List Char) : Option (Color Float) := do
  let (channels, opacity) := match Text.cutFirst '/' body with
    | some (channels, opacity) => (channels, some (Text.trimChars opacity))
    | none => (body, none)
  let [l, c, h] ← (Text.blankWords channels).mapM Number.readChars | none
  let alpha ← match opacity with
    | some cs => Number.readChars cs
    | none => some 1.0
  if 0.0 ≤ l && l ≤ 1.0 && !(c < 0.0) && 0.0 ≤ alpha && alpha ≤ 1.0 then
    some ⟨l, c, wrapHue h, alpha⟩
  else none

/-- A color from its text: `oklch(L C H)`, `oklch(L C H / A)` or hexadecimal digits. -/
def parse (s : String) : Option (Color Float) :=
  let cs := Text.trimChars s.toList
  match functionBody? cs with
  | some body => ofFunctionBody body
  | none => (Rgba.ofHexChars cs).map ofRgba

end Color

end Screenwright
