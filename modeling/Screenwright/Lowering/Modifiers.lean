/-
Lowering modifiers.
-/
import Screenwright.Lowering.Ledger

namespace Screenwright

open Swift (Statement Value ViewModifier Arg bare labeled)

/-- A modifier on a node, whose arguments are to be read. -/
structure ModifierUse where
  node : String
  modifier : Modifier

namespace ModifierUse

/-- The error of arguments that do not fit. -/
def invalid (u : ModifierUse) (fault : ArgsFault) : BuildError :=
  .invalidArgs u.node u.modifier.name fault

/-- Refuses a number of arguments outside a range. -/
def checkCount (u : ModifierUse) (low high : Nat) : Except BuildError Unit :=
  let found := u.modifier.args.length
  if low ≤ found && found ≤ high then .ok () else .error (u.invalid (.wrongCount low high found))

/-- The argument at an index, if there is one. -/
def arg? (u : ModifierUse) (index : Nat) : Option Json :=
  u.modifier.args[index]?

/-- A string. -/
def string (u : ModifierUse) (index : Nat) : Except BuildError String :=
  match (u.arg? index).bind Json.string? with
  | some s => .ok s
  | none => .error (u.invalid (.notString (index + 1)))

/-- A finite number. -/
def number (u : ModifierUse) (index : Nat) : Except BuildError Float :=
  match (u.arg? index).bind Json.float? with
  | some x => if x.isFinite then .ok x else .error (u.invalid (.notNumber (index + 1)))
  | none => .error (u.invalid (.notNumber (index + 1)))

/-- A token slot. -/
def token (u : ModifierUse) (index : Nat) (kind : TokenKind) : Except BuildError TokenRef :=
  (u.string index).map fun slot => ⟨kind, slot⟩

/-- A boolean, true if it is absent. -/
def boolOrTrue (u : ModifierUse) (index : Nat) : Except BuildError Bool :=
  match u.arg? index with
  | none => .ok true
  | some value =>
    match value.bool? with
    | some b => .ok b
    | none => .error (u.invalid (.notBool (index + 1)))

/-- A length: a token slot or a number of points. -/
def length (u : ModifierUse) (s : Setting) (index : Nat) (kind : TokenKind) :
    Except BuildError Float :=
  match u.arg? index with
  | some (.string slot) => s.dimension u.node ⟨kind, slot⟩
  | some (.int _) => u.number index
  | some (.float _) => u.number index
  | _ => .error (u.invalid (.notLength (index + 1) kind))

/-- A color. -/
def color (u : ModifierUse) (s : Setting) (index : Nat) : Except BuildError Value := do
  let ref ← u.token index .color
  s.color u.node ref

/-! ### The modifiers -/

/-- The edge of padding, which is left out for all edges. -/
def edgeArgs (u : ModifierUse) (index : Nat) : Except BuildError (List Arg) := do
  let edge ← u.string index
  unless Modifier.edges.contains edge do throw (u.invalid (.unknownEdge edge))
  return if edge = "all" then [] else [bare (.member edge)]

/-- Padding: an amount, or an edge and an amount. -/
def padding (u : ModifierUse) (s : Setting) : Except BuildError ViewModifier := do
  u.checkCount 0 2
  match u.modifier.args.length with
  | 0 => return .plain "padding" []
  | 1 =>
    let amount ← u.length s 0 .spacing
    return .plain "padding" [bare (.number amount)]
  | _ =>
    let edge ← u.edgeArgs 0
    let amount ← u.length s 1 .spacing
    return .plain "padding" (edge ++ [bare (.number amount)])

/-- A background, in a shape if a radius is given. -/
def background (u : ModifierUse) (s : Setting) : Except BuildError ViewModifier := do
  u.checkCount 1 2
  let color ← u.color s 0
  if (u.arg? 1).isNone then return .plain "background" [bare color]
  let radius ← u.length s 1 .radius
  return .plain "background" [bare color, labeled "in" (Setting.shape radius)]

/-- A modifier that takes a color. -/
def tinted (u : ModifierUse) (s : Setting) : Except BuildError ViewModifier := do
  u.checkCount 1 1
  let color ← u.color s 0
  return .single u.modifier.name color

/-- A font. -/
def font (u : ModifierUse) (s : Setting) : Except BuildError ViewModifier := do
  u.checkCount 1 1
  let ref ← u.token 0 .font
  let font ← s.font u.node ref
  return .single "font" font

/-- Rounded corners. -/
def cornerRadius (u : ModifierUse) (s : Setting) : Except BuildError ViewModifier := do
  u.checkCount 1 1
  let radius ← u.length s 0 .radius
  return .single "clipShape" (Setting.shape radius)

/-- A shadow. -/
def shadow (u : ModifierUse) (s : Setting) : Except BuildError ViewModifier := do
  u.checkCount 1 1
  let ref ← u.token 0 .shadow
  s.shadow u.node ref

/-- An opacity. -/
def opacity (u : ModifierUse) : Except BuildError ViewModifier := do
  u.checkCount 1 1
  let x ← u.number 0
  unless 0.0 ≤ x && x ≤ 1.0 do throw (u.invalid .notFraction)
  return .single "opacity" (.number x)

/-- A dimension of a frame. -/
def dimensionArg : String × Option Float → Arg
  | (key, some points) => labeled key (.number points)
  | (key, none) => labeled key (.member "infinity")

/-- A frame. -/
def frame (u : ModifierUse) : Except BuildError ViewModifier := do
  u.checkCount 1 1
  match Frame.read ((u.arg? 0).getD .null) with
  | .error fault => throw (u.invalid (.badFrame fault))
  | .ok frame =>
    return .plain "frame"
      (frame.dimensions.map dimensionArg ++
        (frame.alignment.map fun a => labeled "alignment" (.member a)).toList)

/-- A frame as wide as its place. -/
def fillWidth (u : ModifierUse) : Except BuildError ViewModifier := do
  u.checkCount 0 0
  return .plain "frame" [labeled "maxWidth" (.member "infinity")]

/-- A border; with a radius it is drawn along a shape. -/
def border (u : ModifierUse) (s : Setting) : Except BuildError ViewModifier := do
  u.checkCount 2 3
  let color ← u.color s 0
  let width ← u.length s 1 .borderWidth
  if (u.arg? 2).isNone then
    return .plain "border" [bare color, labeled "width" (.number width)]
  let radius ← u.length s 2 .radius
  return .single "overlay"
    (.method (Setting.shape radius) "stroke" [bare color, labeled "lineWidth" (.number width)])

/-- An animation of the changes of a value. -/
def animation (u : ModifierUse) (s : Setting) : Except BuildError ViewModifier := do
  u.checkCount 2 2
  let ref ← u.token 0 .motion
  let curve ← s.motion u.node ref
  let path ← u.string 1
  match s.scope.lookup path with
  | .error fault => throw (u.invalid (.badPath fault))
  | .ok bound => return .plain "animation" [bare curve, labeled "value" bound.read]

/-- A line height, as space between the lines. -/
def lineHeight (u : ModifierUse) (s : Setting) : Except BuildError ViewModifier := do
  u.checkCount 1 1
  let ref ← u.token 0 .lineHeight
  let factor ← s.factor u.node ref
  let space := s.tokens.typography.baseSize * (factor - 1.0)
  return .single "lineSpacing" (.number (Measure.roundHundredths space))

/-- Space between letters. -/
def tracking (u : ModifierUse) (s : Setting) : Except BuildError ViewModifier := do
  u.checkCount 1 1
  let space ← u.length s 0 .letterSpacing
  return .single "tracking" (.number space)

/-- A modifier without arguments. -/
def simple (u : ModifierUse) : Except BuildError ViewModifier := do
  u.checkCount 0 0
  return .plain u.modifier.name []

/-- A limit on the number of lines. -/
def lineLimit (u : ModifierUse) : Except BuildError ViewModifier := do
  u.checkCount 1 1
  match (u.arg? 0).bind Json.int? with
  | some n => if 1 ≤ n then return .single "lineLimit" (.int n) else throw (u.invalid .notCount)
  | none => throw (u.invalid .notCount)

/-- A scaling. -/
def scale (u : ModifierUse) : Except BuildError ViewModifier := do
  u.checkCount 1 1
  let x ← u.number 0
  return .single "scaleEffect" (.number x)

/-- A rotation in degrees. -/
def rotation (u : ModifierUse) : Except BuildError ViewModifier := do
  u.checkCount 1 1
  let x ← u.number 0
  return .single "rotationEffect" (.call ".degrees" [bare (.number x)])

/-- Whether a view takes no input. -/
def disabled (u : ModifierUse) : Except BuildError ViewModifier := do
  u.checkCount 0 1
  let b ← u.boolOrTrue 0
  return .single "disabled" (.bool b)

/-- A modifier that takes a text. -/
def texted (u : ModifierUse) : Except BuildError ViewModifier := do
  u.checkCount 1 1
  let s ← u.string 0
  return .single u.modifier.name (.string s)

/-- A modifier that triggers an action. -/
def triggered (u : ModifierUse) (s : Setting) : Build ViewModifier := do
  u.checkCount 1 1
  match Action.ofJson ((u.arg? 0).getD .null) with
  | .error e => throw (u.invalid (.malformedAction e))
  | .ok action =>
    let body ← s.action u.node action
    return .plain u.modifier.name [labeled "perform" (.action body)]

/-- Lowers a modifier. -/
def lower (u : ModifierUse) (s : Setting) : Build ViewModifier :=
  match u.modifier.name with
  | "padding" => u.padding s
  | "background" => u.background s
  | "foregroundStyle" => u.tinted s
  | "tint" => u.tinted s
  | "font" => u.font s
  | "cornerRadius" => u.cornerRadius s
  | "shadow" => u.shadow s
  | "opacity" => u.opacity
  | "frame" => u.frame
  | "fillWidth" => u.fillWidth
  | "border" => u.border s
  | "animation" => u.animation s
  | "lineHeight" => u.lineHeight s
  | "tracking" => u.tracking s
  | "bold" => u.simple
  | "italic" => u.simple
  | "lineLimit" => u.lineLimit
  | "scale" => u.scale
  | "rotation" => u.rotation
  | "disabled" => u.disabled
  | "hidden" => u.simple
  | "navigationTitle" => u.texted
  | "accessibilityLabel" => u.texted
  | "onTapGesture" => u.triggered s
  | "onAppear" => u.triggered s
  | name => throw (.unknownModifier u.node name)

end ModifierUse

/-- Lowers the modifiers of an element, in order. -/
def Setting.userModifiers (s : Setting) (e : Element) : Build (List ViewModifier) :=
  e.modifiers.mapM fun m => ModifierUse.lower ⟨e.id, m⟩ s

end Screenwright
