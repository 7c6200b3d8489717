/-
Design token kinds and the slots that name tokens.

A slot is a name within a kind.  Besides the plain slots, a color takes the suffix of an
interaction state, and motion takes a spring or an easing together with a duration.
-/
import Screenwright.Text.Split

namespace Screenwright

/-- The kinds of design tokens. -/
inductive TokenKind where
  | color
  | spacing
  | font
  | radius
  | shadow
  | motion
  | lineHeight
  | letterSpacing
  | borderWidth
deriving DecidableEq, Repr

namespace TokenKind

/-- The kinds with the names they have in data. -/
def names : List (String × TokenKind) :=
  [("color", color), ("spacing", spacing), ("font", font), ("radius", radius),
    ("shadow", shadow), ("motion", motion), ("lineHeight", lineHeight),
    ("letterSpacing", letterSpacing), ("borderWidth", borderWidth)]

/-- The name of a kind in data. -/
def name : TokenKind → String
  | color => "color"
  | spacing => "spacing"
  | font => "font"
  | radius => "radius"
  | shadow => "shadow"
  | motion => "motion"
  | lineHeight => "lineHeight"
  | letterSpacing => "letterSpacing"
  | borderWidth => "borderWidth"

/-- The name of a kind in messages. -/
def title : TokenKind → String
  | lineHeight => "line height"
  | letterSpacing => "letter spacing"
  | borderWidth => "border width"
  | kind => kind.name

/-- The plain color slots. -/
def colorSlots : List String :=
  ["primary", "onPrimary", "secondary", "accent", "background", "surface", "surfaceVariant",
    "border", "textPrimary", "textSecondary", "textDisabled", "success", "warning", "error",
    "info"]

/-- The interaction states a color slot can be asked for in. -/
def colorStates : List String :=
  ["hover", "pressed", "disabled"]

/-- The durations of motion. -/
def durations : List String :=
  ["instant", "fast", "normal", "slow", "slower"]

/-- The easing curves of motion. -/
def easings : List String :=
  ["standard", "decelerate", "accelerate", "linear"]

/-- The springs of motion. -/
def springs : List String :=
  ["snappy", "smooth", "bouncy"]

/-- The plain slots of a kind. -/
def slots : TokenKind → List String
  | color => colorSlots
  | spacing => ["none", "xs", "sm", "md", "lg", "xl", "xxl"]
  | font =>
    ["largeTitle", "title", "title2", "title3", "headline", "body", "callout", "subheadline",
      "footnote", "caption", "xs", "sm", "base", "lg", "xl", "2xl", "3xl", "4xl"]
  | radius => ["none", "sm", "md", "lg", "xl", "full"]
  | shadow => ["xs", "sm", "md", "lg", "xl"]
  | motion => durations ++ easings
  | lineHeight => ["tight", "normal", "relaxed"]
  | letterSpacing => ["tight", "normal", "wide"]
  | borderWidth => ["hairline", "thin", "medium", "thick"]

/-- Whether `slot` is made of two names that belong together. -/
def acceptsPair (kind : TokenKind) (first second : String) : Bool :=
  match kind with
  | color => colorSlots.contains first && colorStates.contains second
  | motion =>
    if first = "spring" then springs.contains second
    else easings.contains first && durations.contains second
  | _ => false

/-- Whether `slot` names a token of the kind. -/
def accepts (kind : TokenKind) (slot : String) : Bool :=
  kind.slots.contains slot ||
    match Text.splitFirst '.' slot with
    | some (first, second) => kind.acceptsPair first second
    | none => false

end TokenKind

/-- A slot of a kind. -/
structure TokenRef where
  kind : TokenKind
  slot : String
deriving DecidableEq, Repr

end Screenwright
