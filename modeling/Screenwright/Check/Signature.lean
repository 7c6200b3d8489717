/-
The modifiers and the arguments they take.

A modifier has one or more forms, told apart by the number of arguments; each argument
has a shape.
-/
import Screenwright.App.Component
import Screenwright.Check.Frame
import Screenwright.Check.Handler

namespace Screenwright

/-- The shape of an argument. -/
inductive ArgShape where
  /-- A token slot. -/
  | token (kind : TokenKind)
  /-- A token slot or a number of points. -/
  | length (kind : TokenKind)
  | number
  /-- A number from zero to one. -/
  | fraction
  /-- A positive whole number. -/
  | count
  | bool
  | text
  /-- The name of an edge. -/
  | edge
  | frame
  /-- A path to state or to a parameter. -/
  | path
  | action
deriving DecidableEq, Repr

/-- Why an argument is refused. -/
inductive ArgFault where
  | unknownToken (kind : TokenKind) (slot : String)
  | notToken (kind : TokenKind)
  | notLength (kind : TokenKind)
  | notNumber
  | notFraction
  | notCount
  | notBool
  | notText
  | unknownEdge (name : String)
  | notEdge
  | badFrame (fault : FrameFault)
  | notPath
  | malformedAction (error : DecodeError)
  | unusableAction (fault : ActionFault)

/-- Why a modifier is refused. -/
inductive ModifierFault where
  | unsupported
  | wrongCount (allowed : List Nat) (found : Nat)
  /-- An argument, counted from one, does not fit. -/
  | badArgument (position : Nat) (fault : ArgFault)
  /-- Components of this type have no view that could be modified. -/
  | notModifiable (type : String)

/-- The message of a fault. -/
def ArgFault.message : ArgFault → String
  | unknownToken kind slot => "unknown " ++ kind.title ++ " token `" ++ slot ++ "`"
  | notToken kind => "expected a " ++ kind.title ++ " token"
  | notLength kind => "expected a " ++ kind.title ++ " token or a number"
  | notNumber => "expected a number"
  | notFraction => "must be between 0 and 1"
  | notCount => "expected a positive integer"
  | notBool => "expected a boolean"
  | notText => "expected a string"
  | unknownEdge name => "unknown edge `" ++ name ++ "`"
  | notEdge => "expected an edge name"
  | badFrame fault => fault.message
  | notPath => "expected a dotted state or parameter path"
  | malformedAction e => "malformed action: " ++ e.message .value
  | unusableAction fault => fault.message

/-- The message of a fault. -/
def ModifierFault.message : ModifierFault → String
  | unsupported => "not a supported modifier"
  | wrongCount allowed found =>
    "expects " ++ Text.join " or " (allowed.map toString) ++ " argument(s), found " ++
      toString found
  | badArgument position fault => "argument " ++ toString position ++ ": " ++ fault.message
  | notModifiable type => "`" ++ type ++ "` nodes take no modifiers"

namespace Modifier

/-- The edges that padding can be given for. -/
def edges : List String :=
  ["all", "horizontal", "vertical", "top", "bottom", "leading", "trailing"]

/-- Every modifier with its forms. -/
def signatures : List (String × List (List ArgShape)) :=
  [("padding", [[], [.length .spacing], [.edge, .length .spacing]]),
    ("background", [[.token .color], [.token .color, .length .radius]]),
    ("foregroundStyle", [[.token .color]]),
    ("tint", [[.token .color]]),
    ("font", [[.token .font]]),
    ("cornerRadius", [[.length .radius]]),
    ("shadow", [[.token .shadow]]),
    ("opacity", [[.fraction]]),
    ("frame", [[.frame]]),
    ("fillWidth", [[]]),
    ("border",
      [[.token .color, .length .borderWidth],
        [.token .color, .length .borderWidth, .length .radius]]),
    ("animation", [[.token .motion, .path]]),
    ("lineHeight", [[.token .lineHeight]]),
    ("tracking", [[.length .letterSpacing]]),
    ("bold", [[]]),
    ("italic", [[]]),
    ("lineLimit", [[.count]]),
    ("scale", [[.number]]),
    ("rotation", [[.number]]),
    ("disabled", [[], [.bool]]),
    ("hidden", [[]]),
    ("navigationTitle", [[.text]]),
    ("accessibilityLabel", [[.text]]),
    ("onTapGesture", [[.action]]),
    ("onAppear", [[.action]])]

/-- Whether a modifier triggers an action. -/
def triggers (modifier : Modifier) : Bool :=
  modifier.name = "onTapGesture" || modifier.name = "onAppear"

/-- The action that a modifier triggers. -/
def action? (modifier : Modifier) : Option Action :=
  if modifier.triggers then
    modifier.args.head?.bind fun arg => (Action.ofJson arg).toOption
  else none

end Modifier

namespace ArgShape

/-- A finite number. -/
def finite (value : Json) : Except ArgFault Float :=
  match value.float? with
  | some x => if x.isFinite then .ok x else .error .notNumber
  | none => .error .notNumber

/-- Checks a token slot. -/
def checkToken (kind : TokenKind) (value : Json) : Except ArgFault Unit :=
  match value with
  | .string slot => if kind.accepts slot then .ok () else .error (.unknownToken kind slot)
  | _ => .error (.notToken kind)

/-- Whether a text is a path: identifiers with dots between them. -/
def isPath (s : String) : Bool :=
  (DataBinding.segmentsOf s).all Names.isIdentifier

/-- Checks an argument. -/
def check (shape : ArgShape) (value : Json) : Except ArgFault Unit :=
  match shape with
  | token kind => checkToken kind value
  | length kind =>
    match value with
    | .int _ => (finite value).map fun _ => ()
    | .float _ => (finite value).map fun _ => ()
    | .string _ => checkToken kind value
    | _ => .error (.notLength kind)
  | number => (finite value).map fun _ => ()
  | fraction => do
    let x ← finite value
    if 0.0 ≤ x && x ≤ 1.0 then return else throw .notFraction
  | count =>
    match value.int? with
    | some n => if 1 ≤ n then .ok () else .error .notCount
    | none => .error .notCount
  | bool => if value.bool?.isSome then .ok () else .error .notBool
  | text => if value.string?.isSome then .ok () else .error .notText
  | edge =>
    match value.string? with
    | some name => if Modifier.edges.contains name then .ok () else .error (.unknownEdge name)
    | none => .error .notEdge
  | frame =>
    match Frame.read value with
    | .ok _ => .ok ()
    | .error fault => .error (.badFrame fault)
  | path =>
    match value.string? with
    | some s => if isPath s then .ok () else .error .notPath
    | none => .error .notPath
  | action =>
    match Action.ofJson value with
    | .error e => .error (.malformedAction e)
    | .ok a =>
      match a.check with
      | .ok () => .ok ()
      | .error fault => .error (.unusableAction fault)

end ArgShape

namespace Modifier

/-- Checks arguments against the shapes of a form, from the given position on. -/
def checkArgs (position : Nat) : List ArgShape → List Json → Except ModifierFault Unit
  | shape :: shapes, value :: values =>
    match shape.check value with
    | .error fault => .error (.badArgument position fault)
    | .ok () => checkArgs (position + 1) shapes values
  | _, _ => .ok ()

/-- Checks a modifier against the table of signatures. -/
def check (modifier : Modifier) : Except ModifierFault Unit :=
  match signatures.lookup modifier.name with
  | none => .error .unsupported
  | some forms =>
    match forms.find? (·.length = modifier.args.length) with
    | none => .error (.wrongCount (forms.map List.length) modifier.args.length)
    | some form => checkArgs 1 form modifier.args

end Modifier

end Screenwright
