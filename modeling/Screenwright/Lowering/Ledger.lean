/-
What lowering a screen reads and what it writes down.

Lowering turns elements into views.  It reads a `Setting`, which does not change, and
writes into a `Ledger`: the ways to other screens, the sheets and handlers in use, and
whether the router and the dismissal are needed.
-/
import Screenwright.Check.References

namespace Screenwright

open Swift (Statement Value ViewModifier Arg bare labeled)

/-- Why the arguments of a modifier cannot be lowered. -/
inductive ArgsFault where
  | wrongCount (low high found : Nat)
  /-- Positions are counted from one. -/
  | notString (position : Nat)
  | notNumber (position : Nat)
  | notBool (position : Nat)
  | notLength (position : Nat) (kind : TokenKind)
  | unknownEdge (name : String)
  | notFraction
  | notCount
  | badPath (fault : PathFault)
  | badFrame (fault : FrameFault)
  | malformedAction (error : DecodeError)
  | notModifiable (type : String)
  /-- A slot stands for a token of another kind. -/
  | wrongToken (kind : TokenKind) (found : Token)

/-- Why a screen cannot be lowered. -/
inductive BuildError where
  | unresolvedBinding (node : String) (source : BindingSource) (path : String) (fault : PathFault)
  | unknownModifier (node name : String)
  | invalidArgs (node name : String) (fault : ArgsFault)
  | unknownToken (node : String) (slot : UnknownSlot)
  | danglingEdge (node target : String)
  | invalidDefault (name : String) (fault : Swift.DefaultFault)
  | invalidAction (node : String) (fault : ActionFault)
  /-- Content stands where only a presentation can be hung on a view. -/
  | notPresentable (node type : String)
  | conflictingHandler (node name : String)

/-- The message of a fault. -/
def ArgsFault.message : ArgsFault → String
  | wrongCount low high found =>
    if low = high then
      "expects " ++ toString low ++ " argument(s), found " ++ toString found
    else
      "expects " ++ toString low ++ " to " ++ toString high ++ " arguments, found " ++
        toString found
  | notString position => "argument " ++ toString position ++ " must be a string"
  | notNumber position => "argument " ++ toString position ++ " must be a number"
  | notBool position => "argument " ++ toString position ++ " must be a boolean"
  | notLength position kind =>
    "argument " ++ toString position ++ " must be a " ++ kind.title ++ " token or a number"
  | unknownEdge name => "unknown edge `" ++ name ++ "`"
  | notFraction => "opacity must be between 0 and 1"
  | notCount => "line limit must be a positive integer"
  | badPath fault => fault.message
  | badFrame fault => fault.message
  | malformedAction e => "invalid action: " ++ e.message .value
  | notModifiable type => "`" ++ type ++ "` nodes take no modifiers"
  | wrongToken kind found => kind.title ++ " token resolved to " ++ found.describe

/-- The message of an error. -/
def BuildError.message : BuildError → String
  | unresolvedBinding node source path fault =>
    "Unresolved " ++ source.name ++ " binding `" ++ path ++ "` on node `" ++ node ++ "`: " ++
      fault.message
  | unknownModifier node name => "Unknown modifier `" ++ name ++ "` on node `" ++ node ++ "`"
  | invalidArgs node name fault =>
    "Invalid arguments for modifier `" ++ name ++ "` on node `" ++ node ++ "`: " ++ fault.message
  | unknownToken node slot =>
    "Token resolution failed on node `" ++ node ++ "`: " ++ slot.message
  | danglingEdge node target =>
    "Node `" ++ node ++ "` targets unknown screen `" ++ target ++ "`"
  | invalidDefault name fault => "Invalid default for `" ++ name ++ "`: " ++ fault.message
  | invalidAction node fault => "Invalid action on node `" ++ node ++ "`: " ++ fault.message
  | notPresentable node type =>
    "Node `" ++ node ++ "` of type `" ++ type ++ "` cannot be attached as a presentation"
  | conflictingHandler node name =>
    "Custom action `" ++ name ++ "` conflicts with another member of the screen on node `" ++
      node ++ "`"

/-- What lowering reads. -/
structure Setting where
  /-- The identifier of the screen. -/
  screenId : String
  tokens : DesignTokens
  screens : ScreenIndex
  /-- The scope after all bindings of the screen. -/
  scope : Scope
  /-- The resolved bindings by node and property, the last one first. -/
  bound : List ((String × String) × Bound)

/-- What lowering writes down. -/
structure Ledger where
  edges : List Swift.NavEdge
  /-- The view types of the sheets by their presentation flags, in order of first use. -/
  sheets : Entries String
  handlers : Entries HandlerParams
  usesRouter : Bool
  usesDismiss : Bool

/-- The ledger before lowering. -/
def Ledger.empty : Ledger := ⟨[], [], [], false, false⟩

/-- Lowering: it may fail, and it writes into a ledger. -/
abbrev Build := StateT Ledger (Except BuildError)

namespace Setting

/-- The resolved binding of a property. -/
def bound? (s : Setting) (node property : String) : Option Bound :=
  s.bound.lookup (node, property)

/-- The names of a screen that a node leads to. -/
def target (s : Setting) (node target : String) : Except BuildError ScreenNames :=
  match s.screens.lookup target with
  | some names => .ok names
  | none => .error (.danglingEdge node target)

/-- Writes down a way to another screen. -/
def addEdge (s : Setting) (node target : String) (kind : Swift.EdgeKind) : Build Unit :=
  modify fun ledger => { ledger with edges := ledger.edges ++ [⟨s.screenId, target, node, kind⟩] }

/-! ### Tokens -/

/-- The token of a slot. -/
def token (s : Setting) (node : String) (ref : TokenRef) : Except BuildError Token :=
  match s.tokens.resolve ref.kind ref.slot with
  | .ok token => .ok token
  | .error slot => .error (.unknownToken node slot)

/-- The error of a slot that stands for a token of another kind. -/
def wrongToken (node : String) (ref : TokenRef) (found : Token) : BuildError :=
  .invalidArgs node ref.slot (.wrongToken ref.kind found)

/-- The color of a slot. -/
def color (s : Setting) (node : String) (ref : TokenRef) : Except BuildError Value := do
  match ← s.token node ref with
  | .color c => return .color c.toRgba
  | other => throw (wrongToken node ref other)

/-- The length of a slot. -/
def dimension (s : Setting) (node : String) (ref : TokenRef) : Except BuildError Float := do
  match ← s.token node ref with
  | .dimension points => return points
  | other => throw (wrongToken node ref other)

/-- The factor of a slot. -/
def factor (s : Setting) (node : String) (ref : TokenRef) : Except BuildError Float := do
  match ← s.token node ref with
  | .number x => return x
  | other => throw (wrongToken node ref other)

/-- The font of a slot. -/
def font (s : Setting) (node : String) (ref : TokenRef) : Except BuildError Value := do
  match ← s.token node ref with
  | .font style => return .font style.size style.weight.swift style.family.swift
  | other => throw (wrongToken node ref other)

/-- A shadow as a modifier. -/
def shadowModifier (shadow : Shadow) : ViewModifier :=
  .plain "shadow"
    [labeled "color" (.color shadow.color.toRgba), labeled "radius" (.number (shadow.blur / 2.0)),
      labeled "x" (.number shadow.x), labeled "y" (.number shadow.y)]

/-- The shadow of a slot. -/
def shadow (s : Setting) (node : String) (ref : TokenRef) : Except BuildError ViewModifier := do
  match ← s.token node ref with
  | .shadow shadow => return shadowModifier shadow
  | other => throw (wrongToken node ref other)

/-- An animation as a value. -/
def animationValue : Animation → Value
  | .spring spring =>
    .call ".spring" [labeled "response" (.number spring.response),
      labeled "dampingFraction" (.number spring.dampingFraction)]
  | .timing curve duration =>
    .call ".timingCurve" [bare (.number curve.x1), bare (.number curve.y1),
      bare (.number curve.x2), bare (.number curve.y2), labeled "duration" (.number duration)]

/-- The animation of a slot. -/
def motion (s : Setting) (node : String) (ref : TokenRef) : Except BuildError Value := do
  match ← s.token node ref with
  | .motion animation => return animationValue animation
  | other => throw (wrongToken node ref other)

/-- The shape with rounded corners; a full radius is a capsule. -/
def shape (radius : Float) : Value :=
  if Spacing.fullRadius ≤ radius then .call "Capsule" []
  else .call "RoundedRectangle" [labeled "cornerRadius" (.number radius)]

/-! ### Actions -/

/-- The argument that a handler parameter is called with. -/
def handlerArg : String × Json → Option Arg
  | (name, .string s) => some (labeled name (.string s))
  | (name, .bool b) => some (labeled name (.bool b))
  | (name, .int n) =>
    some (labeled name (if Json.inIntRange n then .int n else .number (Float.ofInt n)))
  | (name, .float x) => some (labeled name (.number x))
  | _ => none

/-- Writes down a handler, which must agree with its earlier uses. -/
def addHandler (node name : String) (params : HandlerParams) : Build Unit := do
  match (← get).handlers.lookup name with
  | some first => unless first = params do throw (.conflictingHandler node name)
  | none => modify fun ledger => { ledger with handlers := ledger.handlers ++ [(name, params)] }

/-- Whether a handler cannot be added to the members of the view under the name. -/
def isTaken (s : Setting) (ledger : Ledger) (name : String) : Bool :=
  Scope.reservedNames.contains name || s.scope.isMember name || ledger.sheets.has name

/-- The statements of a custom action. -/
def customAction (s : Setting) (node name : String) (args : Entries Json) :
    Build (List Statement) := do
  unless Names.isUsable name do throw (.invalidAction node (.badHandler name))
  if s.isTaken (← get) name then throw (.conflictingHandler node name)
  match Action.handlerParams args with
  | .error fault => throw (.invalidAction node fault)
  | .ok params =>
    addHandler node name params
    return [.invoke name (args.filterMap handlerArg)]

/-- The statements of an action. -/
def action (s : Setting) (node : String) : Action → Build (List Statement)
  | .navigate target => do
    let names ← s.target node target
    s.addEdge node target .push
    modify fun ledger => { ledger with usesRouter := true }
    return [.navigate names.routeCase]
  | .presentSheet target => do
    let names ← s.target node target
    let flag := names.presentationFlag
    modify fun ledger =>
      { ledger with sheets := Entries.putNew flag names.viewType ledger.sheets }
    s.addEdge node target .sheet
    return [.present flag]
  | .dismiss => do
    modify fun ledger => { ledger with usesDismiss := true }
    return [.dismiss]
  | .custom name args => s.customAction node name args

end Setting

end Screenwright
