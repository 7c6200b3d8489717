/-
Normalization: a component tree checked against a catalog.

The nodes are checked in pre-order, and the first fault ends the run; it is reported
with the path from the root to its node.  A tree that passes becomes a tree of elements
of the same shape.  References to other screens are collected here and resolved
elsewhere, because only the whole app can tell whether a screen exists.
-/
import Screenwright.Catalog.Standard
import Screenwright.Check.Signature
import Screenwright.Config.Basic
import Screenwright.Tree

namespace Screenwright

/-- A component that has passed its checks. -/
structure Element where
  id : String
  type : String
  kind : ComponentKind
  /-- The properties in schema order, defaults included. -/
  props : Props
  bindings : List DataBinding
  modifiers : List Modifier
  /-- The depth in the tree, one for the root. -/
  depth : Nat

/-- How a node refers to a screen. -/
inductive ReferenceKind where
  | navigate
  | presentSheet
  | link
  | tab
deriving DecidableEq, Repr

/-- A reference from a node to a screen. -/
structure ScreenReference where
  node : String
  target : String
  kind : ReferenceKind
deriving DecidableEq, Repr

/-- A tree that has passed normalization. -/
structure NormalTree where
  root : Tree Element
  nodeCount : Nat
  /-- The depth of the deepest node that has children. -/
  maxDepth : Nat
  references : List ScreenReference

/-! ### Faults -/

/-- The identifiers of the nodes from the root to a node. -/
abbrev NodePath := List String

/-- A path as messages show it. -/
def NodePath.text (path : NodePath) : String :=
  Text.join "/" path

/-- The limit that a tree exceeds. -/
inductive LimitKind where
  | depth
  | nodeCount
deriving DecidableEq, Repr

/-- Why a binding is refused before its path is looked up. -/
inductive BindingFault where
  | emptyPath
  | badSegment (name : String)
  | noProperty (type property : String)
  | notBindable
  /-- An environment value cannot be written back. -/
  | readOnly
  | boundTwice
deriving DecidableEq, Repr

/-- What is wrong with a node. -/
inductive NodeFault where
  | unknownType (type : String)
  | invalidProp (type field : String) (fault : PropFault)
  | invalidChildren (type : String) (policy : ChildPolicy) (count : Nat)
  | invalidBinding (property : String) (fault : BindingFault)
  | invalidModifier (name : String) (fault : ModifierFault)
  /-- An earlier node, at the given path, has the same identifier. -/
  | duplicateId (first : NodePath)
  | limitExceeded (kind : LimitKind) (limit : Nat)

/-- A fault with the path to its node. -/
structure NormalizeError where
  path : NodePath
  fault : NodeFault

/-- What a limit limits. -/
def LimitKind.title : LimitKind → String
  | depth => "tree depth"
  | nodeCount => "node count"

/-- The message of a fault. -/
def BindingFault.message : BindingFault → String
  | emptyPath => "path is empty"
  | badSegment name => "`" ++ name ++ "` is not a valid path segment"
  | noProperty type property => "`" ++ type ++ "` has no property `" ++ property ++ "`"
  | notBindable => "property is not bindable"
  | readOnly => "environment values are read-only and cannot back a two-way property"
  | boundTwice => "property is bound more than once"

namespace NormalizeError

/-- The identifier of the node at fault. -/
def node? (e : NormalizeError) : Option String :=
  e.path.getLast?

/-- The message of an error. -/
def message (e : NormalizeError) : String :=
  let path := NodePath.text e.path
  let node := "node `" ++ e.node?.getD "" ++ "` at " ++ path
  match e.fault with
  | .unknownType type => "Unknown component type `" ++ type ++ "` on " ++ node
  | .invalidProp type field fault =>
    "Invalid property `" ++ field ++ "` on `" ++ type ++ "` " ++ node ++ ": " ++ fault.message
  | .invalidChildren type policy count =>
    "Invalid children on `" ++ type ++ "` " ++ node ++ ": " ++ policy.complaint count
  | .invalidBinding property fault =>
    "Invalid binding for `" ++ property ++ "` on " ++ node ++ ": " ++ fault.message
  | .invalidModifier name fault =>
    "Invalid modifier `" ++ name ++ "` on " ++ node ++ ": " ++ fault.message
  | .duplicateId first =>
    "Duplicate node id `" ++ e.node?.getD "" ++ "` at " ++ path ++ " (first seen at " ++
      NodePath.text first ++ ")"
  | .limitExceeded kind limit =>
    "Maximum " ++ kind.title ++ " (" ++ toString limit ++ ") exceeded at " ++ path

end NormalizeError

/-! ### References -/

/-- The screen an action leads to, and how. -/
def Action.reference? : Action → Option (String × ReferenceKind)
  | navigate target => some (target, .navigate)
  | presentSheet target => some (target, .presentSheet)
  | _ => none

/-- The screens a property value leads to. -/
def PropValue.references : PropValue → List (String × ReferenceKind)
  | screen id => [(id, .link)]
  | tabs items => items.map fun item => (item.screen, .tab)
  | value => value.heldActions.filterMap Action.reference?

namespace Element

/-- A property of the element. -/
def prop? (e : Element) (name : String) : Option PropValue :=
  e.props.lookup name

/-- The actions of the element: those of its properties, then those of its modifiers. -/
def actions (e : Element) : List Action :=
  e.props.flatMap (fun (_, value) => value.heldActions) ++ e.modifiers.filterMap Modifier.action?

/-- The references of the element: those of its properties, then those of its modifiers. -/
def references (e : Element) : List ScreenReference :=
  (e.props.flatMap (fun (_, value) => value.references) ++
      (e.modifiers.filterMap Modifier.action?).filterMap Action.reference?).map
    fun (target, kind) => ⟨e.id, target, kind⟩

end Element

namespace NormalTree

/-- The elements in pre-order. -/
def elements (t : NormalTree) : List Element :=
  t.root.preorder

/-- The depth of the deepest node that has children, zero if there is none. -/
def containerDepth (root : Tree Element) : Nat :=
  (root.visits.filter fun v => v.width ≠ 0).foldl (fun deepest v => max deepest v.depth) 0

/-- A tree of elements with what is read off it. -/
def ofRoot (root : Tree Element) : NormalTree where
  root := root
  nodeCount := root.size
  maxDepth := containerDepth root
  references := root.preorder.flatMap Element.references

end NormalTree

/-! ### Checks -/

namespace Component

/-- The identifiers on the way to a visited node, its own included. -/
def path (v : Visit Component) : NodePath :=
  v.line.map Component.id

/-- Checks one binding; `earlier` holds the bindings before it. -/
def checkBinding (info : ComponentMeta) (type : String) (earlier : List DataBinding)
    (binding : DataBinding) : Except BindingFault Unit := do
  if binding.path = "" then throw .emptyPath
  if let some name := binding.segments.find? fun s => !Names.isIdentifier s then
    throw (.badSegment name)
  let some schema := info.prop? binding.property | throw (.noProperty type binding.property)
  if schema.bind = .fixed then throw .notBindable
  if schema.bind = .twoWay && binding.source = .environment then throw .readOnly
  if earlier.any (·.property = binding.property) then throw .boundTwice

/-- Checks the bindings in order. -/
def checkBindings (info : ComponentMeta) (type : String) :
    List DataBinding → List DataBinding → Except NodeFault Unit
  | _, [] => .ok ()
  | earlier, binding :: rest =>
    match checkBinding info type earlier binding with
    | .error fault => .error (.invalidBinding binding.property fault)
    | .ok () => checkBindings info type (earlier ++ [binding]) rest

/-- Checks the actions among the properties. -/
def checkActions (type : String) (props : Props) : Except NodeFault Unit :=
  props.forM fun (field, value) =>
    value.heldActions.forM fun action =>
      match action.check with
      | .ok () => .ok ()
      | .error fault => .error (.invalidProp type field (.unusableAction fault))

/-- Checks the modifiers in order. -/
def checkModifiers (type : String) (kind : ComponentKind) (modifiers : List Modifier) :
    Except NodeFault Unit :=
  modifiers.forM fun modifier =>
    if !kind.acceptsModifiers then .error (.invalidModifier modifier.name (.notModifiable type))
    else
      match modifier.check with
      | .ok () => .ok ()
      | .error fault => .error (.invalidModifier modifier.name fault)

/-- What a refusal of the catalog means for a node. -/
def catalogFault : CatalogError → NodeFault
  | .unknownType type => .unknownType type
  | .invalidProp type field fault => .invalidProp type field fault
  | .duplicateType type => .invalidProp type "" .registeredTwice

/-- Checks a node by itself: type, properties, number of children, bindings, actions and
modifiers, in this order. -/
def checkAlone (catalog : Catalog) (v : Visit Component) : Except NodeFault Element := do
  let c := v.value
  let schema ← (catalog.schema c.type).mapError catalogFault
  let props ← (schema.validate c.props).mapError catalogFault
  unless schema.info.children.accepts v.width do
    throw (.invalidChildren c.type schema.info.children v.width)
  checkBindings schema.info c.type [] c.bindings
  checkActions c.type props
  checkModifiers c.type schema.info.kind c.modifiers
  return ⟨c.id, c.type, schema.info.kind, props, c.bindings, c.modifiers, v.depth⟩

/-- The paths of the nodes met so far, by identifier. -/
abbrev Seen := Entries NodePath

/-- Checks a node by itself and against the identifiers met before it. -/
def check (catalog : Catalog) (v : Visit Component) :
    StateT Seen (Except NormalizeError) Element := do
  let here := path v
  match checkAlone catalog v with
  | .error fault => throw ⟨here, fault⟩
  | .ok element =>
    match (← get).lookup v.value.id with
    | some first => throw ⟨here, .duplicateId first⟩
    | none =>
      modify ((v.value.id, here) :: ·)
      return element

end Component

/-! ### Limits -/

/-- Trees that wait to be looked at, each with the path to its root; the first one is next. -/
abbrev Waiting := List (NodePath × ComponentTree)

namespace Waiting

/-- Puts the children of a node on top, the last one first. -/
def push (stack : Waiting) (path : NodePath) (children : List ComponentTree) : Waiting :=
  children.foldr (fun child stack => (path ++ [child.value.id], child) :: stack) stack

/-- The number of nodes that wait. -/
def size (stack : Waiting) : Nat :=
  Tree.sizeAll (stack.map Prod.snd)

theorem size_push (stack : Waiting) (path : NodePath) (children : List ComponentTree) :
    (stack.push path children).size = Tree.sizeAll children + stack.size := by
  induction children with
  | nil => simp [push, Tree.sizeAll]
  | cons child rest ih =>
      have hpush : (stack.push path (child :: rest)).size =
          child.size + (stack.push path rest).size := rfl
      rw [hpush, ih, Tree.sizeAll, Nat.add_assoc]

end Waiting

namespace Limits

/-- Looks at the nodes on the stack, after `count` others, and stops at one that lies too deep or is
one too many. -/
def walk (limits : Limits) (count : Nat) : Waiting → Except NormalizeError Unit
  | [] => .ok ()
  | (path, .node _ children) :: stack =>
    if limits.maxDepth < path.length then
      .error ⟨path, .limitExceeded .depth limits.maxDepth⟩
    else if limits.maxNodes < count + 1 then
      .error ⟨path, .limitExceeded .nodeCount limits.maxNodes⟩
    else walk limits (count + 1) (Waiting.push stack path children)
termination_by stack => stack.size
decreasing_by
  rw [Waiting.size_push]
  simp only [Waiting.size, List.map_cons, Tree.sizeAll, Tree.size]
  omega

/-- Refuses a tree that exceeds the limits.  The walk keeps its own stack, so that a tree of any
depth is refused before something recurses over it. -/
def check (limits : Limits) (root : ComponentTree) : Except NormalizeError Unit :=
  limits.walk 0 [([root.value.id], root)]

end Limits

/-! ### Trees -/

/-- Checks a component tree against a catalog. -/
def normalize (root : ComponentTree) (catalog : Catalog) (limits : Limits) :
    Except NormalizeError NormalTree := do
  limits.check root
  let (elements, _) ← (root.traverse (Component.check catalog)).run []
  return .ofRoot elements

end Screenwright
