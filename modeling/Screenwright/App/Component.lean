/-
Component trees, as an app definition describes them.

A component names its type and carries properties that nothing has checked yet, bindings
of properties to data, and modifiers in the order in which they apply.
-/
import Screenwright.Json.Decoding
import Screenwright.Tree

namespace Screenwright

/-- Where a bound value comes from. -/
inductive BindingSource where
  /-- The state of the view. -/
  | state
  /-- The environment of the framework. -/
  | environment
  /-- An input of the screen. -/
  | parameter
deriving DecidableEq, Repr

/-- A property bound to a path in a source. -/
structure DataBinding where
  property : String
  source : BindingSource
  /-- Names with dots between them. -/
  path : String
deriving DecidableEq, Repr

/-- A named transformation of a component. -/
structure Modifier where
  name : String
  args : List Json

/-- A component without its children. -/
structure Component where
  id : String
  type : String
  props : Entries Json
  bindings : List DataBinding
  modifiers : List Modifier

/-- A component with all that is below it. -/
abbrev ComponentTree := Tree Component

namespace BindingSource

/-- The name of a source. -/
def name : BindingSource → String
  | state => "state"
  | environment => "environment"
  | parameter => "parameter"

/-- The sources with their names. -/
def names : List (String × BindingSource) :=
  [("state", state), ("environment", environment), ("parameter", parameter)]

end BindingSource

namespace DataBinding

/-- The names of a path. -/
def segmentsOf (path : String) : List String :=
  Text.segments '.' path

/-- The first name of a path. -/
def rootOf (path : String) : String :=
  (segmentsOf path).headD ""

/-- The names of the path. -/
def segments (binding : DataBinding) : List String :=
  segmentsOf binding.path

/-- The first name of the path. -/
def root (binding : DataBinding) : String :=
  rootOf binding.path

/-- The record form of a binding. -/
def form : RecordForm DataBinding where
  name := "DataBinding"
  strict := false
  fields :=
    [.need "property" JsonText.readString fun v r => { r with property := v },
      .need "source" (JsonText.readName .text BindingSource.names)
        fun v r => { r with source := v },
      .need "path" JsonText.readString fun v r => { r with path := v }]

/-- Decodes a binding. -/
def read (t : JsonText) : Decoded DataBinding :=
  form.read ⟨"", .state, ""⟩ t

/-- A binding as data. -/
def toJson (binding : DataBinding) : Json :=
  .object [("property", .string binding.property), ("source", .string binding.source.name),
    ("path", .string binding.path)]

end DataBinding

/-- A field as data that is left out if its list is empty. -/
def Json.listField {α : Type} (name : String) (toJson : α → Json) (items : List α) :
    Entries Json :=
  if items.isEmpty then [] else [(name, .array (items.map toJson))]

/-- A field as data that is left out if there is no value. -/
def Json.optionField {α : Type} (name : String) (toJson : α → Json) (value : Option α) :
    Entries Json :=
  (value.map fun v => (name, toJson v)).toList

namespace Modifier

/-- The record form of a modifier. -/
def form : RecordForm Modifier where
  name := "Modifier"
  strict := false
  fields :=
    [.need "name" JsonText.readString fun v r => { r with name := v },
      .may "args" (JsonText.readList JsonText.readValue) fun v r => { r with args := v }]

/-- Decodes a modifier. -/
def read (t : JsonText) : Decoded Modifier :=
  form.read ⟨"", []⟩ t

/-- A modifier as data. -/
def toJson (m : Modifier) : Json :=
  .object ([("name", .string m.name)] ++ Json.listField "args" id m.args)

end Modifier

/-! ### Trees as data -/

mutual

/-- How many containers of a text lie inside each other. -/
def JsonText.depth : JsonText → Nat
  | .array items => 1 + JsonText.itemsDepth items
  | .object members => 1 + JsonText.membersDepth members
  | _ => 0

/-- The greatest depth of some items. -/
def JsonText.itemsDepth : List JsonText → Nat
  | [] => 0
  | t :: ts => max (JsonText.depth t) (JsonText.itemsDepth ts)

/-- The greatest depth of some members. -/
def JsonText.membersDepth : List (Option String × JsonText) → Nat
  | [] => 0
  | (_, t) :: ts => max (JsonText.depth t) (JsonText.membersDepth ts)

end

/-- A component tree that is being read: the component and the trees below it. -/
abbrev Component.Draft := Component × List ComponentTree

namespace Component

/-- The record form of a component whose children `readChild` decodes. -/
def form (readChild : JsonText → Decoded ComponentTree) : RecordForm Draft where
  name := "ComponentNode"
  strict := false
  fields :=
    [.need "id" JsonText.readString fun v r => ({ r.1 with id := v }, r.2),
      .need "type" JsonText.readString fun v r => ({ r.1 with type := v }, r.2),
      .may "props" JsonText.readTable fun v r => ({ r.1 with props := v }, r.2),
      .may "children" (JsonText.readList readChild) fun v r => (r.1, v),
      .may "bindings" (JsonText.readList DataBinding.read)
        fun v r => ({ r.1 with bindings := v }, r.2),
      .may "modifiers" (JsonText.readList Modifier.read)
        fun v r => ({ r.1 with modifiers := v }, r.2)]

/-- Decodes a component tree of at most `levels` levels. -/
def readLevels : Nat → JsonText → Decoded ComponentTree
  | 0, _ => .error .badText
  | levels + 1, t =>
    ((form (readLevels levels)).read (⟨"", "", [], [], []⟩, []) t).map fun (c, ts) => .node c ts

/-- Decodes a component tree.  Every level of components is a container of its own, so
the depth of the text bounds the levels. -/
def readTree (t : JsonText) : Decoded ComponentTree :=
  readLevels (t.depth + 1) t

mutual

/-- A component tree as data. -/
def treeJson : ComponentTree → Json
  | .node c ts =>
    .object ([("id", .string c.id), ("type", .string c.type)] ++
      (if c.props.isEmpty then [] else [("props", .object c.props)]) ++
      (if ts.isEmpty then [] else [("children", .array (treesJson ts))]) ++
      Json.listField "bindings" DataBinding.toJson c.bindings ++
      Json.listField "modifiers" Modifier.toJson c.modifiers)

/-- Several component trees as data. -/
def treesJson : List ComponentTree → List Json
  | [] => []
  | t :: ts => treeJson t :: treesJson ts

end

end Component

end Screenwright
