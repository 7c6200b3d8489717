/-
Actions: what an interactive node does when it is triggered.

An action is written as an object with its kind under `type`, or as an array of the
kind and the fields of that kind.
-/
import Screenwright.Json.Decoding

namespace Screenwright

/-- What a trigger does. -/
inductive Action where
  /-- Pushes a screen. -/
  | navigate (target : String)
  /-- Presents a screen as a sheet. -/
  | presentSheet (target : String)
  /-- Closes the current presentation. -/
  | dismiss
  /-- Calls a handler of the screen by name. -/
  | custom (name : String) (params : Entries Json)

/-- The role of a button in an alert or a dialog. -/
inductive ButtonRole where
  | cancel
  | destructive
deriving DecidableEq, Repr

/-- A button of an alert or a dialog. -/
structure ActionItem where
  label : String
  role : Option ButtonRole
  action : Option Action

/-- One tab of a tab bar or a tab view. -/
structure TabItem where
  /-- The identifier of the screen the tab shows. -/
  screen : String
  title : String
  icon : String
deriving DecidableEq, Repr

namespace Action

/-- The screen an action leads to. -/
def target? : Action → Option String
  | navigate target => some target
  | presentSheet target => some target
  | dismiss => none
  | custom _ _ => none

/-- The kinds of action. -/
inductive Kind where
  | navigate
  | presentSheet
  | dismiss
  | custom
deriving DecidableEq, Repr

/-- The kinds with their names in data. -/
def kinds : List (String × Kind) :=
  [("navigate", .navigate), ("presentSheet", .presentSheet), ("dismiss", .dismiss),
    ("custom", .custom)]

/-- The kind of an action. -/
def readKind : JsonText → Decoded Kind
  | .string s =>
    match kinds.lookup s with
    | some kind => .ok kind
    | none => .error (.unknownVariant s (kinds.map Prod.fst))
  | t => .error (t.mismatch "variant identifier")

/-- The first value under a name. -/
def member? (name : String) (members : List (Option String × JsonText)) : Option JsonText :=
  members.lookup (some name)

/-- A field of an action that must be there. -/
def needField {α : Type} (name : String) (read : JsonText → Decoded α)
    (members : List (Option String × JsonText)) : Decoded α :=
  match member? name members with
  | some t => read t
  | none => .error (.missingField name)

/-- An action from the fields beside its kind. -/
def ofMembers (kind : Kind) (members : List (Option String × JsonText)) : Decoded Action :=
  match kind with
  | .navigate => (needField "target" JsonText.readString members).map navigate
  | .presentSheet => (needField "target" JsonText.readString members).map presentSheet
  | .dismiss => .ok dismiss
  | .custom => do
    let name ← match member? "name" members with
      | some t => (t.readString).map some
      | none => pure none
    let params ← match member? "params" members with
      | some t => t.readTable
      | none => pure []
    match name with
    | some name => return custom name params
    | none => throw (.missingField "name")

/-- How a message names the fields of a kind. -/
def describeKind (kind : String) (fields : Nat) : String :=
  "struct variant Action::" ++ kind ++ " with " ++ DecodeError.elements fields

/-- An action from the items after its kind. -/
def ofItems (kind : Kind) (items : List JsonText) : Decoded Action :=
  match kind, items with
  | .navigate, [] => .error (.wrongLength 0 (describeKind "Navigate" 1))
  | .navigate, t :: rest => do
    let target ← t.readString
    unless rest.isEmpty do throw (.extraContent items.length 1)
    return navigate target
  | .presentSheet, [] => .error (.wrongLength 0 (describeKind "PresentSheet" 1))
  | .presentSheet, t :: rest => do
    let target ← t.readString
    unless rest.isEmpty do throw (.extraContent items.length 1)
    return presentSheet target
  | .dismiss, [] => .ok dismiss
  | .dismiss, _ :: _ => .error (.extraContent items.length 0)
  | .custom, [] => .error (.wrongLength 0 (describeKind "Custom" 2))
  | .custom, [t] => (t.readString).map fun name => custom name []
  | .custom, t :: u :: rest => do
    let name ← t.readString
    let params ← u.readTable
    unless rest.isEmpty do throw (.extraContent items.length 2)
    return custom name params

/-- Decodes an action. -/
def read : JsonText → Decoded Action
  | .object members => do
    match member? "type" members with
    | some t =>
      let kind ← readKind t
      ofMembers kind members
    | none => throw (.missingField "type")
  | .array [] => .error (.missingField "type")
  | .array (t :: rest) => do
    let kind ← readKind t
    ofItems kind rest
  | t => .error (t.mismatch "internally tagged enum Action")

/-- Decodes an action that is part of a value. -/
def ofJson (j : Json) : Decoded Action :=
  read (.ofJson j)

/-- An action as data. -/
def toJson : Action → Json
  | navigate target => .object [("type", .string "navigate"), ("target", .string target)]
  | presentSheet target =>
    .object [("type", .string "presentSheet"), ("target", .string target)]
  | dismiss => .object [("type", .string "dismiss")]
  | custom name params =>
    .object ([("type", .string "custom"), ("name", .string name)] ++
      (if params.isEmpty then [] else [("params", .object params)]))

end Action

namespace ButtonRole

/-- The roles with their names in data. -/
def names : List (String × ButtonRole) :=
  [("cancel", cancel), ("destructive", destructive)]

/-- The name of a role in data. -/
def name : ButtonRole → String
  | cancel => "cancel"
  | destructive => "destructive"

end ButtonRole

namespace ActionItem

/-- The record form of a button. -/
def form : RecordForm ActionItem where
  name := "ActionItem"
  strict := false
  fields :=
    [.need "label" JsonText.readString fun v r => { r with label := v },
      .may "role" (JsonText.readOption (JsonText.readName .value ButtonRole.names))
        fun v r => { r with role := v },
      .may "action" (JsonText.readOption Action.read) fun v r => { r with action := v }]

/-- Decodes a button. -/
def read (t : JsonText) : Decoded ActionItem :=
  form.read ⟨"", none, none⟩ t

/-- A button as data. -/
def toJson (item : ActionItem) : Json :=
  .object ([("label", .string item.label)] ++
    (item.role.map fun r => ("role", Json.string r.name)).toList ++
    (item.action.map fun a => ("action", a.toJson)).toList)

end ActionItem

namespace TabItem

/-- The record form of a tab. -/
def form : RecordForm TabItem where
  name := "TabItem"
  strict := false
  fields :=
    [.need "screen" JsonText.readString fun v r => { r with screen := v },
      .need "title" JsonText.readString fun v r => { r with title := v },
      .need "icon" JsonText.readString fun v r => { r with icon := v }]

/-- Decodes a tab. -/
def read (t : JsonText) : Decoded TabItem :=
  form.read ⟨"", "", ""⟩ t

/-- A tab as data. -/
def toJson (item : TabItem) : Json :=
  .object [("screen", .string item.screen), ("title", .string item.title),
    ("icon", .string item.icon)]

end TabItem

end Screenwright
