/-
Values of component properties.

A component's properties arrive as JSON and become values of these kinds once its schema
has accepted them.
-/
import Screenwright.App.Action
import Screenwright.Design.Slot

namespace Screenwright

/-- A typed property value. -/
inductive PropValue where
  | string (s : String)
  | number (x : Float)
  | integer (n : Int)
  | bool (b : Bool)
  /-- One of a fixed list of words. -/
  | choice (word : String)
  | token (token : TokenRef)
  | action (action : Action)
  | actions (items : List ActionItem)
  /-- The identifier of a screen. -/
  | screen (id : String)
  | tabs (items : List TabItem)
  | strings (items : List String)

/-- Typed properties by name, in the order of their schema. -/
abbrev Props := Entries PropValue

namespace TokenRef

/-- The record form of a token reference. -/
def form : RecordForm TokenRef where
  name := "TokenRef"
  strict := false
  fields :=
    [.need "kind" (JsonText.readName .text TokenKind.names) fun v r => { r with kind := v },
      .need "slot" JsonText.readString fun v r => { r with slot := v }]

/-- A token reference as data. -/
def toJson (token : TokenRef) : Json :=
  .object [("kind", .string token.kind.name), ("slot", .string token.slot)]

end TokenRef

namespace PropValue

/-- The text, if the value is one of the kinds that are texts. -/
def text? : PropValue → Option String
  | string s => some s
  | choice s => some s
  | screen s => some s
  | _ => none

/-- The number, if the value is one. -/
def number? : PropValue → Option Float
  | number x => some x
  | integer n => some (Float.ofInt n)
  | _ => none

/-- The whole number, if the value is one. -/
def integer? : PropValue → Option Int
  | integer n => some n
  | _ => none

/-- The boolean, if the value is one. -/
def bool? : PropValue → Option Bool
  | bool b => some b
  | _ => none

/-- The token reference, if the value is one. -/
def token? : PropValue → Option TokenRef
  | token t => some t
  | _ => none

/-- The actions in the value. -/
def heldActions : PropValue → List Action
  | action a => [a]
  | actions items => items.filterMap ActionItem.action
  | _ => []

/-- A signed 64-bit number. -/
def readInt : JsonText → Decoded Int
  | .int n => if Json.inIntRange n then .ok n else .error (.wrongValue (.int n) "i64")
  | t => .error (t.mismatch "i64")

/-- The readers of the kinds of values by their names in data. -/
def readers : List (String × (JsonText → Decoded PropValue)) :=
  [("string", fun t => (t.readString).map string),
    ("number", fun t => (t.readFloat).map number),
    ("integer", fun t => (readInt t).map integer),
    ("bool", fun t => (t.readBool).map bool),
    ("enum", fun t => (t.readString).map choice),
    ("token", fun t => (TokenRef.form.read ⟨.color, ""⟩ t).map token),
    ("action", fun t => (Action.read t).map action),
    ("actions", fun t => (t.readList ActionItem.read).map actions),
    ("screen", fun t => (t.readString).map screen),
    ("tabs", fun t => (t.readList TabItem.read).map tabs),
    ("strings", fun t => (t.readList JsonText.readString).map strings)]

/-- The content of a value of the named kind. -/
def readContent (kind : JsonText) (content : Option JsonText) : Decoded PropValue := do
  let name ← kind.readString
  let some reader := readers.lookup name
    | throw (.unknownVariant name (readers.map Prod.fst))
  let some content := content | throw (.missingField "value")
  reader content

/-- Decodes a value written with its kind. -/
def read : JsonText → Decoded PropValue
  | .object members =>
    match Action.member? "kind" members with
    | some kind => readContent kind (Action.member? "value" members)
    | none => .error (.missingField "kind")
  | .array [] => .error (.wrongLength 0 "adjacently tagged enum PropValue")
  | .array (kind :: rest) => readContent kind rest.head?
  | t => .error (t.mismatch "adjacently tagged enum PropValue")

/-- A value as data, with its kind. -/
def toJson (v : PropValue) : Json :=
  let tagged (kind : String) (content : Json) : Json :=
    .object [("kind", .string kind), ("value", content)]
  match v with
  | string s => tagged "string" (.string s)
  | number x => tagged "number" (.float x)
  | integer n => tagged "integer" (.int n)
  | bool b => tagged "bool" (.bool b)
  | choice s => tagged "enum" (.string s)
  | token t => tagged "token" t.toJson
  | action a => tagged "action" a.toJson
  | actions items => tagged "actions" (.array (items.map ActionItem.toJson))
  | screen s => tagged "screen" (.string s)
  | tabs items => tagged "tabs" (.array (items.map TabItem.toJson))
  | strings items => tagged "strings" (.array (items.map .string))

end PropValue

end Screenwright
