/-
The kinds of properties, and how a raw value becomes a typed one.
-/
import Screenwright.App.PropValue
import Screenwright.Catalog.Fault

namespace Screenwright

/-- The kind of a property. -/
inductive PropKind where
  | string
  /-- A number within bounds. -/
  | number (low high : Option Float)
  /-- A whole number within bounds. -/
  | integer (low high : Option Int)
  | bool
  /-- One of the given words. -/
  | choice (words : List String)
  | token (kind : TokenKind)
  | action
  | actions
  | screen
  | tabs
  | strings

namespace PropKind

/-- Any number. -/
def anyNumber : PropKind := number none none

/-- Any whole number. -/
def anyInteger : PropKind := integer none none

/-- Refuses a number outside the bounds, the lower one first. -/
def checkRange (x : Float) (low high : Option Float) : Except PropFault Unit := do
  if let some bound := low then
    if x < bound then throw (.belowMinimum x bound)
  if let some bound := high then
    if bound < x then throw (.aboveMaximum x bound)

/-- A string that is not empty. -/
def nonEmpty (value : Json) : Except PropFault String :=
  match value.string? with
  | some s => if s = "" then throw .empty else return s
  | none => throw (.wrongType "a string" value)

/-- Decodes a list of items inside a value. -/
def readItems {α : Type} (read : JsonText → Decoded α) (value : Json) : Decoded (List α) :=
  (JsonText.ofJson value).readList read

/-- The typed value a raw value stands for. -/
def coerce (kind : PropKind) (value : Json) : Except PropFault PropValue :=
  match kind with
  | string =>
    match value.string? with
    | some s => return .string s
    | none => throw (.wrongType "a string" value)
  | number low high => do
    let some x := value.float? | throw (.wrongType "a number" value)
    checkRange x low high
    return .number x
  | integer low high => do
    let some n := value.int? | throw (.wrongType "an integer" value)
    checkRange (Float.ofInt n) (low.map Float.ofInt) (high.map Float.ofInt)
    return .integer n
  | bool =>
    match value.bool? with
    | some b => return .bool b
    | none => throw (.wrongType "a boolean" value)
  | choice words => do
    let some s := value.string? | throw (.wrongType "a string" value)
    if words.contains s then return .choice s else throw (.notListed s words)
  | token kind => do
    let slot ← nonEmpty value
    if kind.accepts slot then return .token ⟨kind, slot⟩ else throw (.unknownToken kind slot)
  | action =>
    match Action.ofJson value with
    | .ok a => return .action a
    | .error e => throw (.malformedAction e)
  | actions =>
    match readItems ActionItem.read value with
    | .ok items => return .actions items
    | .error e => throw (.malformedActions e)
  | screen => (nonEmpty value).map .screen
  | tabs =>
    match readItems TabItem.read value with
    | .ok items => if items.isEmpty then throw .noTabs else return .tabs items
    | .error e => throw (.malformedTabs e)
  | strings =>
    match readItems JsonText.readString value with
    | .ok items => return .strings items
    | .error _ => throw (.wrongType "a list of strings" value)

end PropKind

end Screenwright
