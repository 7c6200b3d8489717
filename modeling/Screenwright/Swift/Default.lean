/-
Initial values of variables and properties.

A declared default has to be a literal of its type; `null` counts as no default, and
without one the zero value of the type stands in.
-/
import Screenwright.Json.Written
import Screenwright.Swift.Code

namespace Screenwright.Swift

/-- Why a default is refused. -/
inductive DefaultFault where
  | mismatch (type : ValueType) (found : Json)
  /-- A date other than the current one. -/
  | notNow
  /-- Values of data models have no literals. -/
  | noLiteral

/-- The message of a fault. -/
def DefaultFault.message : DefaultFault → String
  | mismatch type found =>
    "expected a " ++ typeText type ++ " literal, found " ++ found.compact
  | notNow => "dates only accept \"now\" as a default"
  | noLiteral => "model values cannot have a literal default"

/-- The zero value of a type. -/
def zeroValue : ValueType → Value
  | .string => .string ""
  | .int => .int 0
  | .double => .number 0.0
  | .bool => .bool false
  | .date => .member "now"
  | .array _ => .array []
  | .optional _ => .nil
  | .model name => .call (typeText (.model name)) []

/-- A literal of a type that is not `null`. -/
def literal (type : ValueType) (value : Json) : Except DefaultFault Value :=
  if value.isNull then .ok (zeroValue type)
  else
    let orMismatch (v : Option Value) : Except DefaultFault Value :=
      match v with
      | some v => .ok v
      | none => .error (.mismatch type value)
    match type with
    | .string => orMismatch (value.string?.map .string)
    | .int => orMismatch (value.int?.map .int)
    | .double => orMismatch (value.float?.map .number)
    | .bool => orMismatch (value.bool?.map .bool)
    | .date => if value.string? = some "now" then .ok (.member "now") else .error .notNow
    | .array item =>
      match value.array? with
      | none => .error (.mismatch type value)
      | some items => (items.mapM (literal item)).map .array
    | .optional inner => literal inner value
    | .model _ => .error .noLiteral

/-- The value of a declared default. -/
def defaultValue (type : ValueType) : Option Json → Except DefaultFault Value
  | none => .ok (zeroValue type)
  | some value => literal type value

end Screenwright.Swift
