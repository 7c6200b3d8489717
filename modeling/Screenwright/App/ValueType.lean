/-
The types of stored values.

Variables of a screen and properties of data models have one of these types.
-/
import Screenwright.Json.Decoding

namespace Screenwright

/-- The type of a variable or of a model property. -/
inductive ValueType where
  | string
  | int
  | double
  | bool
  | date
  | array (item : ValueType)
  | optional (inner : ValueType)
  | model (name : String)
deriving DecidableEq, Repr

namespace ValueType

/-- The data model that a value of the type holds, if any. -/
def heldModel? : ValueType → Option String
  | model name => some name
  | array item => item.heldModel?
  | optional inner => inner.heldModel?
  | _ => none

/-- The names of the types in data. -/
def names : List String :=
  ["string", "int", "double", "bool", "date", "array", "optional", "model"]

/-- The types without content. -/
def plain : List (String × ValueType) :=
  [("string", string), ("int", int), ("double", double), ("bool", bool), ("date", date)]

/-- Decodes a type. -/
def read : JsonText → Decoded ValueType
  | .string s =>
    match plain.lookup s with
    | some type => .ok type
    | none =>
      if names.contains s then .error (.wrongType .unitVariant "newtype variant")
      else .error (.unknownVariant s names)
  | .object [] => .error .notSingleField
  | .object ((none, _) :: _) => .error .badText
  | .object ((some name, content) :: rest) => do
    let type ←
      if name = "array" then (read content).map array
      else if name = "optional" then (read content).map optional
      else if name = "model" then content.readString.map model
      else
        match plain.lookup name with
        | some type => content.readUnit.map fun _ => type
        | none => throw (.unknownVariant name names)
    unless rest.isEmpty do throw .notSingleField
    return type
  | .buried (.object _) => .error .badText
  | t => .error t.variantMismatch

/-- A type as data. -/
def toJson : ValueType → Json
  | string => .string "string"
  | int => .string "int"
  | double => .string "double"
  | bool => .string "bool"
  | date => .string "date"
  | array item => .object [("array", item.toJson)]
  | optional inner => .object [("optional", inner.toJson)]
  | model name => .object [("model", .string name)]

end ValueType

end Screenwright
