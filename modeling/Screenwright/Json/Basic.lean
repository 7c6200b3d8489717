/-
JSON values.

A value holds every object sorted by name with no name twice, which is how
`Json.putField` builds it, so that the order in which a text lists the members of an
object inside a value is never visible.  Whole numbers within the signed and unsigned
64-bit ranges are kept exact; every other number is a float.
-/
import Screenwright.Entries

namespace Screenwright

/-- A JSON value. -/
inductive Json where
  | null
  | bool (b : Bool)
  | int (n : Int)
  | float (x : Float)
  | string (s : String)
  | array (items : List Json)
  | object (fields : List (String × Json))
deriving Inhabited

namespace Json

/-- Puts a field into a sorted object; a name that is there takes the new value. -/
def putField {α : Type} (name : String) (value : α) : Entries α → Entries α
  | [] => [(name, value)]
  | (n, v) :: rest =>
    if name = n then (name, value) :: rest
    else if name < n then (name, value) :: (n, v) :: rest
    else (n, v) :: putField name value rest

/-- The smallest signed 64-bit number. -/
def minInt : Int := -0x8000000000000000

/-- The largest signed 64-bit number. -/
def maxInt : Int := 0x7FFFFFFFFFFFFFFF

/-- Whether a whole number is a signed 64-bit number. -/
def inIntRange (n : Int) : Bool :=
  minInt ≤ n && n ≤ maxInt

/-- The string, if the value is one. -/
def string? : Json → Option String
  | .string s => some s
  | _ => none

/-- The boolean, if the value is one. -/
def bool? : Json → Option Bool
  | .bool b => some b
  | _ => none

/-- The signed 64-bit number, if the value is one. -/
def int? : Json → Option Int
  | .int n => if inIntRange n then some n else none
  | _ => none

/-- The number as a float, if the value is one. -/
def float? : Json → Option Float
  | .int n => some (Float.ofInt n)
  | .float x => some x
  | _ => none

/-- The items, if the value is an array. -/
def array? : Json → Option (List Json)
  | .array items => some items
  | _ => none

/-- The fields, if the value is an object. -/
def object? : Json → Option (Entries Json)
  | .object fields => some fields
  | _ => none

/-- Whether the value is `null`. -/
def isNull : Json → Bool
  | .null => true
  | _ => false

end Json

end Screenwright
