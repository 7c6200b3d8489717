/-
The size that a frame modifier asks for.

A frame is either fixed or flexible; at least one dimension has to be given.
-/
import Screenwright.Json.Basic
import Screenwright.Catalog.Standard

namespace Screenwright

/-- The dimensions of a frame in the order in which they are written, and its
alignment.  No number stands for a dimension without bound. -/
structure Frame where
  dimensions : List (String × Option Float)
  alignment : Option String

/-- Why a frame is refused. -/
inductive FrameFault where
  | notObject
  | unknownKey (key : String)
  /-- Fixed and flexible dimensions stand together. -/
  | mixed
  | negative (key : String)
  | notDimension (key : String)
  | noDimension
  | unknownAlignment
deriving DecidableEq, Repr

/-- The message of a fault. -/
def FrameFault.message : FrameFault → String
  | notObject => "expects an object with at least one dimension"
  | unknownKey key => "unknown key `" ++ key ++ "`"
  | mixed => "fixed and flexible dimensions cannot be combined"
  | negative key => "`" ++ key ++ "` must be a non-negative number"
  | notDimension key => "`" ++ key ++ "` must be a number or \"infinity\""
  | noDimension => "expects at least one dimension"
  | unknownAlignment => "unknown alignment"

namespace Frame

/-- The dimensions of a fixed frame. -/
def fixedKeys : List String := ["width", "height"]

/-- The dimensions of a flexible frame. -/
def flexibleKeys : List String := ["minWidth", "maxWidth", "minHeight", "maxHeight"]

/-- Whether a key belongs in a frame. -/
def isKey (key : String) : Bool :=
  fixedKeys.contains key || flexibleKeys.contains key || key = "alignment"

/-- A dimension from its value. -/
def readDimension (key : String) (value : Json) : Except FrameFault (Option Float) :=
  match value with
  | .string s => if s = "infinity" then .ok none else .error (.notDimension key)
  | .int n => if 0 ≤ n then .ok (some (Float.ofInt n)) else .error (.negative key)
  | .float x => if x.isFinite && 0.0 ≤ x then .ok (some x) else .error (.negative key)
  | _ => .error (.notDimension key)

/-- The dimensions that are given, in the order of the keys. -/
def readDimensions (fields : Entries Json) :
    List String → Except FrameFault (List (String × Option Float))
  | [] => .ok []
  | key :: keys =>
    match fields.lookup key with
    | none => readDimensions fields keys
    | some value => do
      let dimension ← readDimension key value
      let rest ← readDimensions fields keys
      return (key, dimension) :: rest

/-- The alignment, if one is given. -/
def readAlignment (fields : Entries Json) : Except FrameFault (Option String) :=
  match fields.lookup "alignment" with
  | none => .ok none
  | some (.string s) =>
    if Catalog.alignments.contains s then .ok (some s) else .error .unknownAlignment
  | some _ => .error .unknownAlignment

/-- A frame from an object. -/
def read (value : Json) : Except FrameFault Frame := do
  let some fields := value.object? | throw .notObject
  if let some key := fields.names.find? fun key => !isKey key then throw (.unknownKey key)
  let isFixed := fixedKeys.any fields.has
  let isFlexible := flexibleKeys.any fields.has
  if isFixed && isFlexible then throw .mixed
  let dimensions ← readDimensions fields (if isFlexible then flexibleKeys else fixedKeys)
  if dimensions.isEmpty then throw .noDimension
  let alignment ← readAlignment fields
  return ⟨dimensions, alignment⟩

end Frame

end Screenwright
