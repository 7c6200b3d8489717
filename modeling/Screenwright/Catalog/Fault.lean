/-
What can be wrong with the properties of a component.
-/
import Screenwright.Design.Slot
import Screenwright.Json.Decoding

namespace Screenwright

/-- Why an action cannot be used whatever screens there are. -/
inductive ActionFault where
  /-- The handler's name cannot name a function. -/
  | badHandler (name : String)
  /-- A parameter's name cannot name a parameter. -/
  | badParameter (name : String)
  /-- A parameter is neither a string nor a number nor a boolean. -/
  | badArgument (name : String)
deriving DecidableEq, Repr

/-- Why a property is refused. -/
inductive PropFault where
  /-- The component has no such property. -/
  | unknown
  /-- A required property is missing. -/
  | missing
  | wrongType (expected : String) (found : Json)
  /-- The word is not in the list of the property. -/
  | notListed (word : String) (allowed : List String)
  | belowMinimum (x bound : Float)
  | aboveMaximum (x bound : Float)
  | empty
  | unknownToken (kind : TokenKind) (slot : String)
  | malformedAction (error : DecodeError)
  | malformedActions (error : DecodeError)
  | malformedTabs (error : DecodeError)
  | noTabs
  /-- The lower bound of a range is not below the upper one. -/
  | boundsNotIncreasing
  /-- The lower bound of a range is above the upper one. -/
  | boundsDecreasing
  | notPositive
  | unusableAction (fault : ActionFault)
  /-- The schema of the component says that its type is there twice. -/
  | registeredTwice

/-- What a value is, in words. -/
def Json.describe : Json → String
  | .null => "null"
  | .bool _ => "a boolean"
  | .int _ => "a number"
  | .float _ => "a number"
  | .string _ => "a string"
  | .array _ => "a list"
  | .object _ => "an object"

/-- The message of a fault. -/
def ActionFault.message : ActionFault → String
  | badHandler name => "`" ++ name ++ "` is not a valid handler name"
  | badParameter name => "`" ++ name ++ "` is not a valid parameter name"
  | badArgument name => "parameter `" ++ name ++ "` must be a string, number or boolean"

/-- The message of a fault. -/
def PropFault.message : PropFault → String
  | unknown => "unknown property"
  | missing => "required property is missing"
  | wrongType expected found => "expected " ++ expected ++ ", found " ++ found.describe
  | notListed word allowed =>
    "`" ++ word ++ "` is not one of [" ++ Text.join ", " allowed ++ "]"
  | belowMinimum x bound =>
    Number.plain x ++ " is below the minimum " ++ Number.plain bound
  | aboveMaximum x bound =>
    Number.plain x ++ " is above the maximum " ++ Number.plain bound
  | empty => "must not be empty"
  | unknownToken kind slot => "unknown " ++ kind.title ++ " token `" ++ slot ++ "`"
  | malformedAction e => "malformed action: " ++ e.message .value
  | malformedActions e => "malformed action list: " ++ e.message .value
  | malformedTabs e => "malformed tab list: " ++ e.message .value
  | noTabs => "tab list must not be empty"
  | boundsNotIncreasing => "must be less than `max`"
  | boundsDecreasing => "must not exceed `max`"
  | notPositive => "must be positive"
  | unusableAction fault => fault.message
  | registeredTwice => "schema registered twice"

end Screenwright
