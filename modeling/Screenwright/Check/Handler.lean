/-
Custom actions call handlers: functions of the screen's view.

A handler takes the parameters of its action under their names; the type of each
parameter is read off its value.
-/
import Screenwright.App.Action
import Screenwright.Catalog.Fault
import Screenwright.Names.Identifier

namespace Screenwright

/-- The parameters of a handler with their types. -/
abbrev HandlerParams := List (String × String)

namespace Action

/-- The type of a handler parameter with a value. -/
def paramType? : Json → Option String
  | .string _ => some "String"
  | .bool _ => some "Bool"
  | .int n => some (if Json.inIntRange n then "Int" else "Double")
  | .float _ => some "Double"
  | _ => none

/-- One parameter of a handler. -/
def handlerParam (name : String) (value : Json) : Except ActionFault (String × String) :=
  if !Names.isUsable name then .error (.badParameter name)
  else
    match paramType? value with
    | some type => .ok (name, type)
    | none => .error (.badArgument name)

/-- The parameters of the handler that takes the given values. -/
def handlerParams (params : Entries Json) : Except ActionFault HandlerParams :=
  params.mapM fun (name, value) => handlerParam name value

/-- Checks what can be checked of an action without knowing the screens. -/
def check : Action → Except ActionFault Unit
  | custom name params =>
    if !Names.isUsable name then .error (.badHandler name)
    else (handlerParams params).map fun _ => ()
  | _ => .ok ()

end Action

end Screenwright
