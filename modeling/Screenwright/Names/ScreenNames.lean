/-
The names that generated code gives to screens.
-/
import Screenwright.App.Screen
import Screenwright.Entries
import Screenwright.Names.Identifier
import Screenwright.Names.Words

namespace Screenwright

/-- The generated names of a screen. -/
structure ScreenNames where
  /-- The type of its view. -/
  viewType : String
  /-- The case of its route, before reserved words are escaped. -/
  handle : String
  /-- The name shown in titles. -/
  title : String
deriving DecidableEq, Repr

/-- The names of the screens by identifier, in screen order. -/
abbrev ScreenIndex := Entries ScreenNames

namespace ScreenNames

/-- The names of a screen with an identifier and a display name. -/
def ofIdAndName (id name : String) : ScreenNames where
  viewType :=
    (((Names.typeName? name).orElse fun _ => Names.typeName? id).getD "Screen") ++ "View"
  handle := Names.memberName id
  title := name

/-- The names of a screen. -/
def ofScreen (screen : Screen) : ScreenNames :=
  ofIdAndName screen.id screen.name

/-- The case of the route as it is written. -/
def routeCase (names : ScreenNames) : String :=
  Names.escapeMember names.handle

/-- The state that tells whether the screen is presented as a sheet. -/
def presentationFlag (names : ScreenNames) : String :=
  "isPresenting" ++ String.ofList (Names.upperCamel names.handle.toList)

/-- The names of several screens; the first screen of an identifier wins. -/
def index (screens : List Screen) : ScreenIndex :=
  screens.foldl (fun table screen => Entries.putNew screen.id (ofScreen screen) table) []

end ScreenNames

end Screenwright
