/-
Screens and the variables they declare.
-/
import Screenwright.App.Component
import Screenwright.App.ValueType

namespace Screenwright

/-- A typed variable of a screen. -/
structure Variable where
  name : String
  type : ValueType
  default : Option Json

/-- A screen. -/
structure Screen where
  id : String
  /-- The name that is shown as the title. -/
  name : String
  deepLink : Option String
  /-- The inputs, each with a default. -/
  parameters : List Variable
  /-- The declared state. -/
  state : List Variable
  root : ComponentTree

namespace Variable

/-- The record form of a variable. -/
def form : RecordForm Variable where
  name := "VariableDecl"
  strict := false
  fields :=
    [.need "name" JsonText.readString fun v r => { r with name := v },
      .need "type" ValueType.read fun v r => { r with type := v },
      .may "default" (JsonText.readOption JsonText.readValue)
        fun v r => { r with default := v }]

/-- Decodes a variable. -/
def read (t : JsonText) : Decoded Variable :=
  form.read ⟨"", .string, none⟩ t

/-- A variable as data. -/
def toJson (v : Variable) : Json :=
  .object ([("name", .string v.name), ("type", v.type.toJson)] ++
    Json.optionField "default" id v.default)

end Variable

namespace Screen

/-- The variables in the order of their declaration. -/
def declared (screen : Screen) : List Variable :=
  screen.parameters ++ screen.state

/-- The record form of a screen. -/
def form : RecordForm Screen where
  name := "Screen"
  strict := false
  fields :=
    [.need "id" JsonText.readString fun v r => { r with id := v },
      .need "name" JsonText.readString fun v r => { r with name := v },
      .may "deepLink" (JsonText.readOption JsonText.readString)
        fun v r => { r with deepLink := v },
      .may "parameters" (JsonText.readList Variable.read) fun v r => { r with parameters := v },
      .may "state" (JsonText.readList Variable.read) fun v r => { r with state := v },
      .need "root" Component.readTree fun v r => { r with root := v }]

/-- Decodes a screen. -/
def read (t : JsonText) : Decoded Screen :=
  form.read ⟨"", "", none, [], [], .node ⟨"", "", [], [], []⟩ []⟩ t

/-- A screen as data. -/
def toJson (s : Screen) : Json :=
  .object ([("id", .string s.id), ("name", .string s.name)] ++
    Json.optionField "deepLink" .string s.deepLink ++
    Json.listField "parameters" Variable.toJson s.parameters ++
    Json.listField "state" Variable.toJson s.state ++
    [("root", Component.treeJson s.root)])

end Screen

end Screenwright
