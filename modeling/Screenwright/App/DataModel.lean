/-
Data models: named records of typed properties.
-/
import Screenwright.App.Component
import Screenwright.App.ValueType

namespace Screenwright

/-- A stored property of a data model. -/
structure ModelProperty where
  name : String
  type : ValueType
  default : Option Json
  persisted : Bool

/-- A data model. -/
structure DataModel where
  name : String
  properties : List ModelProperty
  /-- Whether values of the model are kept in the store of the app. -/
  persisted : Bool

namespace ModelProperty

/-- The record form of a property. -/
def form : RecordForm ModelProperty where
  name := "ModelProperty"
  strict := false
  fields :=
    [.need "name" JsonText.readString fun v r => { r with name := v },
      .need "type" ValueType.read fun v r => { r with type := v },
      .may "default" (JsonText.readOption JsonText.readValue)
        fun v r => { r with default := v },
      .may "persisted" JsonText.readBool fun v r => { r with persisted := v }]

/-- Decodes a property. -/
def read (t : JsonText) : Decoded ModelProperty :=
  form.read ⟨"", .string, none, true⟩ t

/-- A property as data. -/
def toJson (p : ModelProperty) : Json :=
  .object ([("name", .string p.name), ("type", p.type.toJson)] ++
    Json.optionField "default" id p.default ++ [("persisted", .bool p.persisted)])

end ModelProperty

namespace DataModel

/-- The names of the models that the properties hold. -/
def heldModels (model : DataModel) : List String :=
  model.properties.filterMap (·.type.heldModel?)

/-- The record form of a data model. -/
def form : RecordForm DataModel where
  name := "DataModel"
  strict := false
  fields :=
    [.need "name" JsonText.readString fun v r => { r with name := v },
      .need "properties" (JsonText.readList ModelProperty.read)
        fun v r => { r with properties := v },
      .may "persisted" JsonText.readBool fun v r => { r with persisted := v }]

/-- Decodes a data model. -/
def read (t : JsonText) : Decoded DataModel :=
  form.read ⟨"", [], false⟩ t

/-- A data model as data. -/
def toJson (m : DataModel) : Json :=
  .object [("name", .string m.name), ("properties", .array (m.properties.map ModelProperty.toJson)),
    ("persisted", .bool m.persisted)]

end DataModel

end Screenwright
