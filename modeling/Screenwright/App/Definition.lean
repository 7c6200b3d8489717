/-
App definitions: everything a generated app is made from.
-/
import Screenwright.App.Action
import Screenwright.App.DataModel
import Screenwright.App.Screen
import Screenwright.Design.Tokens

namespace Screenwright

/-- The classes of devices an app runs on. -/
inductive DeviceClass where
  | phone
  | tablet
  | desktop
  | vision
deriving DecidableEq, Repr

/-- What an app asks of the platform. -/
structure Platform where
  minimumOsVersion : String
  devices : List DeviceClass
deriving DecidableEq, Repr

/-- What the design of an app is derived from. -/
structure Appearance where
  primaryColor : Color Float
  accentColor : Option (Color Float)
  /-- Whether the palette is the one for dark ground. -/
  darkTheme : Bool
  supportsDarkMode : Bool
  baseUnit : Float
  baseFontSize : Float
  shadowIntensity : ShadowIntensity

/-- The identity and the settings of an app. -/
structure AppConfig where
  name : String
  bundleId : String
  version : String
  platform : Platform
  appearance : Appearance
  usesPersistence : Bool
  usesCloudSync : Bool

/-- An app. -/
structure AppDefinition where
  config : AppConfig
  screens : List Screen
  models : List DataModel
  /-- The identifier of the screen shown first. -/
  entryScreen : String
  /-- The tabs of the tab bar, if there is one. -/
  tabBar : Option (List TabItem)

namespace DeviceClass

/-- The name of a device class in data. -/
def name : DeviceClass → String
  | phone => "phone"
  | tablet => "tablet"
  | desktop => "desktop"
  | vision => "vision"

/-- The device classes with their names in data. -/
def names : List (String × DeviceClass) :=
  [("phone", phone), ("tablet", tablet), ("desktop", desktop), ("vision", vision)]

end DeviceClass

namespace Platform

/-- The platform of an app that asks for none. -/
def standard : Platform := ⟨"17.0", [.phone]⟩

/-- The record form of a platform. -/
def form : RecordForm Platform where
  name := "Platform"
  strict := false
  fields :=
    [.may "minimumOsVersion" JsonText.readString fun v r => { r with minimumOsVersion := v },
      .may "devices" (JsonText.readList (JsonText.readName .text DeviceClass.names))
        fun v r => { r with devices := v }]

/-- Decodes a platform. -/
def read (t : JsonText) : Decoded Platform :=
  form.read standard t

/-- A platform as data. -/
def toJson (p : Platform) : Json :=
  .object [("minimumOsVersion", .string p.minimumOsVersion),
    ("devices", .array (p.devices.map fun d => .string d.name))]

end Platform

/-- A color in data. -/
def JsonText.readColor (t : JsonText) : Decoded (Color Float) := do
  let s ← t.readString
  match Color.parse s with
  | some color => return color
  | none => throw (.badColor s)

namespace Appearance

/-- The appearance of an app that gives none. -/
def standard : Appearance where
  primaryColor := .solid 0.623 0.188 259.8
  accentColor := none
  darkTheme := false
  supportsDarkMode := true
  baseUnit := 4.0
  baseFontSize := 16.0
  shadowIntensity := .normal

/-- The record form of an appearance. -/
def form : RecordForm Appearance where
  name := "Appearance"
  strict := false
  fields :=
    [.need "primaryColor" JsonText.readColor fun v r => { r with primaryColor := v },
      .may "accentColor" (JsonText.readOption JsonText.readColor)
        fun v r => { r with accentColor := v },
      .may "darkTheme" JsonText.readBool fun v r => { r with darkTheme := v },
      .may "supportsDarkMode" JsonText.readBool fun v r => { r with supportsDarkMode := v },
      .may "baseUnit" JsonText.readFloat fun v r => { r with baseUnit := v },
      .may "baseFontSize" JsonText.readFloat fun v r => { r with baseFontSize := v },
      .may "shadowIntensity" (JsonText.readName .text ShadowIntensity.names)
        fun v r => { r with shadowIntensity := v }]

/-- Decodes an appearance. -/
def read (t : JsonText) : Decoded Appearance :=
  form.read standard t

/-- An appearance as data. -/
def toJson (a : Appearance) : Json :=
  .object ([("primaryColor", .string a.primaryColor.text)] ++
    Json.optionField "accentColor" (fun c => .string c.text) a.accentColor ++
    [("darkTheme", .bool a.darkTheme), ("supportsDarkMode", .bool a.supportsDarkMode),
      ("baseUnit", .float a.baseUnit), ("baseFontSize", .float a.baseFontSize),
      ("shadowIntensity", .string a.shadowIntensity.name)])

/-- What the design tokens are derived from. -/
def tokenInputs (a : Appearance) : TokenInputs :=
  ⟨a.primaryColor, a.accentColor, a.darkTheme, a.baseUnit, a.baseFontSize, a.shadowIntensity⟩

end Appearance

namespace AppConfig

/-- The record form of the settings of an app. -/
def form : RecordForm AppConfig where
  name := "AppConfig"
  strict := false
  fields :=
    [.need "name" JsonText.readString fun v r => { r with name := v },
      .need "bundleId" JsonText.readString fun v r => { r with bundleId := v },
      .may "version" JsonText.readString fun v r => { r with version := v },
      .may "platform" Platform.read fun v r => { r with platform := v },
      .may "appearance" Appearance.read fun v r => { r with appearance := v },
      .may "usesPersistence" JsonText.readBool fun v r => { r with usesPersistence := v },
      .may "usesCloudSync" JsonText.readBool fun v r => { r with usesCloudSync := v }]

/-- Decodes the settings of an app. -/
def read (t : JsonText) : Decoded AppConfig :=
  form.read ⟨"", "", "1.0.0", .standard, .standard, false, false⟩ t

/-- The settings of an app as data. -/
def toJson (c : AppConfig) : Json :=
  .object [("name", .string c.name), ("bundleId", .string c.bundleId),
    ("version", .string c.version), ("platform", c.platform.toJson),
    ("appearance", c.appearance.toJson), ("usesPersistence", .bool c.usesPersistence),
    ("usesCloudSync", .bool c.usesCloudSync)]

/-- The design tokens of an app. -/
def designTokens (c : AppConfig) : DesignTokens :=
  .generate c.name c.version c.appearance.tokenInputs

end AppConfig

namespace TabItem

/-- The record form of a tab bar. -/
def barForm : RecordForm (List TabItem) where
  name := "TabBar"
  strict := false
  fields := [.need "items" (JsonText.readList TabItem.read) fun v _ => v]

end TabItem

namespace AppDefinition

/-- The screen with an identifier. -/
def screen? (app : AppDefinition) (id : String) : Option Screen :=
  app.screens.find? (·.id = id)

/-- The data model with a name. -/
def model? (app : AppDefinition) (name : String) : Option DataModel :=
  app.models.find? (·.name = name)

/-- The models whose values are kept. -/
def persistedModels (app : AppDefinition) : List DataModel :=
  app.models.filter (·.persisted)

/-- The tabs of the tab bar. -/
def tabs (app : AppDefinition) : List TabItem :=
  app.tabBar.getD []

/-- The record form of an app. -/
def form : RecordForm AppDefinition where
  name := "AppDefinition"
  strict := false
  fields :=
    [.need "config" AppConfig.read fun v r => { r with config := v },
      .need "screens" (JsonText.readList Screen.read) fun v r => { r with screens := v },
      .may "models" (JsonText.readList DataModel.read) fun v r => { r with models := v },
      .need "entryScreen" JsonText.readString fun v r => { r with entryScreen := v },
      .may "tabBar" (JsonText.readOption (TabItem.barForm.read []))
        fun v r => { r with tabBar := v }]

/-- Decodes an app. -/
def read (t : JsonText) : Decoded AppDefinition :=
  form.read
    ⟨⟨"", "", "", .standard, .standard, false, false⟩, [], [], "", none⟩ t

/-- Reads an app from a text of its own, behind which nothing may follow. -/
def parse (s : String) : Decoded AppDefinition := do
  let (t, isWhole) := JsonText.ofString s
  let app ← read (t.limitDepth JsonText.maxDepth)
  if isWhole then return app else throw .badText

/-- An app as data. -/
def toJson (app : AppDefinition) : Json :=
  .object ([("config", app.config.toJson), ("screens", .array (app.screens.map Screen.toJson))] ++
    Json.listField "models" DataModel.toJson app.models ++
    [("entryScreen", .string app.entryScreen)] ++
    Json.optionField "tabBar"
      (fun items => .object [("items", .array (items.map TabItem.toJson))]) app.tabBar)

end AppDefinition

end Screenwright
