/-
Generating an app: from its definition to its files.

The checks run in a fixed order and nothing is generated unless all of them pass.  The
warnings do not depend on what is written into the files.
-/
import Screenwright.Lowering.Entry
import Screenwright.Reach

namespace Screenwright

open Swift (SourceFile ScreenView DataType)

/-- Why the settings of an app cannot be used. -/
inductive SettingsFault where
  | noName (name : String)
  | badBundleId (id : String)
  | badVersion (version : String)
  | badOsVersion (version : String)
  | noDevices
  | badColor (field : String)
  | notPositive (field : String) (x : Float)
  /-- The fault lies with the generator's own configuration. -/
  | generator (fault : ConfigFault)

/-- Why an app cannot be generated. -/
inductive GenerateError where
  | invalidConfig (fault : SettingsFault)
  | invalidModel (model : String) (fault : ModelFault)
  | normalize (screen : String) (error : NormalizeError)
  | references (errors : List ReferenceError)
  | build (screen : String) (error : BuildError)

/-- A generated app. -/
structure GeneratedApp where
  files : List SourceFile
  warnings : List String
deriving DecidableEq, Repr

/-- The message of a fault. -/
def SettingsFault.message : SettingsFault → String
  | noName name => "app name `" ++ name ++ "` has no usable characters"
  | badBundleId id => "`" ++ id ++ "` is not a reverse-DNS bundle identifier"
  | badVersion version => "`" ++ version ++ "` is not a semantic version"
  | badOsVersion version => "`" ++ version ++ "` is not an OS version"
  | noDevices => "at least one device class is required"
  | badColor field => "`" ++ field ++ "` is not a valid OKLCH color"
  | notPositive field x =>
    "`" ++ field ++ "` must be a positive number, got " ++ Number.plain x
  | generator fault => fault.message

/-- The message of an error. -/
def GenerateError.message : GenerateError → String
  | invalidConfig fault => "Invalid configuration: " ++ fault.message
  | invalidModel model fault => "Invalid data model `" ++ model ++ "`: " ++ fault.message
  | normalize screen e => "Screen `" ++ screen ++ "`: " ++ e.message
  | references errors => ReferenceError.report errors
  | build screen e => "Screen `" ++ screen ++ "`: " ++ e.message

/-! ### Settings -/

/-- Refuses a measure that is not a positive number. -/
def checkPositive (field : String) (x : Float) : Except SettingsFault Unit :=
  if x.isFinite && 0.0 < x then .ok () else .error (.notPositive field x)

/-- Refuses a color outside its ranges. -/
def checkColor (field : String) (color : Color Float) : Except SettingsFault Unit :=
  if color.isValid then .ok () else .error (.badColor field)

/-- Refuses settings that a generated app could not carry. -/
def AppConfig.check (config : AppConfig) : Except SettingsFault Unit := do
  if (Names.typeName? config.name).isNone then throw (.noName config.name)
  unless Names.isBundleId config.bundleId do throw (.badBundleId config.bundleId)
  unless Names.isVersion config.version do throw (.badVersion config.version)
  unless Names.isOsVersion config.platform.minimumOsVersion do
    throw (.badOsVersion config.platform.minimumOsVersion)
  if config.platform.devices.isEmpty then throw .noDevices
  checkColor "primaryColor" config.appearance.primaryColor
  if let some accent := config.appearance.accentColor then checkColor "accentColor" accent
  checkPositive "baseUnit" config.appearance.baseUnit
  checkPositive "baseFontSize" config.appearance.baseFontSize

/-! ### Warnings -/

namespace AppDefinition

/-- The data models with the models that they hold. -/
def modelGraph (app : AppDefinition) : Graph :=
  app.models.map fun m => (m.name, m.heldModels)

/-- The data models that the variables of screens and the persisted models hold. -/
def heldModels (app : AppDefinition) : List String :=
  (app.screens.flatMap Screen.declared).filterMap (·.type.heldModel?) ++
    app.persistedModels.flatMap DataModel.heldModels

/-- The data models in use. -/
def usedModels (app : AppDefinition) : List String :=
  app.modelGraph.reach app.heldModels

/-- The screens at which an app can be entered. -/
def entries (app : AppDefinition) : List String :=
  app.entryScreen :: app.tabs.map TabItem.screen ++
    (app.screens.filter (·.deepLink.isSome)).map Screen.id

/-- The screens with the screens that their views lead to. -/
def navigationGraph (views : List ScreenView) : Graph :=
  views.map fun v => (v.screenId, v.edges.map Swift.NavEdge.target)

/-- The screens that can be reached. -/
def reachableScreens (app : AppDefinition) (views : List ScreenView) : List String :=
  (navigationGraph views).reach app.entries

/-- The warnings of screens that are nested too deeply. -/
def nestingWarnings (app : AppDefinition) (trees : List NormalTree) (depth : Nat) :
    List String :=
  ((app.screens.zip trees).filter fun (_, tree) => depth < tree.maxDepth).map
    fun (screen, tree) =>
      "Screen `" ++ screen.id ++ "` nests containers " ++ toString tree.maxDepth ++
        " levels deep (more than " ++ toString depth ++ ")"

/-- The warnings of screens that cannot be reached. -/
def reachWarnings (app : AppDefinition) (views : List ScreenView) : List String :=
  let reachable := app.reachableScreens views
  ((ScreenNames.index app.screens).names.filter fun id => !reachable.contains id).map fun id =>
    "Screen `" ++ id ++ "` is not reachable from the entry screen, a tab or a deep link"

/-- The warnings of data models that are not used. -/
def unusedWarnings (app : AppDefinition) : List String :=
  let used := app.usedModels
  (app.models.filter fun m => !m.persisted && !used.contains m.name).map fun m =>
    "Model `" ++ m.name ++ "` is never used and was not emitted"

/-- The warning of models that are kept although the app says that nothing is. -/
def storeWarnings (app : AppDefinition) : List String :=
  let persisted := app.persistedModels
  if persisted.isEmpty || app.config.usesPersistence then []
  else
    ["Persisted models (" ++ Text.join ", " (persisted.map DataModel.name) ++
      ") were wired into a model container although persistence is disabled"]

/-- All warnings. -/
def warnings (app : AppDefinition) (trees : List NormalTree) (views : List ScreenView)
    (tokens : DesignTokens) (nestingDepth : Nat) : List String :=
  app.nestingWarnings trees nestingDepth ++ app.reachWarnings views ++ app.unusedWarnings ++
    app.storeWarnings ++
    tokens.colors.shortfalls.map fun s => "Contrast: " ++ s.message

end AppDefinition

/-! ### Generation -/

namespace Generate

/-- Runs a step, naming what its errors belong to. -/
def within {ε ε' α : Type} (wrap : ε → ε') (step : Except ε α) : Except ε' α :=
  step.mapError wrap

/-- The types of all data models. -/
def buildModels (app : AppDefinition) : Except GenerateError (List DataType) :=
  app.models.mapM fun model => within (.invalidModel model.name) (model.build app.models)

/-- The normalized trees of all screens. -/
def normalizeAll (app : AppDefinition) (catalog : Catalog) (limits : Limits) :
    Except GenerateError (List NormalTree) :=
  app.screens.mapM fun screen =>
    within (.normalize screen.id) (normalize screen.root catalog limits)

/-- Refuses an app with reference errors. -/
def checkReferences (app : AppDefinition) (trees : List NormalTree) (catalog : Catalog) :
    Except GenerateError Unit :=
  match app.referenceErrors trees catalog with
  | [] => .ok ()
  | errors => .error (.references errors)

/-- The views of all screens. -/
def buildScreens (cx : BuildContext) (app : AppDefinition) (trees : List NormalTree) :
    Except GenerateError (List ScreenView) :=
  (app.screens.zip trees).mapM fun (screen, tree) =>
    within (.build screen.id) (buildScreen cx screen tree)

/-- The files of the screens. -/
def screenFiles (folder : String) (config : GeneratorConfig) (views : List ScreenView) :
    List SourceFile :=
  views.map fun v =>
    ⟨Swift.screenPath folder v.viewType, v.print config.indentWidth config.emitPreviews⟩

/-- The files of the data models that are kept. -/
def modelFiles (folder : String) (width : Nat) (types : List DataType) : List SourceFile :=
  (types.filter (·.persisted)).map fun t => ⟨Swift.modelPath folder t.name, t.print width⟩

/-- The types of the data models that are in use but not kept. -/
def valueTypes (app : AppDefinition) (types : List DataType) : List DataType :=
  let used := app.usedModels
  ((app.models.zip types).filter fun (m, _) => !m.persisted && used.contains m.name).map Prod.snd

end Generate

open Generate in
/-- Generates an app. -/
def generate (app : AppDefinition) (catalog : Catalog) (config : GeneratorConfig) :
    Except GenerateError GeneratedApp := do
  within (.invalidConfig ∘ .generator) config.check
  within .invalidConfig app.config.check
  let tokens := app.config.designTokens
  let types ← buildModels app
  let trees ← normalizeAll app catalog config.limits
  checkReferences app trees catalog
  let screens := ScreenNames.index app.screens
  let views ← buildScreens ⟨catalog, tokens, screens, app.models⟩ app trees
  let entry ← within (.build app.entryScreen)
    (buildEntry app tokens screens (valueTypes app types))
  let folder := Names.appFolder app.config.name
  return {
    files := screenFiles folder config views ++ modelFiles folder config.indentWidth types ++
      [⟨Swift.entryPath folder entry.appType, entry.print config.indentWidth⟩]
    warnings := app.warnings trees views tokens config.nestingWarningDepth }

end Screenwright
