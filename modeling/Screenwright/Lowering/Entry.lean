/-
The entry of an app, and the types of its data.
-/
import Screenwright.Lowering.Screen

namespace Screenwright

open Swift (View ViewModifier Closure Store Route bare labeled)

/-! ### Data models -/

/-- Why a data model cannot become a type. -/
inductive ModelFault where
  | noName
  | reservedType (type : String)
  | badProperty (name : String)
  | repeatedProperty (name : String)
  /-- A model that is not kept holds one that is. -/
  | holdsPersisted (property held model : String)
  | badDefault (property : String) (fault : Swift.DefaultFault)

/-- The message of a fault. -/
def ModelFault.message : ModelFault → String
  | noName => "the name has no usable characters"
  | reservedType type => "`" ++ type ++ "` is defined by the generated app"
  | badProperty name => "property `" ++ name ++ "` is not a valid identifier"
  | repeatedProperty name => "property `" ++ name ++ "` is declared more than once"
  | holdsPersisted property held model =>
    "property `" ++ property ++ "` holds persisted model `" ++ held ++ "` but `" ++ model ++
      "` is not persisted"
  | badDefault property fault => "property `" ++ property ++ "`: " ++ fault.message

namespace DataModel

/-- The persisted model that a value of the type holds. -/
def heldPersisted? (models : List DataModel) (type : ValueType) : Option DataModel :=
  (type.heldModel?.bind fun name => models.find? (·.name = name)).filter (·.persisted)

/-- A property of the type of a model; `seen` names the properties before it. -/
def storedProperty (models : List DataModel) (model : DataModel) (seen : List String)
    (p : ModelProperty) : Except ModelFault Swift.StoredProperty := do
  unless Names.isUsable p.name do throw (.badProperty p.name)
  if seen.contains p.name then throw (.repeatedProperty p.name)
  if let (false, some held) := (model.persisted, heldPersisted? models p.type) then
    throw (.holdsPersisted p.name held.name model.name)
  match Swift.defaultValue p.type p.default with
  | .error fault => throw (.badDefault p.name fault)
  | .ok value =>
    return ⟨p.name, Swift.typeText p.type, value, model.persisted && !p.persisted⟩

/-- The properties of the type of a model. -/
def storedProperties (models : List DataModel) (model : DataModel) (seen : List String) :
    List ModelProperty → Except ModelFault (List Swift.StoredProperty)
  | [] => .ok []
  | p :: rest => do
    let stored ← storedProperty models model seen p
    let others ← storedProperties models model (p.name :: seen) rest
    return stored :: others

/-- The type of a data model. -/
def build (models : List DataModel) (model : DataModel) : Except ModelFault Swift.DataType := do
  let some name := Names.typeName? model.name | throw .noName
  if reservedTypes.contains name then throw (.reservedType name)
  let properties ← storedProperties models model [] model.properties
  return ⟨name, model.persisted, properties⟩

end DataModel

/-! ### The entry -/

/-- A navigation stack that shows a screen and follows the router. -/
def routedStack (viewType : String) : View :=
  let destination : ViewModifier :=
    .mk "navigationDestination" [labeled "for" (.ident "Route.self")]
      [.mk none ["route"] [.leaf (.custom "routeView") [labeled "for" (.ident "route")]]]
  .ofContent .navigationStack [labeled "path" (.binding "router.path")]
    [(View.leaf (.custom viewType) []).modify [destination]]

/-- The names of a screen that the app itself leads to. -/
def entryTarget (screens : ScreenIndex) (place target : String) : Except BuildError ScreenNames :=
  match screens.lookup target with
  | some names => .ok names
  | none => .error (.danglingEdge place target)

/-- A tab of the tab bar. -/
def barTab (item : TabItem) (names : ScreenNames) : View :=
  (routedStack names.viewType).modify
    [.mk "tabItem" [] [Closure.first [tabLabel item]],
      .single "tag" (.ident ("Route." ++ names.routeCase))]

/-- The view shown first, and the routes of its tabs. -/
def rootView (screens : ScreenIndex) (entry : ScreenNames) (tabs : List TabItem) :
    Except BuildError (View × List String) := do
  if tabs.isEmpty then return (routedStack entry.viewType, [])
  let named ← tabs.mapM fun item =>
    (entryTarget screens "tabBar" item.screen).map fun names => (item, names)
  return (.ofContent .tabView [labeled "selection" (.binding "router.selectedTab")]
      (named.map fun (item, names) => barTab item names),
    named.map fun (_, names) => names.routeCase)

/-- The routes to the screens, in screen order. -/
def routesOf (screens : ScreenIndex) (all : List Screen) : List Route :=
  all.filterMap fun screen =>
    (screens.lookup screen.id).map fun names =>
      ⟨names.routeCase, names.viewType, screen.deepLink⟩

/-- The token by which the app is tinted. -/
def accentToken (tokens : DesignTokens) : Except BuildError Token :=
  (tokens.resolve .color "accent").mapError (.unknownToken "app")

/-- The modifiers of the first window. -/
def sceneModifiers (accent : Token) (appearance : Appearance) (routes : List Route) :
    List ViewModifier :=
  [.single "environmentObject" (.ident "router")] ++
    (match accent with
    | .color accent => [.single "tint" (.color accent.toRgba)]
    | _ => []) ++
    (if appearance.supportsDarkMode then []
    else
      [.single "preferredColorScheme"
        (.member (if appearance.darkTheme then "dark" else "light"))]) ++
    (if routes.any (·.deepLink.isSome) then
      [.plain "onOpenURL" [labeled "perform" (.ident "router.open")]] else [])

/-- The store of an app. -/
def storeOf (app : AppDefinition) : Store :=
  let types := app.persistedModels.map fun m => Swift.typeText (.model m.name)
  if types.isEmpty then .none
  else if app.config.usesCloudSync then .cloud types
  else .local types

/-- The entry of an app. -/
def buildEntry (app : AppDefinition) (tokens : DesignTokens) (screens : ScreenIndex)
    (valueTypes : List Swift.DataType) : Except BuildError Swift.AppEntry := do
  let routes := routesOf screens app.screens
  let entry ← entryTarget screens "entryScreen" app.entryScreen
  let (root, tabs) ← rootView screens entry app.tabs
  let accent ← accentToken tokens
  return {
    appType := Names.appTypeName app.config.name
    routes := routes
    root := root
    rootCase := entry.routeCase
    tabs := tabs
    sceneModifiers := sceneModifiers accent app.config.appearance routes
    store := storeOf app
    valueTypes := valueTypes }

end Screenwright
