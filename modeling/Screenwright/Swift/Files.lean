/-
Source files: screens, data models and the entry of an app.
-/
import Screenwright.Swift.Printer

namespace Screenwright.Swift

/-- A stored member of a view. -/
inductive Member where
  /-- State of the view. -/
  | state (name type : String) (initial : Value)
  /-- A value of the environment. -/
  | environment (key name : String)
  /-- The router of the app. -/
  | router
  /-- An input of the view. -/
  | parameter (name type : String) (default : Value)

/-- A function that a custom action calls. -/
structure Handler where
  name : String
  /-- The parameters with their types. -/
  params : List (String × String)
deriving DecidableEq, Repr

/-- How one screen leads to another. -/
inductive EdgeKind where
  | push
  | sheet
  | tab
deriving DecidableEq, Repr

/-- A way from one screen to another. -/
structure NavEdge where
  source : String
  target : String
  /-- The node that leads there. -/
  node : String
  kind : EdgeKind
deriving DecidableEq, Repr

/-- The view of a screen. -/
structure ScreenView where
  screenId : String
  viewType : String
  members : List Member
  body : View
  handlers : List Handler
  edges : List NavEdge
  usesRouter : Bool

/-- A stored property of a data type. -/
structure StoredProperty where
  name : String
  type : String
  default : Value
  /-- Whether the property is kept out of the store. -/
  transient : Bool

/-- A data type. -/
structure DataType where
  name : String
  persisted : Bool
  properties : List StoredProperty

/-- A route to a screen. -/
structure Route where
  /-- The case of the route as it is written. -/
  name : String
  viewType : String
  deepLink : Option String
deriving DecidableEq, Repr

/-- The store of an app, with the types that are kept in it. -/
inductive Store where
  | none
  | local (types : List String)
  | cloud (types : List String)
deriving DecidableEq, Repr

/-- The entry of an app. -/
structure AppEntry where
  appType : String
  routes : List Route
  /-- The view that is shown first. -/
  root : View
  /-- The route of the entry screen. -/
  rootCase : String
  /-- The routes of the tabs. -/
  tabs : List String
  sceneModifiers : List ViewModifier
  store : Store
  /-- The types of data that is not kept. -/
  valueTypes : List DataType

/-- Whether some route can be opened by a link. -/
def AppEntry.hasDeepLinks (entry : AppEntry) : Bool :=
  entry.routes.any (·.deepLink.isSome)

/-- A generated file. -/
structure SourceFile where
  /-- The path from the root of the project. -/
  path : String
  content : String
deriving DecidableEq, Repr

/-! ### Paths -/

/-- The path of a screen's file. -/
def screenPath (folder viewType : String) : String :=
  folder ++ "/Views/" ++ viewType ++ ".swift"

/-- The path of a data model's file. -/
def modelPath (folder type : String) : String :=
  folder ++ "/Models/" ++ type ++ ".swift"

/-- The path of the entry file. -/
def entryPath (folder appType : String) : String :=
  folder ++ "/" ++ appType ++ ".swift"

/-! ### Screens -/

/-- A member as it is written. -/
def Member.text : Member → String
  | state name type initial => "@State private var " ++ name ++ ": " ++ type ++ " = " ++ initial.text
  | environment key name => "@Environment(\\." ++ key ++ ") private var " ++ name
  | router => "@EnvironmentObject private var router: Router"
  | parameter name type default => "var " ++ name ++ ": " ++ type ++ " = " ++ default.text

/-- The lines of a handler. -/
def Handler.lines (handler : Handler) : List Line :=
  let params := Text.join ", " (handler.params.map fun (name, type) => name ++ ": " ++ type)
  [⟨1, "private func " ++ handler.name ++ "(" ++ params ++ ") \x7b"⟩,
    ⟨2, "// Implement `" ++ handler.name ++ "`."⟩, ⟨1, "\x7d"⟩]

/-- The lines of a preview. -/
def previewLines (screen : ScreenView) : List Line :=
  [⟨0, "#Preview \x7b"⟩, ⟨1, screen.viewType ++ "()"⟩] ++
    (if screen.usesRouter then [⟨2, ".environmentObject(Router())"⟩] else []) ++ [⟨0, "\x7d"⟩]

/-- The lines of the stored members. -/
def memberLines (members : List Member) : List Line :=
  members.map (fun m => ⟨1, m.text⟩) ++ (if members.isEmpty then [] else [.blank])

/-- The lines of a screen's file without its preview. -/
def ScreenView.viewLines (screen : ScreenView) : List Line :=
  [⟨0, "import SwiftUI"⟩, .blank, ⟨0, "struct " ++ screen.viewType ++ ": View \x7b"⟩] ++
    memberLines screen.members ++ [⟨1, "var body: some View \x7b"⟩] ++ screen.body.lines 2 ++
    [⟨1, "\x7d"⟩] ++ screen.handlers.flatMap (fun h => .blank :: h.lines) ++ [⟨0, "\x7d"⟩]

/-- The lines of a screen's file. -/
def ScreenView.lines (screen : ScreenView) (preview : Bool) : List Line :=
  screen.viewLines ++ (if preview then .blank :: previewLines screen else [])

/-- A screen's file. -/
def ScreenView.print (screen : ScreenView) (width : Nat) (preview : Bool) : String :=
  Line.textOf width (screen.lines preview)

/-! ### Data types -/

/-- A property with its type and default. -/
def StoredProperty.text (p : StoredProperty) : String :=
  p.name ++ ": " ++ p.type ++ " = " ++ p.default.text

/-- A name without the backticks around it. -/
def withoutBackticks (name : String) : String :=
  let isTick (c : Char) : Bool := c == '\x60'
  String.ofList (Text.dropEndWhile isTick (name.toList.dropWhile isTick))

/-- The lines of the initializer of a class. -/
def initializerLines (properties : List StoredProperty) : List Line :=
  if properties.isEmpty then [⟨1, "init() \x7b\x7d"⟩]
  else
    [.blank,
      ⟨1, "init(" ++ Text.join ", " (properties.map StoredProperty.text) ++ ") \x7b"⟩] ++
      properties.map (fun p => ⟨2, "self." ++ withoutBackticks p.name ++ " = " ++ p.name⟩) ++
      [⟨1, "\x7d"⟩]

/-- The lines of a data type: a class with an initializer if it is kept in the store, else
a structure. -/
def DataType.typeLines (type : DataType) : List Line :=
  (if type.persisted then [⟨0, "@Model"⟩, ⟨0, "final class " ++ type.name ++ " \x7b"⟩]
    else [⟨0, "struct " ++ type.name ++ ": Hashable, Codable \x7b"⟩]) ++
    type.properties.map (fun p =>
      ⟨1, (if type.persisted && p.transient then "@Transient " else "") ++ "var " ++ p.text⟩) ++
    (if type.persisted then initializerLines type.properties else []) ++ [⟨0, "\x7d"⟩]

/-- The lines of a data type's file. -/
def DataType.lines (type : DataType) : List Line :=
  [⟨0, "import Foundation"⟩, ⟨0, "import SwiftData"⟩, .blank] ++ type.typeLines

/-- A data type's file. -/
def DataType.print (type : DataType) (width : Nat) : String :=
  Line.textOf width type.lines

/-! ### The entry of an app -/

/-- Types as values. -/
def typeList (types : List String) : String :=
  Text.join ", " (types.map (· ++ ".self"))

/-- The lines that set up a store in the cloud. -/
def containerLines : Store → List Line
  | .cloud types =>
    [.blank, ⟨1, "private let container: ModelContainer = \x7b"⟩,
      ⟨2, "let schema = Schema([" ++ typeList types ++ "])"⟩,
      ⟨2, "let configuration = ModelConfiguration(schema: schema, cloudKitDatabase: .automatic)"⟩,
      ⟨2, "do \x7b"⟩,
      ⟨3, "return try ModelContainer(for: schema, configurations: [configuration])"⟩,
      ⟨2, "\x7d catch \x7b"⟩,
      ⟨3, "fatalError(\"Could not create ModelContainer: \\(error)\")"⟩, ⟨2, "\x7d"⟩,
      ⟨1, "\x7d()"⟩]
  | _ => []

/-- The lines that give a store to the scene. -/
def storeLines : Store → List Line
  | .none => []
  | .local types => [⟨2, ".modelContainer(for: [" ++ typeList types ++ "])"⟩]
  | .cloud _ => [⟨2, ".modelContainer(container)"⟩]

/-- The lines of the app itself. -/
def AppEntry.appLines (entry : AppEntry) : List Line :=
  [⟨0, "@main"⟩, ⟨0, "struct " ++ entry.appType ++ ": App \x7b"⟩,
      ⟨1, "@StateObject private var router = Router()"⟩] ++
    containerLines entry.store ++
    [.blank, ⟨1, "var body: some Scene \x7b"⟩, ⟨2, "WindowGroup \x7b"⟩, ⟨3, "RootView()"⟩] ++
    entry.sceneModifiers.map (fun m => ⟨4, "." ++ m.name ++ "(" ++ argsText m.args ++ ")"⟩) ++
    [⟨2, "\x7d"⟩] ++ storeLines entry.store ++ [⟨1, "\x7d"⟩, ⟨0, "\x7d"⟩]

/-- The lines that open the route of a link. -/
def Route.linkLines (route : Route) : List Line :=
  match route.deepLink with
  | some link => [⟨2, "case " ++ stringLiteral link ++ ":"⟩, ⟨3, "self = ." ++ route.name⟩]
  | none => []

/-- The lines of the routes. -/
def AppEntry.routeLines (entry : AppEntry) : List Line :=
  [⟨0, "enum Route: Hashable \x7b"⟩] ++ entry.routes.map (fun r => ⟨1, "case " ++ r.name⟩) ++
    (if entry.hasDeepLinks then
      [.blank, ⟨1, "init?(url: URL) \x7b"⟩,
          ⟨2, "let components = [url.host].compactMap \x7b $0 \x7d + " ++
            "url.pathComponents.filter \x7b $0 != \"/\" \x7d"⟩,
          ⟨2, "switch \"/\" + components.joined(separator: \"/\") \x7b"⟩] ++
        entry.routes.flatMap Route.linkLines ++
        [⟨2, "default:"⟩, ⟨3, "return nil"⟩, ⟨2, "\x7d"⟩, ⟨1, "\x7d"⟩]
    else []) ++
    [⟨0, "\x7d"⟩]

/-- The lines of the selected tab. -/
def AppEntry.selectionLines (entry : AppEntry) : List Line :=
  match entry.tabs with
  | [] => []
  | initial :: _ =>
    [⟨1, "@Published var selectedTab: Route = ." ++ initial ++ " \x7b"⟩,
      ⟨2, "didSet \x7b popToRoot() \x7d"⟩, ⟨1, "\x7d"⟩]

/-- The lines that go where a link leads. -/
def AppEntry.openLines (entry : AppEntry) : List Line :=
  if entry.hasDeepLinks then
    [.blank, ⟨1, "func open(_ url: URL) \x7b"⟩,
        ⟨2, "guard let route = Route(url: url) else \x7b return \x7d"⟩, ⟨2, "popToRoot()"⟩] ++
      (if entry.tabs.isEmpty then
        [⟨2, "if route != ." ++ entry.rootCase ++ " \x7b"⟩, ⟨3, "navigate(to: route)"⟩,
          ⟨2, "\x7d"⟩]
      else
        [⟨2, "if [" ++ Text.join ", " (entry.tabs.map ("Route." ++ ·)) ++
            "].contains(route) \x7b"⟩,
          ⟨3, "selectedTab = route"⟩, ⟨2, "\x7d else \x7b"⟩, ⟨3, "navigate(to: route)"⟩,
          ⟨2, "\x7d"⟩]) ++
      [⟨1, "\x7d"⟩]
  else []

/-- The lines of the router. -/
def AppEntry.routerLines (entry : AppEntry) : List Line :=
  [⟨0, "final class Router: ObservableObject \x7b"⟩,
      ⟨1, "@Published var path = NavigationPath()"⟩] ++
    entry.selectionLines ++
    [.blank, ⟨1, "func navigate(to route: Route) \x7b"⟩, ⟨2, "path.append(route)"⟩, ⟨1, "\x7d"⟩,
      .blank, ⟨1, "func goBack() \x7b"⟩, ⟨2, "if !path.isEmpty \x7b"⟩, ⟨3, "path.removeLast()"⟩,
      ⟨2, "\x7d"⟩, ⟨1, "\x7d"⟩, .blank, ⟨1, "func popToRoot() \x7b"⟩,
      ⟨2, "path = NavigationPath()"⟩, ⟨1, "\x7d"⟩] ++
    entry.openLines ++ [⟨0, "\x7d"⟩]

/-- The lines that make the view of a route. -/
def Route.viewLines (route : Route) : List Line :=
  [⟨2, "case ." ++ route.name ++ ":"⟩, ⟨3, route.viewType ++ "()"⟩]

/-- The lines of the root view. -/
def AppEntry.rootLines (entry : AppEntry) : List Line :=
  [⟨0, "struct RootView: View \x7b"⟩, ⟨1, "@EnvironmentObject private var router: Router"⟩,
      .blank, ⟨1, "var body: some View \x7b"⟩] ++
    entry.root.lines 2 ++
    [⟨1, "\x7d"⟩, .blank, ⟨1, "@ViewBuilder"⟩,
      ⟨1, "private func routeView(for route: Route) -> some View \x7b"⟩,
      ⟨2, "switch route \x7b"⟩] ++
    entry.routes.flatMap Route.viewLines ++ [⟨2, "\x7d"⟩, ⟨1, "\x7d"⟩, ⟨0, "\x7d"⟩]

/-- The lines of the entry file. -/
def AppEntry.lines (entry : AppEntry) : List Line :=
  [⟨0, "import SwiftUI"⟩] ++ (if entry.store = .none then [] else [⟨0, "import SwiftData"⟩]) ++
    [.blank] ++ entry.appLines ++ [.blank] ++ entry.routeLines ++ [.blank] ++
    entry.routerLines ++ [.blank] ++ entry.rootLines ++
    entry.valueTypes.flatMap fun type => .blank :: type.typeLines

/-- The entry file. -/
def AppEntry.print (entry : AppEntry) (width : Nat) : String :=
  Line.textOf width entry.lines

end Screenwright.Swift
