/-
References across an app.

Everything by which one part of an app names another is checked here: screens, data
models, variables, bindings and handlers.  The checks do not stop at the first error;
each contributes its own list, and the lists are joined in a fixed order.
-/
import Screenwright.App.Definition
import Screenwright.Check.Scope
import Screenwright.Names.ScreenNames

namespace Screenwright

/-- Why a deep link is refused. -/
inductive LinkFault where
  | malformed
  | taken (screen : String)
deriving DecidableEq, Repr

/-- Why a variable cannot be declared. -/
inductive VariableFault where
  | notIdentifier
  | reserved
  /-- The name could be that of a presentation flag. -/
  | flagName
deriving DecidableEq, Repr

/-- Why a handler cannot be declared. -/
inductive HandlerFault where
  | reserved
  | isMember
  /-- It is called elsewhere with other parameters. -/
  | otherParams
deriving DecidableEq, Repr

/-- What declares a type. -/
inductive TypeOwner where
  | app
  | model (name : String)
deriving DecidableEq, Repr

/-- A reference that leads nowhere, or names that collide. -/
inductive ReferenceError where
  | missingEntryScreen (id : String)
  | danglingTab (title target : String)
  | danglingNavigation (screen node target : String)
  | duplicateScreen (id : String)
  | conflictingScreenNames (first second name : String)
  | reservedTypeName (owner type : String) (definedBy : TypeOwner)
  | duplicateModel (name : String)
  | unknownModel (owner model : String)
  | invalidDeepLink (screen link : String) (fault : LinkFault)
  | invalidDefault (owner name : String) (fault : Swift.DefaultFault)
  | duplicateVariable (screen name : String)
  | invalidVariable (screen name : String) (fault : VariableFault)
  | conflictingHandler (screen node name : String) (fault : HandlerFault)
  | unresolvedBinding (screen node : String) (source : BindingSource) (path : String)
      (fault : PathFault)

/-! ### Messages -/

/-- The message of a fault. -/
def LinkFault.message : LinkFault → String
  | malformed => "must be a slash-separated path such as `/notes/detail`"
  | taken screen => "already used by screen `" ++ screen ++ "`"

/-- The message of a fault. -/
def VariableFault.message : VariableFault → String
  | notIdentifier => "not a valid identifier"
  | reserved => "the name is reserved"
  | flagName => "the `isPresenting` prefix is reserved for sheet flags"

/-- The message of a fault. -/
def HandlerFault.message : HandlerFault → String
  | reserved => "the name is reserved"
  | isMember => "the name is already a stored member of the screen"
  | otherParams => "invoked elsewhere with different parameters"

/-- What declares a type, in words. -/
def TypeOwner.title : TypeOwner → String
  | app => "the generated app"
  | model name => "data model `" ++ name ++ "`"

/-- The message of an error. -/
def ReferenceError.message : ReferenceError → String
  | missingEntryScreen id => "Entry screen `" ++ id ++ "` does not exist"
  | danglingTab title target =>
    "Tab bar item `" ++ title ++ "` targets unknown screen `" ++ target ++ "`"
  | danglingNavigation screen node target =>
    "Node `" ++ node ++ "` in screen `" ++ screen ++ "` targets unknown screen `" ++ target ++ "`"
  | duplicateScreen id => "Duplicate screen id `" ++ id ++ "`"
  | conflictingScreenNames first second name =>
    "Screens `" ++ first ++ "` and `" ++ second ++ "` both generate the type name `" ++ name ++ "`"
  | reservedTypeName owner type definedBy =>
    "`" ++ owner ++ "` generates the type name `" ++ type ++
      "`, which is already defined by " ++ definedBy.title
  | duplicateModel name => "Duplicate data model `" ++ name ++ "`"
  | unknownModel owner model =>
    "`" ++ owner ++ "` refers to unknown data model `" ++ model ++ "`"
  | invalidDeepLink screen link fault =>
    "Deep link `" ++ link ++ "` of screen `" ++ screen ++ "` is invalid: " ++ fault.message
  | invalidDefault owner name fault =>
    "Default value of `" ++ name ++ "` in `" ++ owner ++ "` is invalid: " ++ fault.message
  | duplicateVariable screen name =>
    "Screen `" ++ screen ++ "` declares `" ++ name ++ "` more than once"
  | invalidVariable screen name fault =>
    "Variable `" ++ name ++ "` in screen `" ++ screen ++ "` is unusable: " ++ fault.message
  | conflictingHandler screen node name fault =>
    "Custom action `" ++ name ++ "` on node `" ++ node ++ "` in screen `" ++ screen ++
      "` is unusable: " ++ fault.message
  | unresolvedBinding screen node source path fault =>
    "Unresolved " ++ source.name ++ " binding `" ++ path ++ "` on node `" ++ node ++
      "` in screen `" ++ screen ++ "`: " ++ fault.message

/-- The message of all errors of an app. -/
def ReferenceError.report (errors : List ReferenceError) : String :=
  toString errors.length ++ " unresolved reference(s):\n" ++
    Text.join "" (errors.map fun e => "  - " ++ e.message ++ "\n")

/-! ### Screens -/

/-- The types that the entry file declares beside the app. -/
def reservedTypes : List String :=
  ["Route", "Router", "RootView"]

/-- What declares a type beside the screens. -/
def AppDefinition.typeOwner? (app : AppDefinition) (type : String) : Option TypeOwner :=
  if reservedTypes.contains type || type = Names.appTypeName app.config.name then some .app
  else
    (app.models.find? fun m => Names.typeName? m.name = some type).map fun m => .model m.name

/-- The names that earlier screens have taken. -/
structure TakenNames where
  ids : List String
  /-- The screens by their view types. -/
  viewTypes : Entries String
  /-- The screens by their routes. -/
  handles : Entries String
  /-- The screens by their deep links, the last one first. -/
  links : Entries String

namespace TakenNames

/-- Before the first screen. -/
def none : TakenNames := ⟨[], [], [], []⟩

/-- The error of a name that an earlier screen has taken. -/
def conflict (table : Entries String) (screen name : String) : List ReferenceError :=
  match table.lookup name with
  | some first => [.conflictingScreenNames first screen name]
  | .none => []

/-- The errors of a deep link. -/
def linkErrors (taken : TakenNames) (screen link : String) : List ReferenceError :=
  if !Names.isDeepLink link then [.invalidDeepLink screen link .malformed]
  else
    match taken.links.lookup link with
    | some other => [.invalidDeepLink screen link (.taken other)]
    | .none => []

/-- The names after one more screen. -/
def add (taken : TakenNames) (screen : Screen) (names : ScreenNames) : TakenNames where
  ids := screen.id :: taken.ids
  viewTypes := Entries.putNew names.viewType screen.id taken.viewTypes
  handles := Entries.putNew names.handle screen.id taken.handles
  links :=
    match screen.deepLink with
    | some link => if Names.isDeepLink link then (link, screen.id) :: taken.links else taken.links
    | .none => taken.links

/-- The errors of a screen whose identifier is new. -/
def screenErrors (app : AppDefinition) (taken : TakenNames) (screen : Screen)
    (names : ScreenNames) : List ReferenceError :=
  (match app.typeOwner? names.viewType with
    | some owner => [ReferenceError.reservedTypeName screen.id names.viewType owner]
    | .none => []) ++
    conflict taken.viewTypes screen.id names.viewType ++
    conflict taken.handles screen.id names.handle ++
    (match screen.deepLink with
    | some link => taken.linkErrors screen.id link
    | .none => [])

/-- The errors of the screens in order. -/
def allErrors (app : AppDefinition) (taken : TakenNames) : List Screen → List ReferenceError
  | [] => []
  | screen :: rest =>
    if taken.ids.contains screen.id then
      .duplicateScreen screen.id :: allErrors app taken rest
    else
      let names := ScreenNames.ofScreen screen
      screenErrors app taken screen names ++ allErrors app (taken.add screen names) rest

end TakenNames

namespace AppDefinition

/-- Whether a screen has the identifier. -/
def hasScreen (app : AppDefinition) (id : String) : Bool :=
  app.screens.any (·.id = id)

/-- Whether a data model has the name. -/
def hasModel (app : AppDefinition) (name : String) : Bool :=
  app.models.any (·.name = name)

/-- The error of an entry screen that does not exist. -/
def entryErrors (app : AppDefinition) : List ReferenceError :=
  if app.hasScreen app.entryScreen then [] else [.missingEntryScreen app.entryScreen]

/-- The errors of tabs that lead nowhere. -/
def tabErrors (app : AppDefinition) : List ReferenceError :=
  (app.tabs.filter fun item => !app.hasScreen item.screen).map fun item =>
    .danglingTab item.title item.screen

/-- The errors of the references of a screen that lead nowhere. -/
def navigationErrors (app : AppDefinition) (screen : Screen) (tree : NormalTree) :
    List ReferenceError :=
  (tree.references.filter fun r => !app.hasScreen r.target).map fun r =>
    .danglingNavigation screen.id r.node r.target

/-! ### Data models and variables -/

/-- The error of a type that holds an unknown data model. -/
def typeErrors (app : AppDefinition) (owner : String) (type : ValueType) : List ReferenceError :=
  match type.heldModel? with
  | some model => if app.hasModel model then [] else [.unknownModel owner model]
  | none => []

/-- The errors of the names of data models. -/
def modelNameErrors (app : AppDefinition) (seen : List String) :
    List DataModel → List ReferenceError
  | [] => []
  | model :: rest =>
    let appType := Names.appTypeName app.config.name
    (if seen.contains model.name then [ReferenceError.duplicateModel model.name] else []) ++
      (if Names.typeName? model.name = some appType then
        [.reservedTypeName model.name appType .app] else []) ++
      modelNameErrors app (model.name :: seen) rest

/-- The errors of the types of model properties. -/
def propertyErrors (app : AppDefinition) : List ReferenceError :=
  app.models.flatMap fun model =>
    model.properties.flatMap fun p => app.typeErrors (model.name ++ "." ++ p.name) p.type

/-- Why a variable cannot have its name. -/
def variableFault? (name : String) : Option VariableFault :=
  if !Names.isIdentifier name then some .notIdentifier
  else if Names.isKeyword name || Scope.reservedNames.contains name then some .reserved
  else if Text.startsWith "isPresenting" name then some .flagName
  else none

/-- The errors of one variable. -/
def variableError (app : AppDefinition) (screen : String) (v : Variable) : List ReferenceError :=
  (match variableFault? v.name with
    | some fault => [ReferenceError.invalidVariable screen v.name fault]
    | none => []) ++
    app.typeErrors (screen ++ "." ++ v.name) v.type ++
    (match Swift.defaultValue v.type v.default with
    | .error fault => [.invalidDefault screen v.name fault]
    | .ok _ => [])

/-- The errors of the variables of a screen. -/
def variableErrors (app : AppDefinition) (screen : String) (seen : List String) :
    List Variable → List ReferenceError
  | [] => []
  | v :: rest =>
    if seen.contains v.name then
      .duplicateVariable screen v.name :: variableErrors app screen seen rest
    else app.variableError screen v ++ variableErrors app screen (v.name :: seen) rest

end AppDefinition

/-! ### Bindings and handlers -/

namespace Scope

/-- Resolves the bindings of elements one after the other: the errors, and the scope after
all of them.  Components that the catalog does not know are passed over. -/
def bindingErrors (catalog : Catalog) (screen : String) (scope : Scope) :
    List (Element × DataBinding) → List ReferenceError × Scope
  | [] => ([], scope)
  | (element, binding) :: rest =>
    match scope.resolveOn catalog element binding with
    | (.ok _, scope) => bindingErrors catalog screen scope rest
    | (.error fault, scope) =>
      let (errors, scope) := bindingErrors catalog screen scope rest
      (.unresolvedBinding screen element.id binding.source binding.path fault :: errors, scope)

/-- The error of a path that an animation watches. -/
def animationError (screen : String) (scope : Scope) (node path : String) :
    List ReferenceError :=
  match scope.lookup path with
  | .ok _ => []
  | .error fault => [.unresolvedBinding screen node .state path fault]

/-- Why a handler cannot have its name and parameters. -/
def handlerFault? (scope : Scope) (seen : Entries HandlerParams) (name : String)
    (params : HandlerParams) : Option HandlerFault :=
  if reservedNames.contains name || Text.startsWith "isPresenting" name then some .reserved
  else if scope.isMember name then some .isMember
  else
    match seen.lookup name with
    | some first => if first = params then none else some .otherParams
    | none => none

/-- The errors of the handlers that actions call. -/
def handlerErrors (screen : String) (scope : Scope) (seen : Entries HandlerParams) :
    List (Element × Action) → List ReferenceError
  | [] => []
  | (element, action) :: rest =>
    match action with
    | .custom name args =>
      match Action.handlerParams args with
      | .error _ => handlerErrors screen scope seen rest
      | .ok params =>
        match scope.handlerFault? seen name params with
        | some fault =>
          .conflictingHandler screen element.id name fault :: handlerErrors screen scope seen rest
        | none => handlerErrors screen scope (Entries.putNew name params seen) rest
    | _ => handlerErrors screen scope seen rest

end Scope

namespace Element

/-- The paths that animations of the element watch. -/
def animationPaths (e : Element) : List String :=
  (e.modifiers.filter (·.name = "animation")).filterMap fun m =>
    m.args[1]?.bind Json.string?

end Element

namespace NormalTree

/-- The bindings with the elements they are on, in pre-order. -/
def bindings (t : NormalTree) : List (Element × DataBinding) :=
  t.elements.flatMap fun e => e.bindings.map fun b => (e, b)

/-- The actions with the elements that trigger them, in pre-order. -/
def actions (t : NormalTree) : List (Element × Action) :=
  t.elements.flatMap fun e => e.actions.map fun a => (e, a)

end NormalTree

namespace AppDefinition

/-- The errors of the bindings, the animations and the handlers of a screen. -/
def dataErrors (app : AppDefinition) (catalog : Catalog) (screen : Screen) (tree : NormalTree) :
    List ReferenceError :=
  let known := tree.bindings.filter fun (e, _) => (catalog.find? e.type).isSome
  let (errors, scope) := Scope.bindingErrors catalog screen.id (.ofScreen screen app.models) known
  errors ++
    tree.elements.flatMap (fun e =>
      e.animationPaths.flatMap (Scope.animationError screen.id scope e.id)) ++
    scope.handlerErrors screen.id [] tree.actions

/-- The errors of one screen. -/
def screenErrors (app : AppDefinition) (catalog : Catalog) (screen : Screen)
    (tree : NormalTree) : List ReferenceError :=
  app.navigationErrors screen tree ++ app.variableErrors screen.id [] screen.declared ++
    app.dataErrors catalog screen tree

/-- All reference errors of an app whose screens have the given trees. -/
def referenceErrors (app : AppDefinition) (trees : List NormalTree) (catalog : Catalog) :
    List ReferenceError :=
  TakenNames.none.allErrors app app.screens ++ app.entryErrors ++ app.tabErrors ++
    app.modelNameErrors [] app.models ++ app.propertyErrors ++
    (app.screens.zip trees).flatMap fun (screen, tree) => app.screenErrors catalog screen tree

end AppDefinition

end Screenwright
