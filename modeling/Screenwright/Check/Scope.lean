/-
What the bindings of a screen can refer to.

A scope holds the parameters and the state that a screen declares, the state that
bindings have brought into being, and the environment values in use.  State that is not
declared comes into being with its first binding, and its type is the type that the
bound property expects.
-/
import Screenwright.App.Screen
import Screenwright.App.DataModel
import Screenwright.Check.Normalize
import Screenwright.Swift.Default
import Screenwright.Swift.Files

namespace Screenwright

open Swift (typeText)

/-- A binding with the value it stands for. -/
structure Bound where
  source : BindingSource
  path : String
  /-- The type of the value; none for environment values that are not inspected. -/
  type : Option ValueType
deriving DecidableEq, Repr

/-- Why a path cannot be bound. -/
inductive PathFault where
  | notParameter (root : String)
  /-- Environment values have no parts. -/
  | environmentPath
  | unknownKey (key : String)
  | wrongType (path : String) (actual : ValueType) (property : String) (expected : ValueType)
  /-- An environment value of unknown type stands where a type is expected. -/
  | opaqueValue (path : String) (expected : ValueType)
  | notDeclared (root : String)
  | isParameter (root : String)
  | reserved (root : String)
  /-- The property does not say what type its state would have. -/
  | noType (root : String)
  | conflict (root : String) (first second : ValueType)
  /-- Only data models have parts. -/
  | noParts (name : String) (type : ValueType)
  | unknownModel (name : String)
  | noProperty (model name : String)
  | unknownRoot (root : String)
  /-- The catalog does not know the component. -/
  | unknownComponent (type : String)
  /-- The component does not have the bound property. -/
  | unboundProperty (type property : String)
deriving DecidableEq, Repr

/-- The message of a fault. -/
def PathFault.message : PathFault → String
  | notParameter root => "`" ++ root ++ "` is not a parameter of this screen"
  | environmentPath => "environment bindings take a single key"
  | unknownKey key => "`" ++ key ++ "` is not a supported environment key"
  | wrongType path actual property expected =>
    "`" ++ path ++ "` is " ++ typeText actual ++ " but `" ++ property ++ "` expects " ++
      typeText expected
  | opaqueValue path expected => "`" ++ path ++ "` is not a " ++ typeText expected ++ " value"
  | notDeclared root => "`" ++ root ++ "` is not declared state"
  | isParameter root => "`" ++ root ++ "` is a parameter, not state"
  | reserved root => "`" ++ root ++ "` is a reserved name"
  | noType root => "cannot infer a type for `" ++ root ++ "`"
  | conflict root first second =>
    "`" ++ root ++ "` is used as both " ++ typeText first ++ " and " ++ typeText second
  | noParts name type =>
    "cannot read `" ++ name ++ "` from a value of type " ++ typeText type
  | unknownModel name => "unknown data model `" ++ name ++ "`"
  | noProperty model name => "data model `" ++ model ++ "` has no property `" ++ name ++ "`"
  | unknownRoot root => "`" ++ root ++ "` is not state or a parameter of this screen"
  | unknownComponent type => (CatalogError.unknownType type).message
  | unboundProperty type property =>
    (BindingFault.noProperty type property).message

/-- The type that a bindable property expects. -/
def PropKind.expectedType? : PropKind → Option ValueType
  | string => some .string
  | number _ _ => some .double
  | integer _ _ => some .int
  | bool => some .bool
  | strings => some (.array .string)
  | _ => none

/-- Whether bindings of the property are shown inside a text, which takes any type. -/
def PropSchema.isInterpolated (schema : PropSchema) : Bool :=
  match schema.kind with
  | .string => schema.bind = .read
  | _ => false

namespace Bound

/-- The value. -/
def read (b : Bound) : Swift.Value :=
  .ident b.path

/-- The value inside a text. -/
def text (b : Bound) : Swift.Value :=
  .interpolation b.path

/-- A binding to the value; what is not state is read only. -/
def write (b : Bound) : Swift.Value :=
  match b.source with
  | .state => .binding b.path
  | _ => .constant b.read

end Bound

/-- What bindings can refer to. -/
structure Scope where
  models : List DataModel
  parameters : Entries Variable
  state : Entries Variable
  /-- State that bindings have brought into being. -/
  inferred : Entries ValueType
  /-- The environment values in use. -/
  environment : List String

namespace Scope

/-- The names of members that every view has or may have. -/
def reservedNames : List String :=
  ["body", "router", "dismiss"]

/-- The environment values, and whether each of them is a boolean. -/
def environmentKeys : List (String × Bool) :=
  [("colorScheme", false), ("locale", false), ("horizontalSizeClass", false),
    ("verticalSizeClass", false), ("isEnabled", true), ("dynamicTypeSize", false),
    ("scenePhase", false), ("calendar", false), ("timeZone", false)]

/-- The first declaration of every name. -/
def firstOfEach (declared : List Variable) : Entries Variable :=
  declared.foldl (fun table v => Entries.putNew v.name v table) []

/-- The scope of a screen before any binding is resolved.  A name that is a parameter is
not state. -/
def ofScreen (screen : Screen) (models : List DataModel) : Scope :=
  let parameters := firstOfEach screen.parameters
  { models := models
    parameters := parameters
    state := firstOfEach (screen.state.filter fun v => !parameters.has v.name)
    inferred := []
    environment := [] }

/-- The type of a part of a value. -/
def partType (models : List DataModel) (type : ValueType) (name : String) :
    Except PathFault ValueType :=
  match type with
  | .model modelName =>
    match models.find? (·.name = modelName) with
    | none => .error (.unknownModel modelName)
    | some model =>
      match model.properties.find? (·.name = name) with
      | none => .error (.noProperty modelName name)
      | some property => .ok property.type
  | type => .error (.noParts name type)

/-- A part of a value is a property of a data model. -/
theorem exists_of_partType {models : List DataModel} {type part : ValueType} {name : String}
    (h : partType models type name = .ok part) :
    ∃ model ∈ models, ∃ property ∈ model.properties,
      type = .model model.name ∧ property.name = name ∧ property.type = part := by
  unfold partType at h
  split at h
  next modelName =>
    split at h
    · cases h
    next model hmodel =>
      split at h
      · cases h
      next property hproperty =>
        cases h
        have hname : model.name = modelName := by simpa using List.find?_some hmodel
        have hpname : property.name = name := by simpa using List.find?_some hproperty
        exact ⟨model, List.mem_of_find?_eq_some hmodel, property,
          List.mem_of_find?_eq_some hproperty, by rw [hname], hpname, rfl⟩
  · cases h

/-- The type at the end of a path that begins at a value of the given type. -/
def follow (models : List DataModel) (type : ValueType) : List String → Except PathFault ValueType
  | [] => .ok type
  | name :: rest =>
    match partType models type name with
    | .error fault => .error fault
    | .ok part => follow models part rest

/-- The type of a path whose root has the given type. -/
def typeAlong (scope : Scope) (type : ValueType) (path : String) : Except PathFault ValueType :=
  follow scope.models type (DataBinding.segmentsOf path).tail

/-- The type of a path into state; the scope grows by state that comes into being. -/
def resolveState (scope : Scope) (path : String) (expected : Option ValueType) :
    Except PathFault ValueType × Scope :=
  let root := DataBinding.rootOf path
  match scope.state.lookup root with
  | some v => (scope.typeAlong v.type path, scope)
  | none =>
    if 1 < (DataBinding.segmentsOf path).length then (.error (.notDeclared root), scope)
    else if scope.parameters.has root then (.error (.isParameter root), scope)
    else if reservedNames.contains root || Names.isKeyword root then
      (.error (.reserved root), scope)
    else
      match expected with
      | none => (.error (.noType root), scope)
      | some type =>
        match scope.inferred.lookup root with
        | some first =>
          if first = type then (.ok type, scope) else (.error (.conflict root first type), scope)
        | none => (.ok type, { scope with inferred := scope.inferred ++ [(root, type)] })

/-- The type of a path into the parameters. -/
def resolveParameter (scope : Scope) (path : String) : Except PathFault ValueType :=
  let root := DataBinding.rootOf path
  match scope.parameters.lookup root with
  | some v => scope.typeAlong v.type path
  | none => .error (.notParameter root)

/-- The scope with an environment value in use. -/
def useEnvironment (scope : Scope) (key : String) : Scope :=
  if scope.environment.contains key then scope
  else { scope with environment := scope.environment ++ [key] }

/-- The type of an environment value, which is in use from then on. -/
def resolveEnvironment (scope : Scope) (path : String) :
    Except PathFault (Option ValueType) × Scope :=
  if 1 < (DataBinding.segmentsOf path).length then (.error .environmentPath, scope)
  else
    match environmentKeys.lookup path with
    | none => (.error (.unknownKey path), scope)
    | some isBool => (.ok (if isBool then some .bool else none), scope.useEnvironment path)

/-- The type that a binding gives. -/
def typeOf (scope : Scope) (binding : DataBinding) (expected : Option ValueType) :
    Except PathFault (Option ValueType) × Scope :=
  match binding.source with
  | .state =>
    match scope.resolveState binding.path expected with
    | (result, scope) => (result.map some, scope)
  | .parameter => ((scope.resolveParameter binding.path).map some, scope)
  | .environment => scope.resolveEnvironment binding.path

/-- Refuses a type that a property does not expect. -/
def checkType (schema : PropSchema) (path : String) (actual : Option ValueType) :
    Except PathFault Unit :=
  match schema.kind.expectedType? with
  | none => .ok ()
  | some expected =>
    if schema.isInterpolated then .ok ()
    else
      match actual with
      | none => .error (.opaqueValue path expected)
      | some actual =>
        if actual = expected then .ok ()
        else .error (.wrongType path actual schema.name expected)

/-- Resolves a binding of a property. -/
def resolve (scope : Scope) (binding : DataBinding) (schema : PropSchema) :
    Except PathFault Bound × Scope :=
  match scope.typeOf binding schema.kind.expectedType? with
  | (.error fault, scope) => (.error fault, scope)
  | (.ok type, scope) =>
    ((checkType schema binding.path type).map fun _ => ⟨binding.source, binding.path, type⟩, scope)

/-- Resolves a binding of an element, whose component the catalog may or may not know. -/
def resolveOn (scope : Scope) (catalog : Catalog) (element : Element) (binding : DataBinding) :
    Except PathFault Bound × Scope :=
  match catalog.find? element.type with
  | none => (.error (.unknownComponent element.type), scope)
  | some info =>
    match info.prop? binding.property with
    | none => (.error (.unboundProperty element.type binding.property), scope)
    | some schema => scope.resolve binding schema

/-- A path into state or the parameters as they are. -/
def lookup (scope : Scope) (path : String) : Except PathFault Bound :=
  let root := DataBinding.rootOf path
  let isWhole := (DataBinding.segmentsOf path).length ≤ 1
  match scope.state.lookup root with
  | some v => (scope.typeAlong v.type path).map fun type => ⟨.state, path, some type⟩
  | none =>
    match if isWhole then scope.inferred.lookup root else none with
    | some type => .ok ⟨.state, path, some type⟩
    | none =>
      match scope.parameters.lookup root with
      | some v => (scope.typeAlong v.type path).map fun type => ⟨.parameter, path, some type⟩
      | none => .error (.unknownRoot root)

/-- Whether the view stores a member of the name. -/
def isMember (scope : Scope) (name : String) : Bool :=
  scope.parameters.has name || scope.state.has name || scope.inferred.has name ||
    scope.environment.contains name

/-- A default that is refused, with the name of its variable. -/
structure BadDefault where
  name : String
  fault : Swift.DefaultFault

/-- The initial value of a variable. -/
def initialValue (v : Variable) : Except BadDefault Swift.Value :=
  match Swift.defaultValue v.type v.default with
  | .ok value => .ok value
  | .error fault => .error ⟨v.name, fault⟩

/-- The stored members: parameters, declared state, state that has come into being,
environment values. -/
def members (scope : Scope) : Except BadDefault (List Swift.Member) := do
  let parameters ← scope.parameters.mapM fun (name, v) =>
    (initialValue v).map fun value => Swift.Member.parameter name (typeText v.type) value
  let state ← scope.state.mapM fun (name, v) =>
    (initialValue v).map fun value => Swift.Member.state name (typeText v.type) value
  let inferred := scope.inferred.map fun (name, type) =>
    Swift.Member.state name (typeText type) (Swift.zeroValue type)
  let environment := scope.environment.map fun key => Swift.Member.environment key key
  return parameters ++ state ++ inferred ++ environment

end Scope

end Screenwright
