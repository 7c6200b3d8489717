/-
Component schemas: which properties and children a component may have.

A schema checks raw properties in a fixed order: first the names, in the order in which
they were given, then the values, in the order of the schema.  A value `null` counts as
absent, and an absent property takes its default.
-/
import Screenwright.Catalog.Kind
import Screenwright.Catalog.PropKind

namespace Screenwright

/-- The schema of a property. -/
structure PropSchema where
  name : String
  kind : PropKind
  required : Bool
  default : Option PropValue
  bind : BindMode

/-- How many children a component accepts. -/
inductive ChildPolicy where
  | none
  | any
  | range (low high : Nat)
deriving DecidableEq, Repr

/-- What a component is and what it accepts. -/
structure ComponentMeta where
  type : String
  displayName : String
  category : Category
  kind : ComponentKind
  props : List PropSchema
  children : ChildPolicy

/-- Why a catalog refuses a request. -/
inductive CatalogError where
  | duplicateType (type : String)
  | unknownType (type : String)
  | invalidProp (type field : String) (fault : PropFault)

/-- A component type with the way its properties are checked. -/
structure ComponentSchema where
  info : ComponentMeta
  validate : Entries Json → Except CatalogError Props

namespace CatalogError

/-- The message of an error. -/
def message : CatalogError → String
  | duplicateType type => "Component type `" ++ type ++ "` is already registered"
  | unknownType type => "Unknown component type `" ++ type ++ "`"
  | invalidProp type field fault =>
    "Invalid property `" ++ field ++ "` on `" ++ type ++ "`: " ++ fault.message

end CatalogError

namespace PropSchema

/-- A property that must be given. -/
def needed (name : String) (kind : PropKind) : PropSchema :=
  ⟨name, kind, true, none, .fixed⟩

/-- A property that may be absent. -/
def optional (name : String) (kind : PropKind) : PropSchema :=
  ⟨name, kind, false, none, .fixed⟩

/-- A property with a value for when it is absent. -/
def defaulted (name : String) (kind : PropKind) (value : PropValue) : PropSchema :=
  ⟨name, kind, false, some value, .fixed⟩

/-- The property made bindable. -/
def bindable (schema : PropSchema) (mode : BindMode) : PropSchema :=
  { schema with bind := mode }

end PropSchema

namespace ChildPolicy

/-- Whether the policy accepts a number of children. -/
def accepts : ChildPolicy → Nat → Bool
  | none, count => count = 0
  | any, _ => true
  | range low high, count => low ≤ count && count ≤ high

/-- Why the policy does not accept a number of children. -/
def complaint (policy : ChildPolicy) (count : Nat) : String :=
  match policy with
  | range low high =>
    "expects " ++ toString low ++ " to " ++ toString high ++ " children, found " ++
      toString count
  | _ => "accepts no children, found " ++ toString count

end ChildPolicy

namespace ComponentMeta

/-- The schema of a named property. -/
def prop? (info : ComponentMeta) (name : String) : Option PropSchema :=
  info.props.find? (·.name = name)

/-- The declared defaults. -/
def defaults (info : ComponentMeta) : Props :=
  info.props.foldl (fun props schema =>
    match schema.default with
    | some value => Entries.put schema.name value props
    | none => props) []

/-- The first name that is no property of the component. -/
def firstUnknown? (info : ComponentMeta) (raw : Entries Json) : Option String :=
  raw.names.find? fun name => (info.prop? name).isNone

/-- The raw value of a property, unless it is absent. -/
def given? (raw : Entries Json) (name : String) : Option Json :=
  (raw.lookup name).filter fun value => !value.isNull

/-- The value of one property: what is given, else the default, else nothing. -/
def valueOf (raw : Entries Json) (schema : PropSchema) : Except PropFault (Option PropValue) :=
  match given? raw schema.name with
  | some value => (schema.kind.coerce value).map some
  | none =>
    match schema.default with
    | some value => return some value
    | none => if schema.required then throw .missing else return none

/-- Checks the properties of a schema in its order. -/
def fill (type : String) (raw : Entries Json) : List PropSchema → Props → Except CatalogError Props
  | [], props => .ok props
  | schema :: rest, props =>
    match valueOf raw schema with
    | .error fault => .error (.invalidProp type schema.name fault)
    | .ok none => fill type raw rest props
    | .ok (some value) => fill type raw rest (Entries.put schema.name value props)

/-- Checks raw properties and fills in defaults. -/
def validate (info : ComponentMeta) (raw : Entries Json) : Except CatalogError Props :=
  match info.firstUnknown? raw with
  | some name => .error (.invalidProp info.type name .unknown)
  | none => fill info.type raw info.props []

end ComponentMeta

namespace ComponentSchema

/-- The schema that the table of its properties describes in full. -/
def ofMeta (info : ComponentMeta) : ComponentSchema :=
  ⟨info, info.validate⟩

/-- The schema with a further check of the typed properties. -/
def withCheck (info : ComponentMeta) (check : Props → Option (String × PropFault)) :
    ComponentSchema where
  info := info
  validate raw := do
    let props ← info.validate raw
    match check props with
    | some (field, fault) => throw (.invalidProp info.type field fault)
    | none => return props

end ComponentSchema

/-! ### Catalogs -/

/-- Component types with their schemas, in the order in which they were registered. -/
structure Catalog where
  schemas : Entries ComponentSchema

namespace Catalog

/-- The catalog without components. -/
def empty : Catalog := ⟨[]⟩

/-- The catalog with one more component type. -/
def register (catalog : Catalog) (schema : ComponentSchema) : Except CatalogError Catalog :=
  if catalog.schemas.has schema.info.type then .error (.duplicateType schema.info.type)
  else .ok ⟨catalog.schemas ++ [(schema.info.type, schema)]⟩

/-- The schema of a type. -/
def schema (catalog : Catalog) (type : String) : Except CatalogError ComponentSchema :=
  match catalog.schemas.lookup type with
  | some schema => .ok schema
  | none => .error (.unknownType type)

/-- What is known of a type. -/
def find? (catalog : Catalog) (type : String) : Option ComponentMeta :=
  (catalog.schemas.lookup type).map ComponentSchema.info

/-- Checks the properties of a component of a type. -/
def validate (catalog : Catalog) (type : String) (raw : Entries Json) :
    Except CatalogError Props := do
  let schema ← catalog.schema type
  schema.validate raw

/-- The catalog in one line. -/
def describe (catalog : Catalog) : String :=
  "Catalog \x7b components: [" ++ Text.join ", " (catalog.schemas.names.map Text.quoted) ++
    "] \x7d"

end Catalog

end Screenwright
