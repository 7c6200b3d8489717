/-
The standard components.
-/
import Screenwright.Catalog.Schema

namespace Screenwright.Catalog

/-! ### Words -/

/-- The horizontal alignments. -/
def horizontalAlignments : List String :=
  ["leading", "center", "trailing"]

/-- The vertical alignments. -/
def verticalAlignments : List String :=
  ["top", "center", "bottom", "firstTextBaseline", "lastTextBaseline"]

/-- The alignments in both directions. -/
def alignments : List String :=
  ["topLeading", "top", "topTrailing", "leading", "center", "trailing", "bottomLeading",
    "bottom", "bottomTrailing"]

/-- The styles of a list. -/
def listStyles : List String :=
  ["automatic", "plain", "inset", "insetGrouped", "grouped", "sidebar"]

/-- The ways to show the title of a navigation stack. -/
def titleModes : List String :=
  ["automatic", "inline", "large"]

/-- The sizes of a sheet. -/
def detents : List String :=
  ["large", "medium", "mediumAndLarge"]

/-- The places of toolbar items. -/
def toolbarPlacements : List String :=
  ["automatic", "primaryAction", "secondaryAction", "confirmationAction", "cancellationAction",
    "principal", "topBarLeading", "topBarTrailing", "bottomBar"]

/-- The roles of a button. -/
def buttonRoles : List String :=
  ["none", "cancel", "destructive"]

/-- The styles of a button. -/
def buttonStyles : List String :=
  ["automatic", "bordered", "borderedProminent", "borderless", "plain"]

/-- The styles of a picker. -/
def pickerStyles : List String :=
  ["automatic", "menu", "segmented", "wheel", "inline"]

/-- The keyboards of a text field. -/
def keyboards : List String :=
  ["default", "emailAddress", "numberPad", "decimalPad", "URL", "phonePad"]

/-- The ways an image fills its place. -/
def contentModes : List String :=
  ["fit", "fill"]

/-- The directions of scrolling. -/
def axes : List String :=
  ["vertical", "horizontal"]

/-! ### Components -/

/-- A component whose display name is its type. -/
def plain (type : String) (kind : ComponentKind) (category : Category)
    (props : List PropSchema) (children : ChildPolicy) : ComponentMeta :=
  ⟨type, type, category, kind, props, children⟩

/-- A string property that is empty if it is absent. -/
def emptyText (name : String) : PropSchema :=
  .defaulted name .string (.string "")

/-- A property that is one of some words. -/
def word (name : String) (words : List String) (value : String) : PropSchema :=
  .defaulted name (.choice words) (.choice value)

/-- A property that is a token. -/
def token (name : String) (kind : TokenKind) (slot : String) : PropSchema :=
  .defaulted name (.token kind) (.token ⟨kind, slot⟩)

/-- A property that is false if it is absent. -/
def flag (name : String) : PropSchema :=
  .defaulted name .bool (.bool false)

/-- The smallest positive normal float. -/
def leastPositive : Float := 2.2250738585072014e-308

/-- The components that arrange others. -/
def layout : List ComponentMeta :=
  [⟨"VStack", "Vertical Stack", .layout, .vStack,
      [word "alignment" horizontalAlignments "center", .optional "spacing" (.token .spacing)],
      .any⟩,
    ⟨"HStack", "Horizontal Stack", .layout, .hStack,
      [word "alignment" verticalAlignments "center", .optional "spacing" (.token .spacing)],
      .any⟩,
    ⟨"ZStack", "Layered Stack", .layout, .zStack, [word "alignment" alignments "center"], .any⟩,
    ⟨"ScrollView", "Scroll View", .layout, .scrollView,
      [word "axis" axes "vertical", .defaulted "showsIndicators" .bool (.bool true)], .any⟩,
    plain "Grid" .grid .layout
      [.defaulted "columns" (.integer (some 1) (some 12)) (.integer 2),
        token "spacing" .spacing "md"] .any,
    plain "List" .list .layout [word "style" listStyles "automatic"] .any,
    plain "Section" .section .layout [.optional "header" .string, .optional "footer" .string] .any,
    plain "Form" .form .layout [] .any,
    plain "Spacer" .spacer .layout [.optional "minLength" (.token .spacing)] .none,
    plain "Divider" .divider .layout [] .none,
    plain "Conditional" .conditional .layout [(flag "condition").bindable .read] (.range 1 2)]

/-- The components that lead to other screens or are presented over their own. -/
def navigation : List ComponentMeta :=
  [⟨"NavigationStack", "Navigation Stack", .navigation, .navigationStack,
      [.optional "title" .string, word "titleDisplayMode" titleModes "automatic"], .any⟩,
    ⟨"NavigationLink", "Navigation Link", .navigation, .navigationLink,
      [.needed "target" .screen, (PropSchema.optional "title" .string).bindable .read], .any⟩,
    ⟨"TabView", "Tab View", .navigation, .tabView, [.needed "tabs" .tabs], .none⟩,
    plain "Sheet" .sheet .navigation
      [(flag "isPresented").bindable .twoWay, word "detents" detents "large"] .any,
    ⟨"FullScreenCover", "Full Screen Cover", .navigation, .fullScreenCover,
      [(flag "isPresented").bindable .twoWay], .any⟩,
    plain "Alert" .alert .navigation
      [.needed "title" .string, (PropSchema.optional "message" .string).bindable .read,
        (flag "isPresented").bindable .twoWay, .defaulted "actions" .actions (.actions [])] .none,
    ⟨"ConfirmationDialog", "Confirmation Dialog", .navigation, .confirmationDialog,
      [.needed "title" .string, (PropSchema.optional "message" .string).bindable .read,
        (flag "isPresented").bindable .twoWay, .defaulted "actions" .actions (.actions [])],
      .none⟩,
    plain "Menu" .menu .navigation
      [.needed "title" .string, .optional "systemImage" .string] .any,
    plain "Toolbar" .toolbar .navigation
      [word "placement" toolbarPlacements "automatic"] .any]

/-- The components that show something or trigger an action. -/
def primitives : List ComponentMeta :=
  [plain "Text" .text .primitives
      [(emptyText "content").bindable .read, token "font" .font "body",
        .optional "color" (.token .color), .optional "alignment" (.choice horizontalAlignments),
        .optional "lineLimit" (.integer (some 1) (some 100))] .none,
    plain "Label" .label .dataDisplay
      [(emptyText "title").bindable .read, .needed "systemImage" .string] .none,
    plain "Image" .image .dataDisplay
      [.defaulted "systemName" .string (.string "photo"), .optional "name" .string,
        flag "resizable", .optional "contentMode" (.choice contentModes),
        .optional "color" (.token .color)] .none,
    plain "Button" .button .primitives
      [(PropSchema.optional "title" .string).bindable .read, .optional "systemImage" .string,
        word "role" buttonRoles "none", word "style" buttonStyles "automatic",
        .optional "action" .action, .optional "tint" (.token .color)] .any]

/-- The properties of a slider. -/
def sliderMeta : ComponentMeta :=
  plain "Slider" .slider .input
    [(PropSchema.defaulted "value" .anyNumber (.number 0.0)).bindable .twoWay,
      .defaulted "min" .anyNumber (.number 0.0), .defaulted "max" .anyNumber (.number 1.0),
      .optional "step" .anyNumber] .none

/-- A numeric property, zero if it is absent. -/
def numberOf (props : Props) (name : String) : Float :=
  ((props.lookup name).bind PropValue.number?).getD 0.0

/-- A whole property, zero if it is absent. -/
def integerOf (props : Props) (name : String) : Int :=
  ((props.lookup name).bind PropValue.integer?).getD 0

/-- A slider runs upwards, in positive steps. -/
def checkSlider (props : Props) : Option (String × PropFault) :=
  if numberOf props "max" ≤ numberOf props "min" then some ("min", .boundsNotIncreasing)
  else
    match (props.lookup "step").bind PropValue.number? with
    | some step => if step ≤ 0.0 then some ("step", .notPositive) else none
    | none => none

/-- The schema of a slider. -/
def slider : ComponentSchema :=
  .withCheck sliderMeta checkSlider

/-- The properties of a stepper. -/
def stepperMeta : ComponentMeta :=
  plain "Stepper" .stepper .input
    [(emptyText "label").bindable .read,
      (PropSchema.defaulted "value" .anyInteger (.integer 0)).bindable .twoWay,
      .defaulted "min" .anyInteger (.integer 0), .defaulted "max" .anyInteger (.integer 100),
      .defaulted "step" (.integer (some 1) none) (.integer 1)] .none

/-- A stepper does not run downwards. -/
def checkStepper (props : Props) : Option (String × PropFault) :=
  if integerOf props "max" < integerOf props "min" then some ("min", .boundsDecreasing) else none

/-- The schema of a stepper. -/
def stepper : ComponentSchema :=
  .withCheck stepperMeta checkStepper

/-- The components that take input, without those that check their bounds. -/
def choices : List ComponentMeta :=
  [plain "Toggle" .toggle .input [emptyText "label", (flag "isOn").bindable .twoWay] .none,
    plain "Picker" .picker .input
      [emptyText "label", (emptyText "selection").bindable .twoWay, .needed "options" .strings,
        word "style" pickerStyles "automatic"] .none]

/-- The components that text is typed into. -/
def fields : List ComponentMeta :=
  [⟨"TextField", "Text Field", .input, .textField,
      [emptyText "placeholder", (emptyText "text").bindable .twoWay,
        word "keyboard" keyboards "default"], .none⟩,
    ⟨"SecureField", "Secure Field", .input, .secureField,
      [emptyText "placeholder", (emptyText "text").bindable .twoWay], .none⟩]

/-- The components that are made of others. -/
def patterns : List ComponentMeta :=
  [⟨"ProgressView", "Progress", .feedback, .progressView,
      [(PropSchema.optional "value" (.number (some 0.0) none)).bindable .read,
        .defaulted "total" (.number (some leastPositive) none) (.number 1.0),
        .optional "label" .string], .none⟩,
    plain "Card" .card .patterns
      [token "padding" .spacing "md", token "spacing" .spacing "sm",
        token "background" .color "surface", token "radius" .radius "lg",
        token "elevation" .shadow "sm"] .any,
    ⟨"EmptyState", "Empty State", .patterns, .emptyState,
      [.needed "title" .string, (PropSchema.optional "message" .string).bindable .read,
        .defaulted "systemImage" .string (.string "tray")], .none⟩]

/-- The standard components in the order of the palette. -/
def standardSchemas : List ComponentSchema :=
  (layout ++ navigation ++ primitives ++ choices).map .ofMeta ++ [slider, stepper] ++
    (fields ++ patterns).map .ofMeta

/-- The standard catalog. -/
def standard : Catalog :=
  ⟨standardSchemas.map fun schema => (schema.info.type, schema)⟩

/-- No two standard components have the same type. -/
theorem nodup_standard : standard.schemas.names.Nodup := by decide

end Screenwright.Catalog
