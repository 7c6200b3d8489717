/-
Generated Swift code: values, statements and views.

The trees hold every shape that views are lowered to and nothing else, so writing them
out needs no case for what cannot be written.
-/
import Screenwright.App.ValueType
import Screenwright.Design.Color
import Screenwright.Names.Words

namespace Screenwright.Swift

mutual

/-- A value. -/
inductive Value where
  | string (s : String)
  /-- A string literal that shows the value of a path. -/
  | interpolation (path : String)
  | int (n : Int)
  | number (x : Float)
  | bool (b : Bool)
  /-- A member whose type is known from its place. -/
  | member (name : String)
  | ident (name : String)
  /-- A path that is read and written. -/
  | binding (path : String)
  /-- A binding that never changes. -/
  | constant (value : Value)
  | color (color : Rgba)
  | font (size : Float) (weight design : String)
  | call (callee : String) (args : List (Option String × Value))
  | method (receiver : Value) (name : String) (args : List (Option String × Value))
  | array (items : List Value)
  | range (low high : Value)
  /-- A closure that runs statements. -/
  | action (body : List Statement)
  | nil

/-- A statement of an action. -/
inductive Statement where
  /-- Pushes the view of a route. -/
  | navigate (route : String)
  /-- Sets a presentation flag. -/
  | present (flag : String)
  | dismiss
  /-- Calls a handler. -/
  | invoke (name : String) (args : List (Option String × Value))

end

instance : Inhabited Value := ⟨.nil⟩

instance : Inhabited Statement := ⟨.dismiss⟩

/-- An argument of a call, with or without a label. -/
abbrev Arg := Option String × Value

/-- An argument without a label. -/
def bare (value : Value) : Arg := (none, value)

/-- An argument with a label. -/
def labeled (label : String) (value : Value) : Arg := (some label, value)

/-- The views that have content. -/
inductive ContainerKind where
  | vStack
  | hStack
  | zStack
  | scrollView
  | lazyVGrid
  | list
  | section
  | form
  | group
  | navigationStack
  | navigationLink
  | menu
  | button
  | picker
  | toolbarItemGroup
  | tabView
deriving DecidableEq, Repr

/-- The views made from arguments alone. -/
inductive LeafKind where
  | text
  | label
  | image
  | button
  | navigationLink
  | toggle
  | slider
  | stepper
  | textField
  | secureField
  | progressView
  | spacer
  | divider
  | emptyView
  | contentUnavailableView
  /-- A generated view, or a function that makes views. -/
  | custom (name : String)
deriving DecidableEq, Repr

mutual

/-- A view. -/
inductive View where
  /-- A view with content, and further labelled closures behind it. -/
  | container (kind : ContainerKind) (args : List Arg) (content : List View)
      (trailing : List Closure)
  | leaf (kind : LeafKind) (args : List Arg)
  /-- A view with modifiers, the innermost first. -/
  | modified (inner : View) (chain : List ViewModifier)
  /-- One of two lists of views. -/
  | conditional (condition : Value) (yes no : List View)

/-- A modifier of a view. -/
inductive ViewModifier where
  | mk (name : String) (args : List Arg) (trailing : List Closure)

/-- A closure that makes views. -/
inductive Closure where
  | mk (label : Option String) (params : List String) (body : List View)

end

instance : Inhabited View := ⟨.leaf .emptyView []⟩

instance : Inhabited ViewModifier := ⟨.mk "" [] []⟩

instance : Inhabited Closure := ⟨.mk none [] []⟩

namespace ContainerKind

/-- The name of the view. -/
def name : ContainerKind → String
  | vStack => "VStack"
  | hStack => "HStack"
  | zStack => "ZStack"
  | scrollView => "ScrollView"
  | lazyVGrid => "LazyVGrid"
  | list => "List"
  | «section» => "Section"
  | form => "Form"
  | group => "Group"
  | navigationStack => "NavigationStack"
  | navigationLink => "NavigationLink"
  | menu => "Menu"
  | button => "Button"
  | picker => "Picker"
  | toolbarItemGroup => "ToolbarItemGroup"
  | tabView => "TabView"

end ContainerKind

namespace LeafKind

/-- The name of the view. -/
def name : LeafKind → String
  | text => "Text"
  | label => "Label"
  | image => "Image"
  | button => "Button"
  | navigationLink => "NavigationLink"
  | toggle => "Toggle"
  | slider => "Slider"
  | stepper => "Stepper"
  | textField => "TextField"
  | secureField => "SecureField"
  | progressView => "ProgressView"
  | spacer => "Spacer"
  | divider => "Divider"
  | emptyView => "EmptyView"
  | contentUnavailableView => "ContentUnavailableView"
  | custom name => name

end LeafKind

namespace Closure

/-- The label of a closure. -/
def label : Closure → Option String
  | mk label _ _ => label

/-- The parameters of a closure. -/
def params : Closure → List String
  | mk _ params _ => params

/-- The views a closure makes. -/
def body : Closure → List View
  | mk _ _ body => body

/-- The closure that stands first behind a call. -/
def first (body : List View) : Closure := mk none [] body

/-- A closure with a label. -/
def named (label : String) (body : List View) : Closure := mk (some label) [] body

end Closure

namespace ViewModifier

/-- The name of a modifier. -/
def name : ViewModifier → String
  | mk name _ _ => name

/-- The arguments of a modifier. -/
def args : ViewModifier → List Arg
  | mk _ args _ => args

/-- The closures of a modifier. -/
def trailing : ViewModifier → List Closure
  | mk _ _ trailing => trailing

/-- A modifier without closures. -/
def plain (name : String) (args : List Arg) : ViewModifier := mk name args []

/-- A modifier with one argument. -/
def single (name : String) (value : Value) : ViewModifier := mk name [bare value] []

end ViewModifier

namespace View

/-- A view with content. -/
def ofContent (kind : ContainerKind) (args : List Arg) (content : List View) : View :=
  container kind args content []

/-- The view with further modifiers outside those it has. -/
def modify (view : View) (modifiers : List ViewModifier) : View :=
  if modifiers.isEmpty then view
  else
    match view with
    | modified inner chain => modified inner (chain ++ modifiers)
    | view => modified view modifiers

/-- A text. -/
def text (value : Value) : View := leaf .text [bare value]

end View

/-- The spelling of a type. -/
def typeText : ValueType → String
  | .string => "String"
  | .int => "Int"
  | .double => "Double"
  | .bool => "Bool"
  | .date => "Date"
  | .array item => "[" ++ typeText item ++ "]"
  | .optional inner => typeText inner ++ "?"
  | .model name => (Names.typeName? name).getD name

end Screenwright.Swift
