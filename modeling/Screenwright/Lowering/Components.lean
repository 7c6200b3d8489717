/-
Lowering components.

Every kind of component has a function of its own, which is given the way to lower the
content and so does not recurse.  The recursion over the tree is at the end: it splits
the children of a node into content and presentations, and hangs the presentations on
the view of their parent as modifiers.
-/
import Screenwright.Lowering.Modifiers

namespace Screenwright

open Swift (Statement Value View ViewModifier Closure Arg bare labeled)

/-! ### Properties -/

namespace Element

/-- A token property. -/
def token? (e : Element) (name : String) : Option TokenRef :=
  (e.prop? name).bind PropValue.token?

/-- A property that is a text or a word. -/
def text? (e : Element) (name : String) : Option String :=
  (e.prop? name).bind PropValue.text?

/-- A word, unless it is the given one. -/
def wordExcept? (e : Element) (name usual : String) : Option String :=
  (e.text? name).filter (· ≠ usual)

/-- A boolean property. -/
def bool? (e : Element) (name : String) : Option Bool :=
  (e.prop? name).bind PropValue.bool?

/-- A numeric property. -/
def number? (e : Element) (name : String) : Option Float :=
  (e.prop? name).bind PropValue.number?

/-- A whole property. -/
def integer? (e : Element) (name : String) : Option Int :=
  (e.prop? name).bind PropValue.integer?

end Element

/-- A property value as a literal, if it is one. -/
def PropValue.literal? : PropValue → Option Value
  | string s => some (.string s)
  | number x => some (.number x)
  | integer n => some (.int n)
  | bool b => some (.bool b)
  | strings items => some (.array (items.map .string))
  | _ => none

/-- A labelled argument, if there is a value. -/
def optionalArg {α : Type} (label : String) (toValue : α → Value) (value : Option α) : List Arg :=
  (value.map fun v => labeled label (toValue v)).toList

/-- A modifier with one argument, if there is a value. -/
def optionalModifier {α : Type} (name : String) (toValue : α → Value) (value : Option α) :
    List ViewModifier :=
  (value.map fun v => ViewModifier.single name (toValue v)).toList

/-- Several views as one. -/
def singleView : List View → View
  | [] => .leaf .emptyView []
  | [view] => view
  | views => .ofContent .vStack [] views

/-- The label of a tab. -/
def tabLabel (item : TabItem) : View :=
  .leaf .label [bare (.string item.title), labeled "systemImage" (.string item.icon)]

namespace Setting

/-- A property inside a text: what it is bound to, else its own text. -/
def text? (s : Setting) (e : Element) (name : String) : Option Value :=
  match s.bound? e.id name with
  | some bound => some bound.text
  | none => (e.text? name).map .string

/-- A property inside a text, empty if it is absent. -/
def text (s : Setting) (e : Element) (name : String) : Value :=
  (s.text? e name).getD (.string "")

/-- The value of a property: what it is bound to, else its literal. -/
def read? (s : Setting) (e : Element) (name : String) : Option Value :=
  match s.bound? e.id name with
  | some bound => some bound.read
  | none => (e.prop? name).bind PropValue.literal?

/-- A binding of a property: to what it is bound to, else to its literal. -/
def write (s : Setting) (e : Element) (name : String) : Value :=
  match s.bound? e.id name with
  | some bound => bound.write
  | none => .constant (((e.prop? name).bind PropValue.literal?).getD (.bool false))

/-- What a token property stands for, if it is given. -/
def tokenProp {α : Type} (resolve : String → TokenRef → Except BuildError α) (e : Element)
    (name : String) : Except BuildError (Option α) :=
  match e.token? name with
  | some ref => (resolve e.id ref).map some
  | none => .ok none

/-- The length of a token property, if it is given. -/
def length? (s : Setting) (e : Element) (name : String) : Except BuildError (Option Float) :=
  tokenProp s.dimension e name

/-- The color of a token property, if it is given. -/
def color? (s : Setting) (e : Element) (name : String) : Except BuildError (Option Value) :=
  tokenProp s.color e name

/-- The font of a token property, if it is given. -/
def font? (s : Setting) (e : Element) (name : String) : Except BuildError (Option Value) :=
  tokenProp s.font e name

/-- The shadow of a token property, if it is given. -/
def shadow? (s : Setting) (e : Element) (name : String) :
    Except BuildError (Option ViewModifier) :=
  tokenProp s.shadow e name

/-! ### Layout -/

/-- A vertical or a horizontal stack. -/
def stack (s : Setting) (e : Element) (kind : Swift.ContainerKind) (content : Build (List View)) :
    Build View := do
  let spacing ← s.length? e "spacing"
  let views ← content
  return .ofContent kind
    (optionalArg "alignment" .member (e.wordExcept? "alignment" "center") ++
      optionalArg "spacing" .number spacing) views

/-- A layered stack. -/
def layers (e : Element) (content : Build (List View)) : Build View := do
  let views ← content
  return .ofContent .zStack (optionalArg "alignment" .member (e.wordExcept? "alignment" "center"))
    views

/-- A scroll view; several views that scroll sideways stand in a row. -/
def scroll (e : Element) (content : Build (List View)) : Build View := do
  let views ← content
  let isHorizontal := e.text? "axis" = some "horizontal"
  let hidesIndicators := e.bool? "showsIndicators" = some false
  return .ofContent .scrollView
    ((if isHorizontal then [bare (.member "horizontal")] else []) ++
      (if hidesIndicators then [labeled "showsIndicators" (.bool false)] else []))
    (if isHorizontal && 1 < views.length then [.ofContent .hStack [] views] else views)

/-- A grid. -/
def grid (s : Setting) (e : Element) (content : Build (List View)) : Build View := do
  let spacing := (← s.length? e "spacing").getD 0.0
  let views ← content
  let item : Value :=
    .call "GridItem" [bare (.call ".flexible" []), labeled "spacing" (.number spacing)]
  let columns : Value :=
    .call "Array"
      [labeled "repeating" item, labeled "count" (.int ((e.integer? "columns").getD 2))]
  return .ofContent .lazyVGrid [labeled "columns" columns, labeled "spacing" (.number spacing)]
    views

/-- A list. -/
def list (e : Element) (content : Build (List View)) : Build View := do
  let views ← content
  return (View.ofContent .list [] views).modify
    (optionalModifier "listStyle" .member (e.wordExcept? "style" "automatic"))

/-- A section with its header and footer. -/
def «section» (e : Element) (content : Build (List View)) : Build View := do
  let views ← content
  let titled (label : String) : List Closure :=
    ((e.text? label).map fun title => Closure.named label [.text (.string title)]).toList
  return .container .section [] views (titled "header" ++ titled "footer")

/-- A spacer. -/
def spacer (s : Setting) (e : Element) : Build View := do
  let minLength ← s.length? e "minLength"
  return .leaf .spacer (optionalArg "minLength" .number minLength)

/-- One of two views. -/
def conditional (s : Setting) (e : Element) (content : Build (List View)) : Build View := do
  let views ← content
  return .conditional ((s.read? e "condition").getD (.bool false)) (views.take 1) (views.drop 1)

/-! ### Navigation -/

/-- A navigation stack; the title is a modifier of its content. -/
def navigationStack (s : Setting) (e : Element) (content : Build (List View)) : Build View := do
  let views ← content
  let titles :=
    optionalModifier "navigationTitle" id (s.text? e "title") ++
      optionalModifier "navigationBarTitleDisplayMode" .member
        (e.wordExcept? "titleDisplayMode" "automatic")
  if titles.isEmpty then return .ofContent .navigationStack [] views
  let inner := match views with
    | [view] => view
    | views => .ofContent .group [] views
  return .ofContent .navigationStack [] [inner.modify titles]

/-- A link to a screen. -/
def navigationLink (s : Setting) (e : Element) (content : Build (List View)) : Build View := do
  let target := (e.text? "target").getD ""
  let names ← s.target e.id target
  s.addEdge e.id target .push
  let views ← content
  let value := labeled "value" (.ident ("Route." ++ names.routeCase))
  if views.isEmpty then
    return .leaf .navigationLink [bare ((s.text? e "title").getD (.string names.title)), value]
  return .ofContent .navigationLink [value] views

/-- The view of a tab. -/
def tab (s : Setting) (node : String) (item : TabItem) : Build View := do
  let names ← s.target node item.screen
  s.addEdge node item.screen .tab
  return (View.leaf (.custom names.viewType) []).modify
    [.mk "tabItem" [] [Closure.first [tabLabel item]]]

/-- A tab view. -/
def tabView (s : Setting) (e : Element) : Build View := do
  let items := match e.prop? "tabs" with
    | some (.tabs items) => items
    | _ => []
  let views ← items.mapM (s.tab e.id)
  return .ofContent .tabView [] views

/-- A menu. -/
def menu (s : Setting) (e : Element) (content : Build (List View)) : Build View := do
  let views ← content
  return .ofContent .menu
    (bare (s.text e "title") :: optionalArg "systemImage" .string (e.text? "systemImage")) views

/-! ### Primitives -/

/-- A text. -/
def textView (s : Setting) (e : Element) : Build View := do
  let font ← s.font? e "font"
  let color ← s.color? e "color"
  return (View.text (s.text e "content")).modify
    (optionalModifier "font" id font ++ optionalModifier "foregroundStyle" id color ++
      optionalModifier "multilineTextAlignment" .member (e.text? "alignment") ++
      optionalModifier "lineLimit" .int (e.integer? "lineLimit"))

/-- A title with an icon. -/
def label (s : Setting) (e : Element) : View :=
  .leaf .label
    [bare (s.text e "title"), labeled "systemImage" (.string ((e.text? "systemImage").getD ""))]

/-- An image by its name, or by the name of a symbol. -/
def image (s : Setting) (e : Element) : Build View := do
  let color ← s.color? e "color"
  let arg := match e.text? "name" with
    | some name => bare (.string name)
    | none => labeled "systemName" (.string ((e.text? "systemName").getD "photo"))
  return (View.leaf .image [arg]).modify
    ((if e.bool? "resizable" = some true then [.plain "resizable" []] else []) ++
      ((e.text? "contentMode").map fun mode =>
        ViewModifier.plain "aspectRatio" [labeled "contentMode" (.member mode)]).toList ++
      optionalModifier "foregroundStyle" id color)

/-- A button with a title, or with content. -/
def button (s : Setting) (e : Element) (content : Build (List View)) : Build View := do
  let body ← match e.prop? "action" with
    | some (.action action) => s.action e.id action
    | _ => pure []
  let views ← content
  let tint ← s.color? e "tint"
  let trigger := optionalArg "role" .member (e.wordExcept? "role" "none") ++
    [labeled "action" (.action body)]
  let view : View :=
    if views.isEmpty then
      .leaf .button
        (bare (s.text e "title") :: optionalArg "systemImage" .string (e.text? "systemImage") ++
          trigger)
    else .ofContent .button trigger views
  return view.modify
    (optionalModifier "buttonStyle" .member (e.wordExcept? "style" "automatic") ++
      optionalModifier "tint" id tint)

/-! ### Input -/

/-- A switch. -/
def toggle (s : Setting) (e : Element) : View :=
  .leaf .toggle [bare (s.text e "label"), labeled "isOn" (s.write e "isOn")]

/-- An option of a picker. -/
def pickerOption (option : String) : View :=
  (View.text (.string option)).modify [.single "tag" (.string option)]

/-- A picker. -/
def picker (s : Setting) (e : Element) : View :=
  let options := match e.prop? "options" with
    | some (.strings items) => items
    | _ => []
  (View.ofContent .picker
    [bare (s.text e "label"), labeled "selection" (s.write e "selection")]
    (options.map pickerOption)).modify
    (optionalModifier "pickerStyle" .member (e.wordExcept? "style" "automatic"))

/-- A slider. -/
def slider (s : Setting) (e : Element) : View :=
  let bound (name : String) : Value := .number ((e.number? name).getD 0.0)
  .leaf .slider
    ([labeled "value" (s.write e "value"), labeled "in" (.range (bound "min") (bound "max"))] ++
      optionalArg "step" .number (e.number? "step"))

/-- A stepper. -/
def stepper (s : Setting) (e : Element) : View :=
  let bound (name : String) : Value := .int ((e.integer? name).getD 0)
  let step := (e.integer? "step").getD 1
  .leaf .stepper
    ([bare (s.text e "label"), labeled "value" (s.write e "value"),
        labeled "in" (.range (bound "min") (bound "max"))] ++
      (if step = 1 then [] else [labeled "step" (.int step)]))

/-- A text field of either kind. -/
def field (s : Setting) (e : Element) (kind : Swift.LeafKind) : View :=
  (View.leaf kind [bare (s.text e "placeholder"), labeled "text" (s.write e "text")]).modify
    (optionalModifier "keyboardType" .member (e.wordExcept? "keyboard" "default"))

/-! ### Display -/

/-- A progress bar, or a spinner if there is no value. -/
def progressView (s : Setting) (e : Element) : View :=
  let label := ((s.text? e "label").map bare).toList
  .leaf .progressView
    (match s.read? e "value" with
    | some value =>
      label ++ [labeled "value" value, labeled "total" (.number ((e.number? "total").getD 1.0))]
    | none => label)

/-- A card: a padded stack on a background. -/
def card (s : Setting) (e : Element) (content : Build (List View)) : Build View := do
  let padding := (← s.length? e "padding").getD 0.0
  let spacing := (← s.length? e "spacing").getD 0.0
  let radius := (← s.length? e "radius").getD 0.0
  let background ← s.color? e "background"
  let shadow ← s.shadow? e "elevation"
  let views ← content
  return (View.ofContent .vStack
    [labeled "alignment" (.member "leading"), labeled "spacing" (.number spacing)] views).modify
    ([.single "padding" (.number padding),
        .plain "frame" [labeled "maxWidth" (.member "infinity"),
          labeled "alignment" (.member "leading")]] ++
      (background.map fun color =>
        ViewModifier.plain "background" [bare color, labeled "in" (shape radius)]).toList ++
      shadow.toList)

/-- What is shown where there is nothing to show. -/
def emptyState (s : Setting) (e : Element) : View :=
  .leaf .contentUnavailableView
    ([bare (s.text e "title"),
        labeled "systemImage" (.string ((e.text? "systemImage").getD "tray"))] ++
      optionalArg "description" (fun message => .call "Text" [bare message]) (s.text? e "message"))

/-! ### Components -/

/-- The view of an element, without its modifiers and its presentations. -/
def component (s : Setting) (e : Element) (content : Build (List View)) : Build View :=
  match e.kind with
  | .vStack => s.stack e .vStack content
  | .hStack => s.stack e .hStack content
  | .zStack => layers e content
  | .scrollView => scroll e content
  | .grid => s.grid e content
  | .list => list e content
  | .section => «section» e content
  | .form => do return .ofContent .form [] (← content)
  | .spacer => s.spacer e
  | .divider => return .leaf .divider []
  | .conditional => s.conditional e content
  | .navigationStack => s.navigationStack e content
  | .navigationLink => s.navigationLink e content
  | .tabView => s.tabView e
  | .menu => s.menu e content
  | .text => s.textView e
  | .label => return s.label e
  | .image => s.image e
  | .button => s.button e content
  | .toggle => return s.toggle e
  | .picker => return s.picker e
  | .slider => return s.slider e
  | .stepper => return s.stepper e
  | .textField => return s.field e .textField
  | .secureField => return s.field e .secureField
  | .progressView => return s.progressView e
  | .card => s.card e content
  | .emptyState => return s.emptyState e
  | .sheet => return .leaf .emptyView []
  | .fullScreenCover => return .leaf .emptyView []
  | .alert => return .leaf .emptyView []
  | .confirmationDialog => return .leaf .emptyView []
  | .toolbar => return .leaf .emptyView []

/-! ### Presentations -/

/-- The sizes that a sheet can take. -/
def detents (e : Element) : List ViewModifier :=
  let sizes (names : List String) : List ViewModifier :=
    [.single "presentationDetents" (.array (names.map .member))]
  match e.text? "detents" with
  | some "medium" => sizes ["medium"]
  | some "mediumAndLarge" => sizes ["medium", "large"]
  | _ => []

/-- A sheet or a cover with what it presents. -/
def cover (s : Setting) (e : Element) (name : String) (content : Build (List View))
    (nested : Build (List ViewModifier)) : Build (List ViewModifier) := do
  let view := singleView (← content)
  let user ← s.userModifiers e
  let hoisted ← nested
  return [.mk name [labeled "isPresented" (s.write e "isPresented")]
    [Closure.first [view.modify (detents e ++ user ++ hoisted)]]]

/-- Refuses modifiers on an element without a view of its own. -/
def rejectModifiers (e : Element) : Except BuildError Unit :=
  match e.modifiers with
  | [] => .ok ()
  | m :: _ => .error (.invalidArgs e.id m.name (.notModifiable e.type))

/-- A button of an alert or a dialog. -/
def actionButton (s : Setting) (node : String) (item : ActionItem) : Build View := do
  let body ← match item.action with
    | some action => s.action node action
    | none => pure []
  return .leaf .button
    ([bare (.string item.label)] ++ optionalArg "role" (fun r => .member r.name) item.role ++
      [labeled "action" (.action body)])

/-- An alert or a confirmation dialog. -/
def dialog (s : Setting) (e : Element) (name : String) (extra : List Arg) :
    Build (List ViewModifier) := do
  rejectModifiers e
  let items := match e.prop? "actions" with
    | some (.actions items) => items
    | _ => []
  let buttons ← items.mapM (s.actionButton e.id)
  let message := ((s.text? e "message").map fun m => Closure.named "message" [.text m]).toList
  return [.mk name
    ([bare (.string ((e.text? "title").getD "")),
        labeled "isPresented" (s.write e "isPresented")] ++ extra)
    (Closure.first buttons :: message)]

/-- A toolbar, followed by what is presented from inside it. -/
def toolbar (e : Element) (content : Build (List View)) (nested : Build (List ViewModifier)) :
    Build (List ViewModifier) := do
  rejectModifiers e
  let views ← content
  let placement := (e.text? "placement").getD "automatic"
  let group : View :=
    .ofContent .toolbarItemGroup [labeled "placement" (.member placement)] views
  let hoisted ← nested
  return .mk "toolbar" [] [Closure.first [group]] :: hoisted

/-- The modifiers by which an element is presented. -/
def presentation (s : Setting) (e : Element) (content : Build (List View))
    (nested : Build (List ViewModifier)) : Build (List ViewModifier) :=
  match e.kind with
  | .sheet => s.cover e "sheet" content nested
  | .fullScreenCover => s.cover e "fullScreenCover" content nested
  | .alert => s.dialog e "alert" []
  | .confirmationDialog =>
    s.dialog e "confirmationDialog" [labeled "titleVisibility" (.member "visible")]
  | .toolbar => toolbar e content nested
  | _ => throw (.notPresentable e.id e.type)

/-! ### Trees -/

mutual

/-- Lowers a tree: the view of its element, then the modifiers of the element, then the
presentations among its children. -/
def lower (s : Setting) : Tree Element → Build View
  | .node e ts => do
    let base ← s.component e (lowerContent s ts)
    let user ← s.userModifiers e
    let hoisted ← lowerPresented s ts
    return (base.modify user).modify hoisted

/-- The modifiers by which a tree is presented. -/
def present (s : Setting) : Tree Element → Build (List ViewModifier)
  | .node e ts => s.presentation e (lowerContent s ts) (lowerPresented s ts)

/-- Lowers the trees that stand in the content of their parent. -/
def lowerContent (s : Setting) : List (Tree Element) → Build (List View)
  | [] => return []
  | t :: ts =>
    if t.value.kind.isPresentation then lowerContent s ts
    else do
      let view ← lower s t
      let views ← lowerContent s ts
      return view :: views

/-- The modifiers of the trees that are presented from their parent. -/
def lowerPresented (s : Setting) : List (Tree Element) → Build (List ViewModifier)
  | [] => return []
  | t :: ts =>
    if t.value.kind.isPresentation then do
      let modifiers ← present s t
      let rest ← lowerPresented s ts
      return modifiers ++ rest
    else lowerPresented s ts

end

/-- Lowers the tree of a screen.  A presentation at the root is hung on an empty view. -/
def lowerRoot (s : Setting) (root : Tree Element) : Build View :=
  if root.value.kind.isPresentation then do
    let hoisted ← present s root
    return (View.leaf .emptyView []).modify hoisted
  else lower s root

end Setting

end Screenwright
