/-
Lowering reads no literal of a bound property.

A component is lowered by reading its properties, and there are two sorts of readers.  Those of
properties that can be bound ask for what the property is bound to, and for its literal only if
there is nothing.  All others read the literal at once, and they are used for properties that
the catalog does not let be bound.  So an element reads the same whether it is trimmed or not,
`Reads`, as soon as every property that it binds is bound to something in the setting; and what
is lowered from it is the same.
-/
import Screenwright.Proofs.Literals.Trim
import Screenwright.Proofs.References

namespace Screenwright

open Steps
open DataBinding (covers)
open Swift (View ViewModifier Statement Value)

/-- The properties that an element binds are bound to something in the setting, and they are
none that cannot be bound. -/
structure Element.Covered (e : Element) (s : Setting) : Prop where
  bound : ∀ name, covers e.bindings name = true → ∃ bound, s.bound? e.id name = some bound
  fixed : ∀ name, Catalog.isFixed e.kind name = true → covers e.bindings name = false

/-- Without the literals of bound properties an element of the kind reads the same. -/
structure Element.Reads (e : Element) (s : Setting) (kind : ComponentKind) : Prop where
  prop? : ∀ name, Catalog.isFixed kind name = true → e.trim.prop? name = e.prop? name
  text? : ∀ name, s.text? e.trim name = s.text? e name
  read? : ∀ name, s.read? e.trim name = s.read? e name
  write : ∀ name, s.write e.trim name = s.write e name

theorem Element.Covered.reads {e : Element} {s : Setting} (h : e.Covered s) :
    e.Reads s e.kind := by
  have hcases : ∀ name, e.trim.prop? name = e.prop? name ∨
      ∃ bound, s.bound? e.id name = some bound := by
    intro name
    cases hcovers : covers e.bindings name with
    | false => exact .inl (prop?_trim hcovers)
    | true => exact .inr (h.bound name hcovers)
  refine ⟨fun name hfixed => prop?_trim (h.fixed name hfixed), fun name => ?_, fun name => ?_,
    fun name => ?_⟩
  · rcases hcases name with hprop | ⟨bound, hbound⟩
    · rw [Setting.text?, Element.text?, hprop]
      rfl
    · have htrim : s.bound? e.trim.id name = some bound := hbound
      rw [Setting.text?, htrim, Setting.text?, hbound]
  · rcases hcases name with hprop | ⟨bound, hbound⟩
    · rw [Setting.read?, hprop]
      rfl
    · have htrim : s.bound? e.trim.id name = some bound := hbound
      rw [Setting.read?, htrim, Setting.read?, hbound]
  · rcases hcases name with hprop | ⟨bound, hbound⟩
    · rw [Setting.write, hprop]
      rfl
    · have htrim : s.bound? e.trim.id name = some bound := hbound
      rw [Setting.write, htrim, Setting.write, hbound]

namespace Element.Reads

variable {e : Element} {s : Setting} {kind : ComponentKind}

theorem text (h : e.Reads s kind) (name : String) : s.text e.trim name = s.text e name := by
  rw [Setting.text, h.text?, Setting.text]

theorem token? (h : e.Reads s kind) (name : String)
    (hfixed : Catalog.isFixed kind name = true) :
    e.trim.token? name = e.token? name := by
  rw [Element.token?, h.prop? name hfixed, Element.token?]

theorem word? (h : e.Reads s kind) (name : String)
    (hfixed : Catalog.isFixed kind name = true) :
    e.trim.text? name = e.text? name := by
  rw [Element.text?, h.prop? name hfixed, Element.text?]

theorem wordExcept? (h : e.Reads s kind) (name : String)
    (hfixed : Catalog.isFixed kind name = true) (usual : String) :
    e.trim.wordExcept? name usual = e.wordExcept? name usual := by
  rw [Element.wordExcept?, h.word? name hfixed, Element.wordExcept?]

theorem bool? (h : e.Reads s kind) (name : String)
    (hfixed : Catalog.isFixed kind name = true) :
    e.trim.bool? name = e.bool? name := by
  rw [Element.bool?, h.prop? name hfixed, Element.bool?]

theorem number? (h : e.Reads s kind) (name : String)
    (hfixed : Catalog.isFixed kind name = true) :
    e.trim.number? name = e.number? name := by
  rw [Element.number?, h.prop? name hfixed, Element.number?]

theorem integer? (h : e.Reads s kind) (name : String)
    (hfixed : Catalog.isFixed kind name = true) :
    e.trim.integer? name = e.integer? name := by
  rw [Element.integer?, h.prop? name hfixed, Element.integer?]

theorem tokenProp {α : Type} (h : e.Reads s kind) (name : String)
    (hfixed : Catalog.isFixed kind name = true)
    (resolve : String → TokenRef → Except BuildError α) :
    Setting.tokenProp resolve e.trim name = Setting.tokenProp resolve e name := by
  rw [Setting.tokenProp, h.token? name hfixed]
  rfl

theorem length? (h : e.Reads s kind) (name : String)
    (hfixed : Catalog.isFixed kind name = true) :
    s.length? e.trim name = s.length? e name :=
  h.tokenProp name hfixed s.dimension

theorem color? (h : e.Reads s kind) (name : String)
    (hfixed : Catalog.isFixed kind name = true) :
    s.color? e.trim name = s.color? e name :=
  h.tokenProp name hfixed s.color

theorem font? (h : e.Reads s kind) (name : String)
    (hfixed : Catalog.isFixed kind name = true) :
    s.font? e.trim name = s.font? e name :=
  h.tokenProp name hfixed s.font

theorem shadow? (h : e.Reads s kind) (name : String)
    (hfixed : Catalog.isFixed kind name = true) :
    s.shadow? e.trim name = s.shadow? e name :=
  h.tokenProp name hfixed s.shadow

end Element.Reads

/-! ### Components -/

namespace Setting

variable {s : Setting} {e : Element} {content : Build (List View)}

theorem stack_trim {kind : Swift.ContainerKind} {k : ComponentKind} (h : e.Reads s k)
    (halignment : Catalog.isFixed k "alignment" = true)
    (hspacing : Catalog.isFixed k "spacing" = true) :
    s.stack e.trim kind content = s.stack e kind content := by
  unfold stack
  rw [h.length? "spacing" hspacing, h.wordExcept? "alignment" halignment]

theorem layers_trim (h : e.Reads s .zStack) : layers e.trim content = layers e content := by
  unfold layers
  rw [h.wordExcept? "alignment" rfl]

theorem scroll_trim (h : e.Reads s .scrollView) : scroll e.trim content = scroll e content := by
  unfold scroll
  rw [h.word? "axis" rfl, h.bool? "showsIndicators" rfl]

theorem grid_trim (h : e.Reads s .grid) : s.grid e.trim content = s.grid e content := by
  unfold grid
  rw [h.length? "spacing" rfl, h.integer? "columns" rfl]

theorem list_trim (h : e.Reads s .list) : list e.trim content = list e content := by
  unfold list
  rw [h.wordExcept? "style" rfl]

theorem section_trim (h : e.Reads s .section) :
    «section» e.trim content = «section» e content := by
  unfold «section»
  dsimp only
  rw [h.word? "header" rfl, h.word? "footer" rfl]

theorem spacer_trim (h : e.Reads s .spacer) : s.spacer e.trim = s.spacer e := by
  unfold spacer
  rw [h.length? "minLength" rfl]

theorem conditional_trim (h : e.Reads s .conditional) :
    s.conditional e.trim content = s.conditional e content := by
  unfold conditional
  rw [h.read? "condition"]

theorem navigationStack_trim (h : e.Reads s .navigationStack) :
    s.navigationStack e.trim content = s.navigationStack e content := by
  unfold navigationStack
  rw [h.text? "title", h.wordExcept? "titleDisplayMode" rfl]

theorem navigationLink_trim (h : e.Reads s .navigationLink) :
    s.navigationLink e.trim content = s.navigationLink e content := by
  unfold navigationLink
  rw [h.word? "target" rfl, h.text? "title"]
  rfl

theorem tabView_trim (h : e.Reads s .tabView) : s.tabView e.trim = s.tabView e := by
  unfold tabView
  rw [h.prop? "tabs" rfl]
  rfl

theorem menu_trim (h : e.Reads s .menu) : s.menu e.trim content = s.menu e content := by
  unfold menu
  rw [h.text "title", h.word? "systemImage" rfl]

theorem textView_trim (h : e.Reads s .text) : s.textView e.trim = s.textView e := by
  unfold textView
  rw [h.font? "font" rfl, h.color? "color" rfl, h.text "content", h.word? "alignment" rfl,
    h.integer? "lineLimit" rfl]

theorem label_trim (h : e.Reads s .label) : s.label e.trim = s.label e := by
  unfold label
  rw [h.text "title", h.word? "systemImage" rfl]

theorem image_trim (h : e.Reads s .image) : s.image e.trim = s.image e := by
  unfold image
  rw [h.color? "color" rfl, h.word? "name" rfl, h.word? "systemName" rfl, h.bool? "resizable" rfl,
    h.word? "contentMode" rfl]

theorem button_trim (h : e.Reads s .button) : s.button e.trim content = s.button e content := by
  unfold button
  rw [h.prop? "action" rfl, h.color? "tint" rfl, h.wordExcept? "role" rfl, h.text "title",
    h.word? "systemImage" rfl, h.wordExcept? "style" rfl]
  rfl

theorem toggle_trim (h : e.Reads s .toggle) : s.toggle e.trim = s.toggle e := by
  unfold toggle
  rw [h.text "label", h.write "isOn"]

theorem picker_trim (h : e.Reads s .picker) : s.picker e.trim = s.picker e := by
  unfold picker
  rw [h.prop? "options" rfl, h.text "label", h.write "selection", h.wordExcept? "style" rfl]

theorem slider_trim (h : e.Reads s .slider) : s.slider e.trim = s.slider e := by
  unfold slider
  dsimp only
  rw [h.write "value", h.number? "min" rfl, h.number? "max" rfl, h.number? "step" rfl]

theorem stepper_trim (h : e.Reads s .stepper) : s.stepper e.trim = s.stepper e := by
  unfold stepper
  dsimp only
  rw [h.text "label", h.write "value", h.integer? "min" rfl, h.integer? "max" rfl,
    h.integer? "step" rfl]

theorem field_trim {kind : Swift.LeafKind} {k : ComponentKind} (h : e.Reads s k)
    (hkeyboard : Catalog.isFixed k "keyboard" = true) :
    s.field e.trim kind = s.field e kind := by
  unfold field
  rw [h.text "placeholder", h.write "text", h.wordExcept? "keyboard" hkeyboard]

theorem progressView_trim (h : e.Reads s .progressView) :
    s.progressView e.trim = s.progressView e := by
  unfold progressView
  rw [h.text? "label", h.read? "value", h.number? "total" rfl]

theorem card_trim (h : e.Reads s .card) : s.card e.trim content = s.card e content := by
  unfold card
  rw [h.length? "padding" rfl, h.length? "spacing" rfl, h.length? "radius" rfl,
    h.color? "background" rfl, h.shadow? "elevation" rfl]

theorem emptyState_trim (h : e.Reads s .emptyState) : s.emptyState e.trim = s.emptyState e := by
  unfold emptyState
  rw [h.text "title", h.word? "systemImage" rfl, h.text? "message"]

/-- **A covered component is lowered without a look at the literals of bound properties.** -/
theorem component_trim (h : e.Covered s) : s.component e.trim content = s.component e content := by
  have hreads := h.reads
  have htrim : e.trim.kind = e.kind := rfl
  unfold component
  rw [htrim]
  cases hkind : e.kind with
  | vStack => exact stack_trim (hkind ▸ hreads) rfl rfl
  | hStack => exact stack_trim (hkind ▸ hreads) rfl rfl
  | zStack => exact layers_trim (hkind ▸ hreads)
  | scrollView => exact scroll_trim (hkind ▸ hreads)
  | grid => exact grid_trim (hkind ▸ hreads)
  | list => exact list_trim (hkind ▸ hreads)
  | «section» => exact section_trim (hkind ▸ hreads)
  | form => rfl
  | spacer => exact spacer_trim (hkind ▸ hreads)
  | divider => rfl
  | conditional => exact conditional_trim (hkind ▸ hreads)
  | navigationStack => exact navigationStack_trim (hkind ▸ hreads)
  | navigationLink => exact navigationLink_trim (hkind ▸ hreads)
  | tabView => exact tabView_trim (hkind ▸ hreads)
  | menu => exact menu_trim (hkind ▸ hreads)
  | text => exact textView_trim (hkind ▸ hreads)
  | label => exact congrArg pure (label_trim (hkind ▸ hreads))
  | image => exact image_trim (hkind ▸ hreads)
  | button => exact button_trim (hkind ▸ hreads)
  | toggle => exact congrArg pure (toggle_trim (hkind ▸ hreads))
  | picker => exact congrArg pure (picker_trim (hkind ▸ hreads))
  | slider => exact congrArg pure (slider_trim (hkind ▸ hreads))
  | stepper => exact congrArg pure (stepper_trim (hkind ▸ hreads))
  | textField => exact congrArg pure (field_trim (hkind ▸ hreads) rfl)
  | secureField => exact congrArg pure (field_trim (hkind ▸ hreads) rfl)
  | progressView => exact congrArg pure (progressView_trim (hkind ▸ hreads))
  | card => exact card_trim (hkind ▸ hreads)
  | emptyState => exact congrArg pure (emptyState_trim (hkind ▸ hreads))
  | sheet => rfl
  | fullScreenCover => rfl
  | alert => rfl
  | confirmationDialog => rfl
  | toolbar => rfl

/-! ### Presentations -/

variable {nested : Build (List ViewModifier)}

theorem cover_trim {k : ComponentKind} {name : String} (h : e.Reads s k)
    (hdetents : Catalog.isFixed k "detents" = true) :
    s.cover e.trim name content nested = s.cover e name content nested := by
  have hsizes : detents e.trim = detents e := by
    unfold detents
    rw [h.word? "detents" hdetents]
  unfold cover
  rw [h.write "isPresented", hsizes]
  rfl

theorem dialog_trim {k : ComponentKind} {name : String} {extra : List Swift.Arg}
    (h : e.Reads s k) (hactions : Catalog.isFixed k "actions" = true)
    (htitle : Catalog.isFixed k "title" = true) :
    s.dialog e.trim name extra = s.dialog e name extra := by
  unfold dialog
  rw [h.prop? "actions" hactions, h.text? "message", h.word? "title" htitle, h.write "isPresented"]
  rfl

theorem toolbar_trim (h : e.Reads s .toolbar) :
    toolbar e.trim content nested = toolbar e content nested := by
  unfold toolbar
  rw [h.word? "placement" rfl]
  rfl

/-- **A covered component is presented without a look at the literals of bound properties.** -/
theorem presentation_trim (h : e.Covered s) :
    s.presentation e.trim content nested = s.presentation e content nested := by
  have hreads := h.reads
  have htrim : e.trim.kind = e.kind := rfl
  unfold presentation
  rw [htrim]
  cases hkind : e.kind with
  | sheet => exact cover_trim (hkind ▸ hreads) rfl
  | fullScreenCover => exact cover_trim (hkind ▸ hreads) rfl
  | alert => exact dialog_trim (hkind ▸ hreads) rfl rfl
  | confirmationDialog => exact dialog_trim (hkind ▸ hreads) rfl rfl
  | toolbar => exact toolbar_trim (hkind ▸ hreads)
  | _ => rfl

/-! ### Trees -/

mutual

/-- **A covered tree is lowered, and presented, as the trimmed tree is.** -/
theorem tree_trim (s : Setting) : ∀ t : Tree Element, (∀ e ∈ t.preorder, e.Covered s) →
    lower s (t.map Element.trim) = lower s t ∧ present s (t.map Element.trim) = present s t
  | .node e ts, h => by
    obtain ⟨hcontent, hpresented⟩ := trees_trim s ts fun e he => h e (List.mem_cons_of_mem _ he)
    have hself : e.Covered s := h e List.mem_cons_self
    rw [Tree.map]
    constructor
    · rw [lower, lower, hcontent, hpresented, component_trim hself]
      rfl
    · rw [present, present, hcontent, hpresented, presentation_trim hself]

/-- `tree_trim` for the children of a node. -/
theorem trees_trim (s : Setting) : ∀ ts : List (Tree Element),
    (∀ e ∈ Tree.preorderAll ts, e.Covered s) →
    lowerContent s (Tree.mapAll Element.trim ts) = lowerContent s ts ∧
      lowerPresented s (Tree.mapAll Element.trim ts) = lowerPresented s ts
  | [], _ => ⟨rfl, rfl⟩
  | t :: ts, h => by
    obtain ⟨hview, hpresentation⟩ := tree_trim s t fun e he => h e (List.mem_append_left _ he)
    obtain ⟨hcontent, hpresented⟩ := trees_trim s ts fun e he => h e (List.mem_append_right _ he)
    rw [Tree.mapAll, lowerContent, lowerContent, lowerPresented, lowerPresented, Tree.value_map,
      hview, hpresentation, hcontent, hpresented]
    exact ⟨rfl, rfl⟩

end

theorem root_trim (s : Setting) (root : Tree Element) (h : ∀ e ∈ root.preorder, e.Covered s) :
    lowerRoot s (root.map Element.trim) = lowerRoot s root := by
  obtain ⟨hview, hpresentation⟩ := tree_trim s root h
  unfold lowerRoot
  rw [hview, hpresentation, Tree.value_map]
  rfl

end Setting

/-! ### Screens -/

namespace Scope

variable (catalog : Catalog)

/-- Bindings are resolved by the identifiers and the types of elements. -/
theorem bindAll_trim (bindings : List (Element × DataBinding)) : ∀ (scope : Scope)
    (resolved : Resolved), bindAll catalog scope resolved
      (bindings.map fun entry => (entry.1.trim, entry.2)) =
        bindAll catalog scope resolved bindings := by
  induction bindings with
  | nil => exact fun _ _ => rfl
  | cons entry rest ih =>
      intro scope resolved
      obtain ⟨e, b⟩ := entry
      have hresolve : scope.resolveOn catalog e.trim b = scope.resolveOn catalog e b := rfl
      rw [List.map_cons, bindAll, bindAll, hresolve]
      split
      · rfl
      · exact ih _ _

end Scope

/-- After all bindings are resolved, the elements of a sound tree are covered. -/
theorem NormalTree.covered_of_bindAll {t : NormalTree} (h : t.Sound) {s : Setting}
    {scope after : Scope} (hbind : scope.bindAll Catalog.standard [] t.bindings =
      .ok (s.bound, after)) : ∀ e ∈ t.elements, e.Covered s := by
  intro e he
  obtain ⟨⟨info, hinfo⟩, hb⟩ := h e he
  refine ⟨fun name hcovers => ?_, fun name hfixed => hinfo.not_covers_of_isFixed hb hfixed⟩
  obtain ⟨b, hmem, rfl⟩ := DataBinding.covers_iff.mp hcovers
  have hlookup := Scope.lookup_of_bindAll e.id b.property hbind
  rw [List.lookup_nil, Option.map_none, Option.or_none] at hlookup
  have hsome := congrArg Option.isSome hlookup
  rw [Option.isSome_map, Option.isSome_map] at hsome
  refine Option.isSome_iff_exists.mp (hsome.trans (List.find?_isSome.mpr ?_))
  refine ⟨(e, b), List.mem_reverse.mpr ?_, by simp⟩
  exact List.mem_flatMap.mpr ⟨e, he, List.mem_map_of_mem hmem⟩

/-- **A screen is built as its trimmed tree is.** -/
theorem buildScreen_trim {cx : BuildContext} (hcatalog : cx.catalog = Catalog.standard)
    (screen : Screen) {t : NormalTree} (h : t.Sound) :
    buildScreen cx screen t.trim = buildScreen cx screen t := by
  unfold buildScreen
  rw [NormalTree.bindings_trim, Scope.bindAll_trim]
  cases hbind : (Scope.ofScreen screen cx.models).bindAll cx.catalog [] t.bindings with
  | error e => rfl
  | ok result =>
      obtain ⟨bound, scope⟩ := result
      rw [ok_bind, ok_bind]
      dsimp only
      rw [hcatalog] at hbind
      have hcovered := NormalTree.covered_of_bindAll h
        (s := ⟨screen.id, cx.tokens, cx.screens, scope, bound⟩) hbind
      have hroot := Setting.root_trim _ t.root hcovered
      rw [← hroot]
      rfl

end Screenwright
