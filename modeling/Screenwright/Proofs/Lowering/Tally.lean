/-
Lowering loses no component, and makes none twice.

Each element of a tree is lowered once, wherever in the view that may be: as content of its
parent, as a modifier of its parent, inside a closure of such a modifier, or in one of the two
branches of a condition.  The tally of a kind shows it.  A component adds its own mark to the
tally of its content, whatever else it wraps around it, and a presentation adds its mark to what
it shows and to what is presented from inside it.  Content may only be dropped where the
component takes no children, so that there is none.  The children of a node are split into
content and presentations, and since the tallies of both parts add up, no child can go to
neither or to both.
-/
import Screenwright.Proofs.Lowering.Chains

namespace Screenwright

open Steps Swift

attribute [local simp] presents? ViewModifier.single ViewModifier.plain
  View.ofContent Closure.first

/-! ### Counting elements -/

/-- How many of the elements have the kind, if it can be told by what they are lowered to. -/
def census (k : ComponentKind) (elements : List Element) : Nat :=
  elements.countP fun e => e.kind.trace? = some k

theorem census_cons (k : ComponentKind) (e : Element) (elements : List Element) :
    census k (e :: elements) = mark k e.kind.trace? + census k elements := by
  rw [census, List.countP_cons, Nat.add_comm, census, mark]
  simp only [decide_eq_true_eq]

theorem census_of_isTraced {k : ComponentKind} (htraced : k.isTraced = true)
    (elements : List Element) : census k elements = elements.countP fun e => e.kind = k := by
  refine List.countP_congr fun e _ => ?_
  rw [decide_eq_true_eq, decide_eq_true_eq, ComponentKind.trace?]
  constructor
  · intro hkind
    split at hkind
    · exact Option.some.inj hkind
    · cases hkind
  · rintro rfl
    rw [if_pos htraced]

namespace Setting

variable {k : ComponentKind} {s : Setting} {e : Element} {content : Build (List View)} {n : Nat}

/-! ### Putting views together -/

theorem optionalModifier_plain {α : Type} {name : String} {toValue : α → Value}
    {value : Option α} (hname : presents? name = none) :
    AllPlain (optionalModifier name toValue value) := by
  intro m hm
  obtain ⟨v, -, rfl⟩ := Option.map_eq_some_iff.mp (Option.mem_toList.mp hm)
  exact ⟨rfl, hname⟩

@[simp]
theorem tally_optionalModifier {α : Type} {name : String} {toValue : α → Value}
    {value : Option α} (hname : presents? name = none) :
    tally k (modifierParts (optionalModifier name toValue value)) = 0 :=
  (optionalModifier_plain hname).tally_eq_zero

/-- The one view that several are put together in adds nothing that counts. -/
@[simp]
theorem tally_singleView (views : List View) :
    tally k (singleView views).parts = tally k (viewParts views) := by
  unfold singleView
  split
  · rfl
  · simp
  · simp

/-! ### Layout -/

theorem stack_tally {kind : ContainerKind} (hkind : kind = .vStack ∨ kind = .hStack)
    (hcontent : Makes content fun views => tally k (viewParts views) = n) :
    Makes (s.stack e kind content) fun view => tally k view.parts = n := by
  refine Makes.after fun _ => hcontent.bind fun _ hviews => .ret ?_
  rcases hkind with rfl | rfl
  · simp [hviews]
  · simp [hviews]

theorem layers_tally (hcontent : Makes content fun views => tally k (viewParts views) = n) :
    Makes (layers e content) fun view => tally k view.parts = mark k (some .zStack) + n :=
  hcontent.bind fun _ hviews => .ret (by simp [hviews])

/-- The row that a scroll view may put its content into does not count. -/
theorem scroll_tally (hcontent : Makes content fun views => tally k (viewParts views) = n) :
    Makes (scroll e content) fun view => tally k view.parts = mark k (some .scrollView) + n := by
  refine hcontent.bind fun views hviews => .ret ?_
  have hrow : ∀ inRow : Bool, tally k (viewParts
      (if inRow then [.ofContent .hStack [] views] else views)) = n := by
    intro inRow
    cases inRow <;> simp [hviews]
  rw [View.ofContent, View.parts, tally_cons, tally_append, hrow]
  rfl

theorem grid_tally (hcontent : Makes content fun views => tally k (viewParts views) = n) :
    Makes (s.grid e content) fun view => tally k view.parts = mark k (some .grid) + n :=
  Makes.after fun _ => hcontent.bind fun _ hviews => .ret (by simp [hviews])

theorem list_tally (hcontent : Makes content fun views => tally k (viewParts views) = n) :
    Makes (list e content) fun view => tally k view.parts = mark k (some .list) + n :=
  hcontent.bind fun _ hviews => .ret (by simp [hviews])

/-- Header and footer are texts. -/
theorem section_tally (hcontent : Makes content fun views => tally k (viewParts views) = n) :
    Makes («section» e content) fun view => tally k view.parts = mark k (some .section) + n := by
  have htitled : ∀ label : String, tally k (closureParts ((e.text? label).map fun title =>
      Closure.named label [.text (.string title)]).toList) = 0 := by
    intro label
    cases e.text? label <;> simp [Closure.named, View.text]
  exact hcontent.bind fun _ hviews => .ret (by simp [hviews, htitled])

theorem form_tally (hcontent : Makes content fun views => tally k (viewParts views) = n) :
    Makes (do return View.ofContent .form [] (← content)) fun view =>
      tally k view.parts = mark k (some .form) + n :=
  hcontent.bind fun _ hviews => .ret (by simp [hviews])

/-- A view goes into one of the branches, and into one only. -/
theorem conditional_tally (hcontent : Makes content fun views => tally k (viewParts views) = n) :
    Makes (s.conditional e content) fun view =>
      tally k view.parts = mark k (some .conditional) + n := by
  refine hcontent.bind fun views hviews => .ret ?_
  rw [View.parts, ← viewParts_append, List.take_append_drop, tally_cons, hviews]
  rfl

/-! ### Navigation -/

/-- The group that a title may put around the content does not count. -/
theorem navigationStack_tally
    (hcontent : Makes content fun views => tally k (viewParts views) = n) :
    Makes (s.navigationStack e content) fun view =>
      tally k view.parts = mark k (some .navigationStack) + n := by
  refine hcontent.bind fun views hviews => ?_
  dsimp only
  split
  · exact .ret (by simp [hviews])
  · refine .ret ?_
    split
    · simpa using hviews
    · simp [hviews]

theorem navigationLink_tally
    (hcontent : Makes content fun views => tally k (viewParts views) = n) :
    Makes (s.navigationLink e content) fun view =>
      tally k view.parts = mark k (some .navigationLink) + n := by
  refine Makes.after fun _ => Makes.after fun _ => hcontent.bind fun views hviews => ?_
  dsimp only
  split
  next hempty =>
    rw [List.isEmpty_iff.mp hempty] at hviews
    exact .ret (by simp [← hviews])
  · exact .ret (by simp [hviews])

/-- Nothing on the tab of a screen counts. -/
theorem tab_tally (node : String) (item : TabItem) :
    Makes (s.tab node item) fun view => tally k view.parts = 0 :=
  Makes.after fun _ => Makes.after fun _ => .ret (by simp [tabLabel])

theorem tabView_tally :
    Makes (s.tabView e) fun view => tally k view.parts = mark k (some .tabView) := by
  refine Keeps.bind (Keeps.mapM fun item _ => tab_tally (k := k) e.id item) fun views hviews => ?_
  exact .ret (by simp [tally_viewParts_eq_zero hviews])

theorem menu_tally (hcontent : Makes content fun views => tally k (viewParts views) = n) :
    Makes (s.menu e content) fun view => tally k view.parts = mark k (some .menu) + n :=
  hcontent.bind fun _ hviews => .ret (by simp [hviews])

/-! ### Primitives, input and display -/

theorem spacer_tally :
    Makes (s.spacer e) fun view => tally k view.parts = mark k (some .spacer) :=
  Makes.after fun _ => .ret (by simp)

theorem textView_tally : Makes (s.textView e) fun view => tally k view.parts = 0 :=
  Makes.after fun _ => Makes.after fun _ => .ret (by simp [View.text])

theorem image_tally :
    Makes (s.image e) fun view => tally k view.parts = mark k (some .image) := by
  refine Makes.after fun _ => .ret ?_
  have hresizable : tally k (modifierParts
      (if e.bool? "resizable" = some true then [.plain "resizable" []] else [])) = 0 := by
    split <;> simp
  have hmode : tally k (modifierParts ((e.text? "contentMode").map fun mode =>
      ViewModifier.plain "aspectRatio" [labeled "contentMode" (.member mode)]).toList) = 0 := by
    cases e.text? "contentMode" <;> simp
  rw [parts_modify, modifierParts_append, modifierParts_append, tally_append, tally_append,
    tally_append, hresizable, hmode]
  simp

theorem button_tally (hcontent : Makes content fun views => tally k (viewParts views) = n) :
    Makes (s.button e content) fun view => tally k view.parts = n := by
  unfold button
  split
  -- Whatever the action is, the view is put together behind it in the same way.
  all_goals
    refine Makes.after fun _ => hcontent.bind fun views hviews => Makes.after fun _ => .ret ?_
    split
    next hempty =>
      rw [List.isEmpty_iff.mp hempty] at hviews
      simp [← hviews]
    · simp [hviews]

theorem tally_picker : tally k (s.picker e).parts = mark k (some .picker) := by
  have hoptions : ∀ options : List String, tally k (viewParts (options.map pickerOption)) = 0 := by
    intro options
    refine tally_viewParts_eq_zero fun view hview => ?_
    obtain ⟨option, -, rfl⟩ := List.mem_map.mp hview
    simp [pickerOption, View.text]
  simp [picker, hoptions]

theorem tally_leaf {kind : LeafKind} {args : List Arg} :
    tally k (View.leaf kind args).parts = mark k kind.component? := by
  simp

theorem tally_field {kind : LeafKind} :
    tally k (s.field e kind).parts = mark k kind.component? := by
  simp [field]

theorem card_tally (hcontent : Makes content fun views => tally k (viewParts views) = n) :
    Makes (s.card e content) fun view => tally k view.parts = n := by
  refine Makes.after fun _ => Makes.after fun _ => Makes.after fun _ => Makes.after fun ground => ?_
  refine Keeps.bind (p := fun shadow => ∀ m, shadow = some m → m.IsPlain) (.lift ?_) ?_
  · exact tokenProp_gives fun ref => shadow_plain ref
  intro shadow hshadow
  refine hcontent.bind fun views hviews => .ret ?_
  have hground : ∀ radius, tally k (modifierParts (ground.map fun color =>
      ViewModifier.plain "background" [bare color, labeled "in" (shape radius)]).toList) = 0 := by
    intro radius
    cases ground <;> simp
  have hplain : AllPlain shadow.toList := fun m hm => hshadow m (Option.mem_toList.mp hm)
  rw [parts_modify, modifierParts_append, modifierParts_append, tally_append, tally_append,
    tally_append, hground, hplain.tally_eq_zero]
  simp [hviews]

/-- **A component adds its mark to the tally of its content**, if there is none where it takes
no children. -/
theorem component_tally (hview : e.kind.isPresentation = false)
    (hcontent : Makes content fun views => tally k (viewParts views) = n)
    (hnone : Catalog.childrenOf? e.kind = some .none → n = 0) :
    Makes (s.component e content) fun view =>
      tally k view.parts = mark k e.kind.trace? + n := by
  -- What takes no children leaves its content out.
  have hleaf : ∀ {kind : ComponentKind} {m : Build View}, e.kind = kind →
      Catalog.childrenOf? kind = some .none →
      (Makes m fun view => tally k view.parts = mark k kind.trace?) →
      Makes m fun view => tally k view.parts = mark k kind.trace? + n := by
    intro kind m hkind hchildren hm
    rw [hnone (hkind ▸ hchildren)]
    exact hm
  -- What cannot be told adds nothing.
  have hquiet : ∀ {kind : ComponentKind} {m : Build View}, kind.trace? = none →
      (Makes m fun view => tally k view.parts = n) →
      Makes m fun view => tally k view.parts = mark k kind.trace? + n := by
    intro kind m hkind hm
    rw [hkind, mark_none, Nat.zero_add]
    exact hm
  unfold component
  cases hkind : e.kind with
  | vStack => exact hquiet rfl (stack_tally (.inl rfl) hcontent)
  | hStack => exact hquiet rfl (stack_tally (.inr rfl) hcontent)
  | zStack => exact layers_tally hcontent
  | scrollView => exact scroll_tally hcontent
  | grid => exact grid_tally hcontent
  | list => exact list_tally hcontent
  | «section» => exact section_tally hcontent
  | form => exact form_tally hcontent
  | spacer => exact hleaf hkind rfl spacer_tally
  | divider => exact hleaf hkind rfl (.ret tally_leaf)
  | conditional => exact conditional_tally hcontent
  | navigationStack => exact navigationStack_tally hcontent
  | navigationLink => exact navigationLink_tally hcontent
  | tabView => exact hleaf hkind rfl tabView_tally
  | menu => exact menu_tally hcontent
  | text => exact hleaf hkind rfl textView_tally
  | label => exact hleaf hkind rfl (.ret tally_leaf)
  | image => exact hleaf hkind rfl image_tally
  | button => exact hquiet rfl (button_tally hcontent)
  | toggle => exact hleaf hkind rfl (.ret tally_leaf)
  | picker => exact hleaf hkind rfl (.ret tally_picker)
  | slider => exact hleaf hkind rfl (.ret tally_leaf)
  | stepper => exact hleaf hkind rfl (.ret tally_leaf)
  | textField => exact hleaf hkind rfl (.ret tally_field)
  | secureField => exact hleaf hkind rfl (.ret tally_field)
  | progressView => exact hleaf hkind rfl (.ret tally_leaf)
  | card => exact hquiet rfl (card_tally hcontent)
  | emptyState => exact hleaf hkind rfl (.ret tally_leaf)
  | sheet | fullScreenCover | alert | confirmationDialog | toolbar =>
      simp [hkind, ComponentKind.isPresentation] at hview

/-! ### Presentations -/

variable {nested : Build (List ViewModifier)} {m : Nat}

theorem detents_plain : AllPlain (detents e) := by
  unfold detents
  dsimp only
  split
  · exact List.forall_mem_singleton.mpr ⟨rfl, rfl⟩
  · exact List.forall_mem_singleton.mpr ⟨rfl, rfl⟩
  · exact List.forall_mem_nil _

theorem cover_tally {name : String}
    (hcontent : Makes content fun views => tally k (viewParts views) = n)
    (hnested : Makes nested fun ms => tally k (modifierParts ms) = m) :
    Makes (s.cover e name content nested) fun ms =>
      tally k (modifierParts ms) = mark k (presents? name) + (n + m) := by
  refine hcontent.bind fun views hviews => userModifiers_plain.bind fun user huser => ?_
  refine hnested.bind fun hoisted hhoisted => .ret ?_
  rw [modifierParts, ViewModifier.parts, List.append_assoc]
  simp only [Closure.first, closureParts, viewParts, parts_modify, modifierParts_append,
    modifierParts, tally_cons, tally_append, tally_nil, tally_singleView, hviews, hhoisted,
    huser.tally_eq_zero, detents_plain.tally_eq_zero, Part.component?]
  omega

/-- The buttons of a dialog do not count. -/
theorem actionButton_tally (node : String) (item : ActionItem) :
    Makes (s.actionButton node item) fun view => tally k view.parts = 0 := by
  unfold actionButton
  split
  all_goals exact Makes.after fun _ => .ret rfl

theorem dialog_tally {name : String} {extra : List Arg} :
    Makes (s.dialog e name extra) fun ms =>
      tally k (modifierParts ms) = mark k (presents? name) := by
  refine Makes.after fun _ => ?_
  refine Keeps.bind (Keeps.mapM fun item _ => actionButton_tally (k := k) e.id item) ?_
  intro buttons hbuttons
  have hmessage : tally k (closureParts ((s.text? e "message").map fun text =>
      Closure.named "message" [.text text]).toList) = 0 := by
    cases s.text? e "message" <;> simp [Closure.named, View.text]
  refine .ret ?_
  simp only [Closure.first, modifierParts, ViewModifier.parts, closureParts, tally_cons,
    tally_append, tally_nil, tally_viewParts_eq_zero hbuttons, hmessage, Part.component?]
  rfl

theorem toolbar_tally (hcontent : Makes content fun views => tally k (viewParts views) = n)
    (hnested : Makes nested fun ms => tally k (modifierParts ms) = m) :
    Makes (toolbar e content nested) fun ms =>
      tally k (modifierParts ms) = mark k (some .toolbar) + (n + m) := by
  refine Makes.after fun _ => hcontent.bind fun views hviews => ?_
  exact hnested.bind fun hoisted hhoisted => .ret (by simp [hviews, hhoisted])

/-- **A presentation adds its mark to the tally of what it shows and of what is presented from
inside it**, if there is nothing of either where it takes no children. -/
theorem presentation_tally (hpresented : e.kind.isPresentation = true)
    (hcontent : Makes content fun views => tally k (viewParts views) = n)
    (hnested : Makes nested fun ms => tally k (modifierParts ms) = m)
    (hnone : Catalog.childrenOf? e.kind = some .none → n + m = 0) :
    Makes (s.presentation e content nested) fun ms =>
      tally k (modifierParts ms) = mark k e.kind.trace? + (n + m) := by
  unfold presentation
  cases hkind : e.kind with
  | sheet => exact cover_tally hcontent hnested
  | fullScreenCover => exact cover_tally hcontent hnested
  | alert =>
      rw [hnone (by rw [hkind]; rfl)]
      exact dialog_tally
  | confirmationDialog =>
      rw [hnone (by rw [hkind]; rfl)]
      exact dialog_tally
  | toolbar => exact toolbar_tally hcontent hnested
  | _ => simp [hkind, ComponentKind.isPresentation] at hpresented

/-! ### Trees -/

mutual

/-- **In the view of a checked tree each of its elements counts once**, and so it does in the
modifiers by which the tree is presented. -/
theorem tree_tally (k : ComponentKind) (s : Setting) : ∀ t : Tree Element, t.Checked →
    (t.value.kind.isPresentation = false →
        Makes (lower s t) fun view => tally k view.parts = census k t.preorder) ∧
      (t.value.kind.isPresentation = true →
        Makes (present s t) fun ms => tally k (modifierParts ms) = census k t.preorder)
  | .node e ts, hchecked => by
    obtain ⟨⟨info, he, hwidth⟩, hall⟩ := hchecked
    obtain ⟨n, m, hcontent, hpresented, hsum⟩ := trees_tally k s ts hall
    have hnone : Catalog.childrenOf? e.kind = some .none → n + m = 0 := by
      intro hchildren
      rw [he.children_eq hchildren] at hwidth
      have hnil : ts = [] := by simpa [ChildPolicy.accepts] using hwidth
      rw [hsum, hnil]
      rfl
    rw [Tree.preorder, census_cons, ← hsum]
    refine ⟨fun hview => ?_, fun hpresentation => ?_⟩
    · have hbase := component_tally (s := s) (e := e) hview hcontent fun h =>
        (Nat.add_eq_zero_iff.mp (hnone h)).1
      refine hbase.bind fun base hbase => userModifiers_plain.bind fun user huser => ?_
      refine hpresented.bind fun hoisted hhoisted => .ret ?_
      rw [parts_modify, parts_modify, tally_append, tally_append, hbase, huser.tally_eq_zero,
        hhoisted]
      omega
    · exact presentation_tally hpresentation hcontent hpresented hnone

/-- `tree_tally` for the children of a node: content and presentations together have each of
them. -/
theorem trees_tally (k : ComponentKind) (s : Setting) : ∀ ts : List (Tree Element),
    Tree.EachAll Element.IsChecked ts → ∃ n m,
      (Makes (lowerContent s ts) fun views => tally k (viewParts views) = n) ∧
      (Makes (lowerPresented s ts) fun ms => tally k (modifierParts ms) = m) ∧
      n + m = census k (Tree.preorderAll ts)
  | [], _ => ⟨0, 0, .ret rfl, .ret rfl, rfl⟩
  | t :: ts, hchecked => by
    obtain ⟨hview, hpresentation⟩ := tree_tally k s t hchecked.1
    obtain ⟨n, m, hcontent, hpresented, hsum⟩ := trees_tally k s ts hchecked.2
    have hcensus : census k (Tree.preorderAll (t :: ts)) = census k t.preorder + (n + m) := by
      rw [Tree.preorderAll, hsum]
      exact List.countP_append
    rw [lowerContent, lowerPresented, hcensus]
    cases hkind : t.value.kind.isPresentation with
    | true =>
        refine ⟨n, census k t.preorder + m, hcontent, ?_, by omega⟩
        refine (hpresentation hkind).bind fun own hown => hpresented.bind fun rest hrest => .ret ?_
        rw [modifierParts_append, tally_append, hown, hrest]
    | false =>
        refine ⟨census k t.preorder + n, m, ?_, hpresented, by omega⟩
        refine (hview hkind).bind fun view hview => hcontent.bind fun views hviews => .ret ?_
        rw [viewParts, tally_append, hview, hviews]

end

/-- **In the view of a screen each element of its tree counts once.** -/
theorem root_tally (k : ComponentKind) (s : Setting) (root : Tree Element)
    (hchecked : root.Checked) :
    Makes (lowerRoot s root) fun view => tally k view.parts = census k root.preorder := by
  obtain ⟨hview, hpresentation⟩ := tree_tally k s root hchecked
  unfold lowerRoot
  cases hkind : root.value.kind.isPresentation with
  | true =>
      refine (hpresentation hkind).bind fun hoisted hhoisted => .ret ?_
      rw [parts_modify, tally_append, hhoisted]
      exact Nat.zero_add _
  | false => exact hview hkind

end Setting

end Screenwright
