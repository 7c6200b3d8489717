/-
The sheets that hang on the view of a screen.

A view carries its modifiers as a chain, and a sheet is one of them.  Sheets come into the
chain from the elements of that name only: components and the modifiers that an element has
itself make no views, so they cannot be sheets.  Which elements hang a sheet on the view of
the root is a matter of the tree alone, `rootSheets`; by which flag is a matter of what their
property is bound to, `sheetState?`.
-/
import Screenwright.Lowering.Screen
import Screenwright.Proofs.Lowering.Components
import Screenwright.Proofs.Lowering.Keeps
import Screenwright.Proofs.Lowering.Parts

namespace Screenwright

open Steps Swift

/-! ### Chains -/

namespace Swift

/-- The flag by which an argument says that something is presented. -/
def flagOf? : Arg → Option String
  | (some label, .binding flag) => if label = "isPresented" then some flag else none
  | _ => none

/-- The flag of a modifier that presents a sheet. -/
def ViewModifier.sheetFlag? : ViewModifier → Option String
  | mk name [arg] (_ :: _) => if name = "sheet" then flagOf? arg else none
  | _ => none

/-- A modifier that makes no views is not a sheet. -/
theorem ViewModifier.sheetFlag?_eq_none {m : ViewModifier} (h : m.trailing = []) :
    m.sheetFlag? = none := by
  obtain ⟨name, args, trailing⟩ := m
  cases h
  unfold sheetFlag?
  split
  next heq => cases heq
  · rfl

/-- The flags of the sheets among some modifiers. -/
def sheetFlags (modifiers : List ViewModifier) : List String :=
  modifiers.filterMap ViewModifier.sheetFlag?

theorem sheetFlags_append (ms ns : List ViewModifier) :
    sheetFlags (ms ++ ns) = sheetFlags ms ++ sheetFlags ns :=
  List.filterMap_append

/-- None of the modifiers makes views. -/
def Viewless (modifiers : List ViewModifier) : Prop :=
  ∀ m ∈ modifiers, m.trailing = []

theorem Viewless.sheetFlags_eq_nil {modifiers : List ViewModifier} (h : Viewless modifiers) :
    sheetFlags modifiers = [] :=
  List.filterMap_eq_nil_iff.mpr fun m hm => ViewModifier.sheetFlag?_eq_none (h m hm)

theorem AllPlain.viewless {modifiers : List ViewModifier} (h : AllPlain modifiers) :
    Viewless modifiers :=
  fun m hm => (h m hm).1

theorem viewless_nil : Viewless [] := by
  simp [Viewless]

theorem Viewless.append {ms ns : List ViewModifier} (hms : Viewless ms) (hns : Viewless ns) :
    Viewless (ms ++ ns) :=
  List.forall_mem_append.mpr ⟨hms, hns⟩

theorem Viewless.cons {m : ViewModifier} {ms : List ViewModifier} (hm : m.trailing = [])
    (hms : Viewless ms) : Viewless (m :: ms) :=
  List.forall_mem_cons.mpr ⟨hm, hms⟩

theorem viewless_option {α : Type} {make : α → ViewModifier} {value : Option α}
    (h : ∀ a, value = some a → (make a).trailing = []) : Viewless (value.map make).toList := by
  intro m hm
  obtain ⟨a, ha, rfl⟩ := Option.map_eq_some_iff.mp (Option.mem_toList.mp hm)
  exact h a ha

namespace View

/-- The modifiers on the outside of a view, the innermost first. -/
def chain : View → List ViewModifier
  | modified _ chain => chain
  | _ => []

theorem chain_modify (view : View) (modifiers : List ViewModifier) :
    (view.modify modifiers).chain = view.chain ++ modifiers := by
  unfold modify
  split
  next hempty => rw [List.isEmpty_iff.mp hempty, List.append_nil]
  · cases view with
    | modified inner chain => rfl
    | container kind args content trailing => rfl
    | leaf kind args => rfl
    | conditional condition yes no => rfl

theorem viewless_modify {view : View} {modifiers : List ViewModifier}
    (hview : Viewless view.chain) (hmodifiers : Viewless modifiers) :
    Viewless (view.modify modifiers).chain := by
  rw [chain_modify]
  exact hview.append hmodifiers

end View

end Swift

/-- Whatever the lowering gives meets the condition. -/
abbrev Makes {α : Type} (m : Build α) (p : α → Prop) : Prop :=
  Keeps (fun _ => True) m p

/-- Behind a step of which nothing is known. -/
theorem Makes.after {α β : Type} {m : Build α} {f : α → Build β} {q : β → Prop}
    (h : ∀ a, Makes (f a) q) : Makes (m >>= f) q :=
  Keeps.bind (p := fun _ => True) (fun _ _ _ hledger _ => ⟨trivial, hledger⟩) fun a _ => h a

/-! ### Modifiers -/

/-- The modifier makes no views, and it presents nothing. -/
abbrev GivesPlain (x : Except BuildError ViewModifier) : Prop :=
  Gives x ViewModifier.IsPlain

theorem Setting.shadow_plain {s : Setting} {node : String} (ref : TokenRef) :
    GivesPlain (s.shadow node ref) := by
  refine Gives.step fun token => ?_
  cases token with
  | shadow shadow => exact .ret ⟨rfl, rfl⟩
  | _ => exact .error

namespace ModifierUse

variable {u : ModifierUse} {s : Setting}

theorem padding_plain : GivesPlain (u.padding s) := by
  refine Gives.step fun _ => ?_
  split
  · exact .ret ⟨rfl, rfl⟩
  · exact Gives.step fun _ => .ret ⟨rfl, rfl⟩
  · exact Gives.step fun _ => Gives.step fun _ => .ret ⟨rfl, rfl⟩

theorem background_plain : GivesPlain (u.background s) := by
  refine Gives.step fun _ => Gives.step fun _ => ?_
  split
  · exact .ret ⟨rfl, rfl⟩
  · exact Gives.step fun _ => .ret ⟨rfl, rfl⟩

theorem tinted_plain (hname : presents? u.modifier.name = none) :
    GivesPlain (u.tinted s) :=
  Gives.step fun _ => Gives.step fun _ => .ret ⟨rfl, hname⟩

theorem opacity_plain : GivesPlain u.opacity := by
  refine Gives.step fun _ => Gives.step fun x => ?_
  dsimp only
  split
  · exact .ret ⟨rfl, rfl⟩
  · exact .error_bind

theorem frame_plain : GivesPlain u.frame := by
  refine Gives.step fun _ => ?_
  split
  · exact .error
  · exact .ret ⟨rfl, rfl⟩

theorem border_plain : GivesPlain (u.border s) := by
  refine Gives.step fun _ => Gives.step fun _ => Gives.step fun _ => ?_
  split
  · exact .ret ⟨rfl, rfl⟩
  · exact Gives.step fun _ => .ret ⟨rfl, rfl⟩

theorem animation_plain : GivesPlain (u.animation s) := by
  refine Gives.step fun _ => Gives.step fun _ => Gives.step fun _ => Gives.step fun _ => ?_
  split
  · exact .error
  · exact .ret ⟨rfl, rfl⟩

theorem simple_plain (hname : presents? u.modifier.name = none) :
    GivesPlain u.simple :=
  Gives.step fun _ => .ret ⟨rfl, hname⟩

theorem lineLimit_plain : GivesPlain u.lineLimit := by
  refine Gives.step fun _ => ?_
  split
  · split
    · exact .ret ⟨rfl, rfl⟩
    · exact .error
  · exact .error

theorem texted_plain (hname : presents? u.modifier.name = none) :
    GivesPlain u.texted :=
  Gives.step fun _ => Gives.step fun _ => .ret ⟨rfl, hname⟩

theorem triggered_plain (hname : presents? u.modifier.name = none) :
    Makes (u.triggered s) ViewModifier.IsPlain := by
  refine Makes.after fun _ => ?_
  split
  · exact .error
  · exact Makes.after fun _ => .ret ⟨rfl, hname⟩

/-- **The modifiers that an element has itself make no views and present nothing.** -/
theorem lower_plain : Makes (u.lower s) ViewModifier.IsPlain := by
  have hplain : ∀ name, u.modifier.name = name → presents? name = none →
      presents? u.modifier.name = none := by
    rintro _ rfl h
    exact h
  unfold lower
  split
  next => exact .lift padding_plain
  next => exact .lift background_plain
  next h => exact .lift (tinted_plain (hplain _ h rfl))
  next h => exact .lift (tinted_plain (hplain _ h rfl))
  next => exact .lift (Gives.step fun _ => Gives.step fun _ => Gives.step fun _ => .ret ⟨rfl, rfl⟩)
  next => exact .lift (Gives.step fun _ => Gives.step fun _ => .ret ⟨rfl, rfl⟩)
  next => exact .lift (Gives.step fun _ => Gives.step fun ref => Setting.shadow_plain ref)
  next => exact .lift opacity_plain
  next => exact .lift frame_plain
  next => exact .lift (Gives.step fun _ => .ret ⟨rfl, rfl⟩)
  next => exact .lift border_plain
  next => exact .lift animation_plain
  next => exact .lift (Gives.step fun _ => Gives.step fun _ => Gives.step fun _ => .ret ⟨rfl, rfl⟩)
  next => exact .lift (Gives.step fun _ => Gives.step fun _ => .ret ⟨rfl, rfl⟩)
  next h => exact .lift (simple_plain (hplain _ h rfl))
  next h => exact .lift (simple_plain (hplain _ h rfl))
  next => exact .lift lineLimit_plain
  next => exact .lift (Gives.step fun _ => Gives.step fun _ => .ret ⟨rfl, rfl⟩)
  next => exact .lift (Gives.step fun _ => Gives.step fun _ => .ret ⟨rfl, rfl⟩)
  next => exact .lift (Gives.step fun _ => Gives.step fun _ => .ret ⟨rfl, rfl⟩)
  next h => exact .lift (simple_plain (hplain _ h rfl))
  next h => exact .lift (texted_plain (hplain _ h rfl))
  next h => exact .lift (texted_plain (hplain _ h rfl))
  next h => exact triggered_plain (hplain _ h rfl)
  next h => exact triggered_plain (hplain _ h rfl)
  next => exact .error

end ModifierUse

/-! ### Components -/

namespace Setting

variable {s : Setting} {e : Element} {content : Build (List View)}

theorem userModifiers_plain : Makes (s.userModifiers e) AllPlain :=
  Keeps.mapM fun _ _ => ModifierUse.lower_plain

theorem viewless_optionalModifier {α : Type} {name : String} {toValue : α → Value}
    {value : Option α} : Viewless (optionalModifier name toValue value) :=
  viewless_option fun _ _ => rfl

/-- The view has no modifiers that make views. -/
def Unadorned (view : View) : Prop :=
  Viewless view.chain

theorem unadorned_leaf {kind : LeafKind} {args : List Arg} : Unadorned (.leaf kind args) :=
  viewless_nil

theorem unadorned_container {kind : ContainerKind} {args : List Arg} {views : List View}
    {trailing : List Closure} : Unadorned (.container kind args views trailing) :=
  viewless_nil

theorem navigationStack_unadorned : Makes (s.navigationStack e content) Unadorned := by
  refine Makes.after fun views => ?_
  dsimp only
  split
  · exact .ret unadorned_container
  · exact .ret unadorned_container

theorem navigationLink_unadorned : Makes (s.navigationLink e content) Unadorned := by
  refine Makes.after fun _ => Makes.after fun _ => Makes.after fun views => ?_
  dsimp only
  split
  · exact .ret unadorned_leaf
  · exact .ret unadorned_container

theorem textView_unadorned : Makes (s.textView e) Unadorned := by
  refine Makes.after fun _ => Makes.after fun _ => .ret (View.viewless_modify unadorned_leaf ?_)
  exact ((viewless_optionalModifier.append viewless_optionalModifier).append
    viewless_optionalModifier).append viewless_optionalModifier

theorem image_unadorned : Makes (s.image e) Unadorned := by
  refine Makes.after fun _ => .ret (View.viewless_modify unadorned_leaf ?_)
  refine (Viewless.append ?_ (viewless_option fun _ _ => rfl)).append viewless_optionalModifier
  split
  · exact viewless_nil.cons rfl
  · exact viewless_nil

theorem button_unadorned : Makes (s.button e content) Unadorned := by
  unfold button
  split
  -- Whatever the action is, the view is put together behind it in the same way.
  all_goals
    refine Makes.after fun _ => Makes.after fun views => Makes.after fun _ => .ret ?_
    refine View.viewless_modify ?_ (viewless_optionalModifier.append viewless_optionalModifier)
    split
    · exact unadorned_leaf
    · exact unadorned_container

theorem card_unadorned : Makes (s.card e content) Unadorned := by
  refine Makes.after fun _ => Makes.after fun _ => Makes.after fun _ => Makes.after fun _ => ?_
  refine Keeps.bind (p := fun shadow => ∀ m, shadow = some m → m.trailing = []) (.lift ?_) ?_
  · exact tokenProp_gives fun ref m hm => (shadow_plain ref m hm).1
  intro shadow hshadow
  refine Makes.after fun _ => .ret (View.viewless_modify unadorned_container ?_)
  refine Viewless.append (.append (.cons rfl (viewless_nil.cons rfl)) ?_) ?_
  · exact viewless_option fun _ _ => rfl
  · exact fun m hm => hshadow m (Option.mem_toList.mp hm)

/-- **Components make views without sheets.** -/
theorem component_unadorned : Makes (s.component e content) Unadorned := by
  unfold component
  cases e.kind with
  | vStack => exact Makes.after fun _ => Makes.after fun _ => .ret unadorned_container
  | hStack => exact Makes.after fun _ => Makes.after fun _ => .ret unadorned_container
  | zStack => exact Makes.after fun _ => .ret unadorned_container
  | scrollView => exact Makes.after fun _ => .ret unadorned_container
  | grid => exact Makes.after fun _ => Makes.after fun _ => .ret unadorned_container
  | list =>
      exact Makes.after fun _ =>
        .ret (View.viewless_modify unadorned_container viewless_optionalModifier)
  | «section» => exact Makes.after fun _ => .ret unadorned_container
  | form => exact Makes.after fun _ => .ret unadorned_container
  | spacer => exact Makes.after fun _ => .ret unadorned_leaf
  | divider => exact .ret unadorned_leaf
  | conditional => exact Makes.after fun _ => .ret viewless_nil
  | navigationStack => exact navigationStack_unadorned
  | navigationLink => exact navigationLink_unadorned
  | tabView => exact Makes.after fun _ => .ret unadorned_container
  | menu => exact Makes.after fun _ => .ret unadorned_container
  | text => exact textView_unadorned
  | label => exact .ret unadorned_leaf
  | image => exact image_unadorned
  | button => exact button_unadorned
  | toggle => exact .ret unadorned_leaf
  | picker =>
      exact .ret (View.viewless_modify unadorned_container viewless_optionalModifier)
  | slider => exact .ret unadorned_leaf
  | stepper => exact .ret unadorned_leaf
  | textField => exact .ret (View.viewless_modify unadorned_leaf viewless_optionalModifier)
  | secureField => exact .ret (View.viewless_modify unadorned_leaf viewless_optionalModifier)
  | progressView => exact .ret unadorned_leaf
  | card => exact card_unadorned
  | emptyState => exact .ret unadorned_leaf
  | sheet => exact .ret unadorned_leaf
  | fullScreenCover => exact .ret unadorned_leaf
  | alert => exact .ret unadorned_leaf
  | confirmationDialog => exact .ret unadorned_leaf
  | toolbar => exact .ret unadorned_leaf

end Setting

/-! ### Sheets of a tree -/

namespace Tree

mutual

/-- The sheets among the modifiers by which a tree is presented. -/
def ownSheets : Tree Element → List Element
  | node e ts =>
    match e.kind with
    | .sheet => [e]
    | .toolbar => hungSheets ts
    | _ => []

/-- The sheets that trees hang on the view of their parent. -/
def hungSheets : List (Tree Element) → List Element
  | [] => []
  | t :: ts => ownSheets t ++ hungSheets ts

end

/-- The sheets that hang on the view of the root. -/
def rootSheets (t : Tree Element) : List Element :=
  if t.value.kind.isPresentation then ownSheets t else hungSheets t.children

/-- What stands in content hangs no sheet on anything. -/
theorem ownSheets_eq_nil {t : Tree Element} (h : t.value.kind.isPresentation = false) :
    ownSheets t = [] := by
  obtain ⟨e, ts⟩ := t
  rw [ownSheets]
  split
  next hkind => simp [Tree.value, hkind, ComponentKind.isPresentation] at h
  next hkind => simp [Tree.value, hkind, ComponentKind.isPresentation] at h
  · rfl

end Tree

namespace Setting

open Screenwright.Tree

variable {s : Setting} {e : Element} {content : Build (List View)}
  {nested : Build (List ViewModifier)}

/-- The path of the state by which an element says that it is presented. -/
def sheetState? (s : Setting) (e : Element) : Option String :=
  (s.bound? e.id "isPresented").bind fun bound =>
    if bound.source = .state then some bound.path else none

theorem flagOf?_write : flagOf? (labeled "isPresented" (s.write e "isPresented")) =
    s.sheetState? e := by
  unfold write sheetState?
  cases s.bound? e.id "isPresented" with
  | none => rfl
  | some bound =>
      obtain ⟨source, path, type⟩ := bound
      cases source <;> rfl

theorem sheetFlag?_presented {name : String} {view : View} :
    (ViewModifier.mk name [labeled "isPresented" (s.write e "isPresented")]
      [Closure.first [view]]).sheetFlag? = if name = "sheet" then s.sheetState? e else none := by
  rw [← flagOf?_write]
  rfl

theorem cover_sheets {name : String} :
    Makes (s.cover e name content nested) fun ms =>
      sheetFlags ms = if name = "sheet" then [e].filterMap s.sheetState? else [] := by
  refine Makes.after fun views => Makes.after fun user => Makes.after fun hoisted => .ret ?_
  rw [sheetFlags, List.filterMap_cons, sheetFlag?_presented]
  by_cases hname : name = "sheet"
  · rw [if_pos hname, if_pos hname]
    rfl
  · rw [if_neg hname, if_neg hname]
    rfl

/-- Dialogs have a title besides their flag. -/
theorem dialog_sheets {name : String} {extra : List Arg} :
    Makes (s.dialog e name extra) fun ms => sheetFlags ms = [] :=
  Makes.after fun _ => Makes.after fun _ => .ret rfl

theorem toolbar_sheets {flags : List String}
    (hnested : Makes nested fun ms => sheetFlags ms = flags) :
    Makes (toolbar e content nested) fun ms => sheetFlags ms = flags :=
  Makes.after fun _ => Makes.after fun _ => hnested.bind fun _ hhoisted => .ret hhoisted

mutual

/-- **The sheets that a lowered tree carries are those that are hung on it**, and those
by which it is presented are its own. -/
theorem tree_sheets (s : Setting) : ∀ t : Tree Element,
    Makes (lower s t) (fun view =>
        sheetFlags view.chain = (hungSheets t.children).filterMap s.sheetState?) ∧
      Makes (present s t) fun ms => sheetFlags ms = (ownSheets t).filterMap s.sheetState?
  | node e ts => by
    have hhung := trees_sheets s ts
    constructor
    · refine component_unadorned.bind fun base hbase => userModifiers_plain.bind ?_
      refine fun user huser => hhung.bind fun hoisted hhoisted => .ret ?_
      rw [View.chain_modify, sheetFlags_append, hhoisted,
        (View.viewless_modify hbase huser.viewless).sheetFlags_eq_nil, List.nil_append]
      rfl
    · rw [ownSheets, present]
      unfold presentation
      cases e.kind with
      | sheet => exact cover_sheets
      | fullScreenCover => exact cover_sheets
      | alert => exact dialog_sheets
      | confirmationDialog => exact dialog_sheets
      | toolbar => exact toolbar_sheets hhung
      | _ => exact .error

/-- `tree_sheets` for the children of a node. -/
theorem trees_sheets (s : Setting) : ∀ ts : List (Tree Element),
    Makes (lowerPresented s ts) fun ms =>
      sheetFlags ms = (hungSheets ts).filterMap s.sheetState?
  | [] => .ret rfl
  | t :: ts => by
    have hrest := trees_sheets s ts
    rw [lowerPresented, hungSheets, List.filterMap_append]
    split
    · refine (tree_sheets s t).2.bind fun own hown => hrest.bind fun rest hrest => .ret ?_
      rw [sheetFlags_append, hown, hrest]
    next hcontent =>
      rw [ownSheets_eq_nil (by simpa using hcontent)]
      exact hrest

end

/-- **The sheets on the view of a screen are those that its tree hangs there.** -/
theorem root_sheets (s : Setting) (root : Tree Element) :
    Makes (lowerRoot s root) fun view =>
      sheetFlags view.chain = root.rootSheets.filterMap s.sheetState? := by
  unfold lowerRoot rootSheets
  split
  · refine (tree_sheets s root).2.bind fun own hown => .ret ?_
    rw [View.chain_modify]
    exact hown
  · exact (tree_sheets s root).1

/-! ### Finished screens -/

/-- The title and the sheets of the ledger are hung on the view of a screen. -/
theorem body_of_finish {screen : Screen} {body : View} {ledger : Ledger} {view : ScreenView}
    (h : s.finish screen body ledger = .ok view) :
    view.body = body.modify (titleModifier screen ++
      ledger.sheets.map fun (flag, viewType) => sheetModifier flag viewType) := by
  obtain ⟨_, -, h⟩ := bind_eq_ok.mp h
  cases h
  dsimp only

theorem viewless_titleModifier (screen : Screen) : Viewless (titleModifier screen) := by
  unfold titleModifier
  split
  · exact viewless_nil
  · exact viewless_nil.cons rfl

end Setting

end Screenwright
