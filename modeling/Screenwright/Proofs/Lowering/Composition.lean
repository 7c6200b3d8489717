/-
How the view of a tree is put together.

A view is a bare view with a chain of modifiers, and the chain is put together in four places: the
component brings some modifiers of its own, the element declares others, and the presentations
below it hang theirs on at the end, those inside of a toolbar behind the toolbar.  Each place
appends to a view that may have a chain already.  The chain stays flat because a bare view is never
one with modifiers (`Flat`), and what stands in it is told from the tree alone: by name for the
component's own modifiers, `intrinsicNames`, and tree by tree for the others, `hungAll`.
-/
import Screenwright.Proofs.Lowering.Chains
import Screenwright.Proofs.Lowering.Results

namespace Screenwright

open Steps Swift

/-! ### Bare views -/

namespace Swift.View

/-- The view without its chain. -/
def core : View → View
  | modified inner _ => inner
  | view => view

/-- All modifiers of the view are in its chain. -/
def Flat (view : View) : Prop :=
  ∀ inner chain, view.core ≠ .modified inner chain

theorem core_modify (view : View) (modifiers : List ViewModifier) :
    (view.modify modifiers).core = view.core := by
  unfold modify
  split
  · rfl
  · cases view with
    | modified inner chain => rfl
    | container kind args content trailing => rfl
    | leaf kind args => rfl
    | conditional condition yes no => rfl

theorem modify_modify (view : View) (ms ns : List ViewModifier) :
    (view.modify ms).modify ns = view.modify (ms ++ ns) := by
  cases ms with
  | nil => rfl
  | cons m ms =>
      cases ns with
      | nil => rw [List.append_nil]; rfl
      | cons n ns => cases view <;> simp [modify]

/-- The view is flat, and its modifiers have the names. -/
structure Carries (view : View) (names : List String) : Prop where
  flat : view.Flat
  chain : view.chain.map ViewModifier.name = names

section Carries

variable {names : List String}

theorem carries_leaf {kind : LeafKind} {args : List Arg} : Carries (.leaf kind args) [] :=
  ⟨fun _ _ => nofun, rfl⟩

theorem carries_container {kind : ContainerKind} {args : List Arg} {views : List View}
    {trailing : List Closure} : Carries (.container kind args views trailing) [] :=
  ⟨fun _ _ => nofun, rfl⟩

theorem carries_conditional {condition : Value} {yes no : List View} :
    Carries (.conditional condition yes no) [] :=
  ⟨fun _ _ => nofun, rfl⟩

theorem Carries.modify {view : View} (h : view.Carries []) {modifiers : List ViewModifier}
    (hnames : modifiers.map ViewModifier.name = names) : (view.modify modifiers).Carries names := by
  refine ⟨fun inner chain hcore => h.flat inner chain (core_modify view modifiers ▸ hcore), ?_⟩
  rw [chain_modify, List.map_append, h.chain, hnames]
  rfl

end Carries

end Swift.View

/-! ### The modifiers of a component -/

/-- The name, if something is there. -/
def nameIf {α : Type} (name : String) (value : Option α) : List String :=
  if value.isSome then [name] else []

/-- The names of the modifiers that an element has on account of its kind. -/
def Element.intrinsicNames (e : Element) : List String :=
  match e.kind with
  | .list => nameIf "listStyle" (e.wordExcept? "style" "automatic")
  | .text =>
    nameIf "font" (e.token? "font") ++ nameIf "foregroundStyle" (e.token? "color") ++
      nameIf "multilineTextAlignment" (e.text? "alignment") ++
      nameIf "lineLimit" (e.integer? "lineLimit")
  | .image =>
    (if e.bool? "resizable" = some true then ["resizable"] else []) ++
      nameIf "aspectRatio" (e.text? "contentMode") ++ nameIf "foregroundStyle" (e.token? "color")
  | .button =>
    nameIf "buttonStyle" (e.wordExcept? "style" "automatic") ++ nameIf "tint" (e.token? "tint")
  | .picker => nameIf "pickerStyle" (e.wordExcept? "style" "automatic")
  | .textField | .secureField => nameIf "keyboardType" (e.wordExcept? "keyboard" "default")
  | .card =>
    ["padding", "frame"] ++ nameIf "background" (e.token? "background") ++
      nameIf "shadow" (e.token? "elevation")
  | _ => []

namespace Setting

variable {s : Setting} {e : Element} {content : Build (List View)} {name : String}

theorem map_name_option {α : Type} {make : α → ViewModifier} {value : Option α}
    (h : ∀ a, value = some a → (make a).name = name) :
    (value.map make).toList.map ViewModifier.name = nameIf name value := by
  cases value with
  | none => rfl
  | some a => simp [nameIf, h a rfl]

theorem map_name_optionalModifier {α : Type} {toValue : α → Value} {value : Option α} :
    (optionalModifier name toValue value).map ViewModifier.name = nameIf name value :=
  map_name_option fun _ _ => rfl

theorem nameIf_congr {α β : Type} {a : Option α} {b : Option β} (h : a.isSome = b.isSome) :
    nameIf name a = nameIf name b := by
  rw [nameIf, nameIf, h]

/-- There is something for a token property if the property is there. -/
theorem tokenProp_isSome {α : Type} {resolve : String → TokenRef → Except BuildError α} :
    Gives (tokenProp resolve e name) fun found => found.isSome = (e.token? name).isSome := by
  unfold tokenProp
  split
  next ref href =>
    intro found hfound
    obtain ⟨a, -, rfl⟩ := map_eq_ok.mp hfound
    simp [href]
  next hnone => exact .ret (by simp [hnone])

theorem shadow_name (node : String) (ref : TokenRef) :
    Gives (s.shadow node ref) fun m => m.name = "shadow" := by
  refine Gives.step fun token => ?_
  cases token with
  | shadow shadow => exact .ret rfl
  | _ => exact .error

/-- The view of a component has the modifiers of its kind. -/
abbrev MakesCarrier (m : Build View) (names : List String) : Prop :=
  Makes m fun view => view.Carries names

theorem textView_carries : MakesCarrier (s.textView e)
    (nameIf "font" (e.token? "font") ++ nameIf "foregroundStyle" (e.token? "color") ++
      nameIf "multilineTextAlignment" (e.text? "alignment") ++
      nameIf "lineLimit" (e.integer? "lineLimit")) := by
  refine (Keeps.lift tokenProp_isSome).bind fun font hfont => ?_
  refine (Keeps.lift tokenProp_isSome).bind fun color hcolor => .ret ?_
  refine View.carries_leaf.modify ?_
  simp only [List.map_append, map_name_optionalModifier, nameIf_congr hfont, nameIf_congr hcolor]

theorem image_carries : MakesCarrier (s.image e)
    ((if e.bool? "resizable" = some true then ["resizable"] else []) ++
      nameIf "aspectRatio" (e.text? "contentMode") ++
      nameIf "foregroundStyle" (e.token? "color")) := by
  refine (Keeps.lift tokenProp_isSome).bind fun color hcolor => .ret ?_
  refine View.carries_leaf.modify ?_
  rw [List.map_append, List.map_append, map_name_optionalModifier, nameIf_congr hcolor]
  refine congrArg₂ (· ++ · ++ _) ?_ (map_name_option fun _ _ => rfl)
  split <;> rfl

theorem button_carries : MakesCarrier (s.button e content)
    (nameIf "buttonStyle" (e.wordExcept? "style" "automatic") ++
      nameIf "tint" (e.token? "tint")) := by
  unfold button
  split
  -- Whatever the action is, the view is put together behind it in the same way.
  all_goals
    refine Makes.after fun _ => Makes.after fun views => ?_
    refine (Keeps.lift tokenProp_isSome).bind fun tint htint => .ret (View.Carries.modify ?_ ?_)
    · split
      · exact View.carries_leaf
      · exact View.carries_container
    · rw [List.map_append, map_name_optionalModifier, map_name_optionalModifier,
        nameIf_congr htint]

theorem card_carries : MakesCarrier (s.card e content)
    (["padding", "frame"] ++ nameIf "background" (e.token? "background") ++
      nameIf "shadow" (e.token? "elevation")) := by
  refine Makes.after fun _ => Makes.after fun _ => Makes.after fun _ => ?_
  refine (Keeps.lift tokenProp_isSome).bind fun background hbackground => ?_
  refine Keeps.bind (p := fun shadow => shadow.isSome = (e.token? "elevation").isSome ∧
    ∀ m, shadow = some m → m.name = "shadow") (.lift ?_) ?_
  · exact fun shadow h => ⟨tokenProp_isSome shadow h, tokenProp_gives (shadow_name e.id) shadow h⟩
  rintro shadow ⟨hshadow, hname⟩
  refine Makes.after fun _ => .ret (View.carries_container.modify ?_)
  rw [List.map_append, List.map_append, ← nameIf_congr hbackground, ← nameIf_congr hshadow]
  refine congrArg₂ (_ ++ · ++ ·) (map_name_option fun _ _ => rfl) ?_
  cases shadow with
  | none => rfl
  | some m => simp [nameIf, hname m rfl]

theorem navigationStack_carries : MakesCarrier (s.navigationStack e content) [] := by
  refine Makes.after fun views => ?_
  dsimp only
  split
  · exact .ret View.carries_container
  · exact .ret View.carries_container

theorem navigationLink_carries : MakesCarrier (s.navigationLink e content) [] := by
  refine Makes.after fun _ => Makes.after fun _ => Makes.after fun views => ?_
  dsimp only
  split
  · exact .ret View.carries_leaf
  · exact .ret View.carries_container

/-- **A component makes a bare view with the modifiers of its kind.** -/
theorem component_carries : MakesCarrier (s.component e content) e.intrinsicNames := by
  unfold component Element.intrinsicNames
  cases e.kind with
  | vStack => exact Makes.after fun _ => Makes.after fun _ => .ret View.carries_container
  | hStack => exact Makes.after fun _ => Makes.after fun _ => .ret View.carries_container
  | grid => exact Makes.after fun _ => Makes.after fun _ => .ret View.carries_container
  | zStack => exact Makes.after fun _ => .ret View.carries_container
  | scrollView => exact Makes.after fun _ => .ret View.carries_container
  | «section» => exact Makes.after fun _ => .ret View.carries_container
  | form => exact Makes.after fun _ => .ret View.carries_container
  | menu => exact Makes.after fun _ => .ret View.carries_container
  | tabView => exact Makes.after fun _ => .ret View.carries_container
  | conditional => exact Makes.after fun _ => .ret View.carries_conditional
  | spacer => exact Makes.after fun _ => .ret View.carries_leaf
  | navigationStack => exact navigationStack_carries
  | navigationLink => exact navigationLink_carries
  | list =>
      exact Makes.after fun _ => .ret (View.carries_container.modify map_name_optionalModifier)
  | text => exact textView_carries
  | image => exact image_carries
  | button => exact button_carries
  | picker => exact .ret (View.carries_container.modify map_name_optionalModifier)
  | textField => exact .ret (View.carries_leaf.modify map_name_optionalModifier)
  | secureField => exact .ret (View.carries_leaf.modify map_name_optionalModifier)
  | card => exact card_carries
  | _ => exact .ret View.carries_leaf

end Setting

/-! ### What stands below an element -/

namespace Tree

/-- The trees that stand in the content of their parent. -/
def contents (ts : List (Tree Element)) : List (Tree Element) :=
  ts.filter fun t => !t.value.kind.isPresentation

mutual

/-- The presentations that a tree hangs on the view of its parent: itself, if it is one, and those
inside of a toolbar behind the toolbar. -/
def hung : Tree Element → List (Tree Element)
  | node e ts =>
    if e.kind.isPresentation then node e ts :: (if e.kind = .toolbar then hungAll ts else [])
    else []

/-- `hung` for several trees, one tree after the other. -/
def hungAll : List (Tree Element) → List (Tree Element)
  | [] => []
  | t :: ts => hung t ++ hungAll ts

end

end Tree

namespace Setting

open Screenwright.Tree

/-- The modifier is what the declared one is lowered to. -/
def Declares (s : Setting) (e : Element) (declared : Modifier) (m : ViewModifier) : Prop :=
  CanGive (ModifierUse.lower ⟨e.id, declared⟩ s) m

/-- The modifier is the first one by which the tree is presented. -/
def Hangs (s : Setting) (t : Tree Element) (m : ViewModifier) : Prop :=
  ∃ rest, CanGive (present s t) (m :: rest)

/-- The views of content, one for each tree, and in the same order. -/
abbrev Shown (s : Setting) (ts : List (Tree Element)) (views : List View) : Prop :=
  List.Forall₂ (fun t view => CanGive (lower s t) view) (contents ts) views

/-- The view is the base with a longer chain: behind that of the base and some modifiers of its own,
the element has one modifier for each that it declares and one for each presentation that is hung on
it, in the same order. -/
structure Composed (s : Setting) (e : Element) (ts : List (Tree Element)) (base : View)
    (own : List ViewModifier) (view : View) : Prop where
  flat : view.Flat
  core : view.core = base.core
  chain : ∃ user hoisted, view.chain = base.chain ++ own ++ user ++ hoisted ∧
    List.Forall₂ (s.Declares e) e.modifiers user ∧ List.Forall₂ s.Hangs (hungAll ts) hoisted

/-- The modifiers by which an element is presented. -/
inductive PresentedAs (s : Setting) (e : Element) (ts : List (Tree Element)) :
    List ViewModifier → Prop
  | cover {name : String} {views : List View} {view : View}
      (hkind : e.kind = .sheet ∧ name = "sheet" ∨
        e.kind = .fullScreenCover ∧ name = "fullScreenCover")
      (hviews : s.Shown ts views) (hview : s.Composed e ts (singleView views) (detents e) view) :
      PresentedAs s e ts
        [.mk name [labeled "isPresented" (s.write e "isPresented")] [Closure.first [view]]]
  | dialog {name : String} {args : List Arg} {trailing : List Closure}
      (hkind : e.kind = .alert ∧ name = "alert" ∨
        e.kind = .confirmationDialog ∧ name = "confirmationDialog") :
      PresentedAs s e ts [.mk name args trailing]
  | toolbar {placement : Value} {views : List View} {hoisted : List ViewModifier}
      (hkind : e.kind = .toolbar) (hviews : s.Shown ts views)
      (hhung : List.Forall₂ s.Hangs (hungAll ts) hoisted) :
      PresentedAs s e ts (.mk "toolbar" []
        [Closure.first [.ofContent .toolbarItemGroup [labeled "placement" placement] views]] ::
          hoisted)

variable {s : Setting} {e : Element} {ts : List (Tree Element)}

theorem Composed.of_modify {base : View} {own user hoisted : List ViewModifier}
    (hbase : base.Flat) (huser : CanGive (s.userModifiers e) user)
    (hhung : List.Forall₂ s.Hangs (hungAll ts) hoisted) :
    s.Composed e ts base own (base.modify (own ++ user ++ hoisted)) where
  flat := fun inner chain h => hbase inner chain (View.core_modify base _ ▸ h)
  core := View.core_modify base _
  chain := ⟨user, hoisted, by rw [View.chain_modify]; simp only [List.append_assoc],
    huser.forall₂_of_mapM, hhung⟩

theorem shown_of_lowerContent :
    ∀ {ts : List (Tree Element)} {views : List View}, CanGive (lowerContent s ts) views →
      s.Shown ts views := by
  intro ts
  induction ts with
  | nil =>
      intro views h
      rw [h.eq_of_pure]
      exact .nil
  | cons t ts ih =>
      intro views h
      rw [lowerContent] at h
      unfold Shown contents
      by_cases hkind : t.value.kind.isPresentation = true
      · rw [if_pos hkind] at h
        rw [List.filter_cons_of_neg (by simp [hkind])]
        exact ih h
      · rw [if_neg hkind] at h
        rw [List.filter_cons_of_pos (by simp [hkind])]
        obtain ⟨view, hview, h⟩ := h.exists_of_bind
        obtain ⟨rest, hrest, h⟩ := h.exists_of_bind
        rw [h.eq_of_pure]
        exact .cons hview (ih hrest)

theorem flat_of_lower {t : Tree Element} {view : View} (h : CanGive (lower s t) view) :
    view.Flat := by
  obtain ⟨e, ts⟩ := t
  rw [lower] at h
  obtain ⟨base, hbase, h⟩ := h.exists_of_bind
  obtain ⟨user, -, h⟩ := h.exists_of_bind
  obtain ⟨hoisted, -, h⟩ := h.exists_of_bind
  rw [h.eq_of_pure]
  intro inner chain hcore
  rw [View.core_modify, View.core_modify] at hcore
  exact (hbase.of_keeps component_carries).flat inner chain hcore

theorem flat_singleView {views : List View} (h : s.Shown ts views) : (singleView views).Flat := by
  match views, h with
  | [], _ => exact View.carries_leaf.flat
  | [view], h =>
      obtain ⟨t, -, ht⟩ := exists_of_forall₂ h view List.mem_cons_self
      exact flat_of_lower ht
  | _ :: _ :: _, _ => exact View.carries_container.flat

variable {content : Build (List View)} {nested : Build (List ViewModifier)} {name : String}
  {ms : List ViewModifier}

theorem exists_of_cover (h : CanGive (s.cover e name content nested) ms) :
    ∃ views user hoisted, CanGive content views ∧ CanGive (s.userModifiers e) user ∧
      CanGive nested hoisted ∧
      ms = [.mk name [labeled "isPresented" (s.write e "isPresented")]
        [Closure.first [(singleView views).modify (detents e ++ user ++ hoisted)]]] := by
  obtain ⟨views, hviews, h⟩ := h.exists_of_bind
  obtain ⟨user, huser, h⟩ := h.exists_of_bind
  obtain ⟨hoisted, hhoisted, h⟩ := h.exists_of_bind
  exact ⟨views, user, hoisted, hviews, huser, hhoisted, h.eq_of_pure⟩

theorem exists_of_dialog {extra : List Arg} (h : CanGive (s.dialog e name extra) ms) :
    ∃ args trailing, ms = [.mk name args trailing] := by
  obtain ⟨_, -, h⟩ := h.exists_of_bind
  obtain ⟨buttons, -, h⟩ := h.exists_of_bind
  exact ⟨_, _, h.eq_of_pure⟩

theorem exists_of_toolbar (h : CanGive (toolbar e content nested) ms) :
    ∃ placement views hoisted, CanGive content views ∧ CanGive nested hoisted ∧
      ms = .mk "toolbar" []
        [Closure.first [.ofContent .toolbarItemGroup [labeled "placement" placement] views]] ::
          hoisted := by
  obtain ⟨_, -, h⟩ := h.exists_of_bind
  obtain ⟨views, hviews, h⟩ := h.exists_of_bind
  obtain ⟨hoisted, hhoisted, h⟩ := h.exists_of_bind
  exact ⟨_, views, hoisted, hviews, hhoisted, h.eq_of_pure⟩

mutual

/-- What is presented comes first, and behind a toolbar what is hung inside of it. -/
theorem hangs_of_present (s : Setting) : ∀ (t : Tree Element) {ms : List ViewModifier},
    CanGive (present s t) ms → List.Forall₂ s.Hangs (hung t) ms
  | .node e ts, ms, h => by
    have hpresent := h
    rw [present] at h
    unfold presentation at h
    rw [hung]
    cases hkind : e.kind <;> rw [hkind] at h
    case sheet =>
      obtain ⟨_, _, _, -, -, -, rfl⟩ := exists_of_cover h
      exact .cons ⟨_, hpresent⟩ .nil
    case fullScreenCover =>
      obtain ⟨_, _, _, -, -, -, rfl⟩ := exists_of_cover h
      exact .cons ⟨_, hpresent⟩ .nil
    case alert =>
      obtain ⟨_, _, rfl⟩ := exists_of_dialog h
      exact .cons ⟨_, hpresent⟩ .nil
    case confirmationDialog =>
      obtain ⟨_, _, rfl⟩ := exists_of_dialog h
      exact .cons ⟨_, hpresent⟩ .nil
    case toolbar =>
      obtain ⟨_, _, hoisted, -, hhoisted, rfl⟩ := exists_of_toolbar h
      exact .cons ⟨_, hpresent⟩ (hangs_of_lowerPresented s ts hhoisted)
    -- content cannot be presented
    all_goals exact (h.of_keeps (p := fun _ => False) .error).elim

/-- `hangs_of_present` for the children of a node. -/
theorem hangs_of_lowerPresented (s : Setting) :
    ∀ (ts : List (Tree Element)) {ms : List ViewModifier}, CanGive (lowerPresented s ts) ms →
      List.Forall₂ s.Hangs (hungAll ts) ms
  | [], ms, h => by
    rw [h.eq_of_pure]
    exact .nil
  | t :: ts, ms, h => by
    rw [lowerPresented] at h
    rw [hungAll]
    split at h
    · obtain ⟨own, hown, h⟩ := h.exists_of_bind
      obtain ⟨rest, hrest, h⟩ := h.exists_of_bind
      rw [h.eq_of_pure]
      exact List.rel_append (hangs_of_present s t hown) (hangs_of_lowerPresented s ts hrest)
    next hcontent =>
      obtain ⟨e, us⟩ := t
      have hkind : ¬ e.kind.isPresentation = true := hcontent
      rw [hung, if_neg hkind]
      exact hangs_of_lowerPresented s ts h

end

/-- **The view of a tree is that of its component with a longer chain.** -/
theorem exists_of_lower {view : View} (h : CanGive (lower s (.node e ts)) view) :
    ∃ base, CanGive (s.component e (lowerContent s ts)) base ∧
      base.Carries e.intrinsicNames ∧ s.Composed e ts base [] view := by
  rw [lower] at h
  obtain ⟨base, hbase, h⟩ := h.exists_of_bind
  obtain ⟨user, huser, h⟩ := h.exists_of_bind
  obtain ⟨hoisted, hhoisted, h⟩ := h.exists_of_bind
  have hcarries := hbase.of_keeps component_carries
  refine ⟨base, hbase, hcarries, ?_⟩
  rw [h.eq_of_pure, View.modify_modify]
  exact .of_modify hcarries.flat huser (hangs_of_lowerPresented s ts hhoisted)

/-- **What is presented is a view with a longer chain, in one modifier, or it is a dialog, or a
toolbar in front of what is presented inside of it.** -/
theorem presented_of_present (hkind : e.kind.isPresentation = true)
    (h : CanGive (present s (.node e ts)) ms) : s.PresentedAs e ts ms := by
  rw [present] at h
  unfold presentation at h
  cases hcase : e.kind <;> rw [hcase] at h hkind
  case sheet =>
    obtain ⟨views, user, hoisted, hviews, huser, hhoisted, rfl⟩ := exists_of_cover h
    have hshown := shown_of_lowerContent hviews
    exact .cover (Or.inl ⟨hcase, rfl⟩) hshown
      (.of_modify (flat_singleView hshown) huser (hangs_of_lowerPresented s ts hhoisted))
  case fullScreenCover =>
    obtain ⟨views, user, hoisted, hviews, huser, hhoisted, rfl⟩ := exists_of_cover h
    have hshown := shown_of_lowerContent hviews
    exact .cover (Or.inr ⟨hcase, rfl⟩) hshown
      (.of_modify (flat_singleView hshown) huser (hangs_of_lowerPresented s ts hhoisted))
  case alert =>
    obtain ⟨_, _, rfl⟩ := exists_of_dialog h
    exact .dialog (Or.inl ⟨hcase, rfl⟩)
  case confirmationDialog =>
    obtain ⟨_, _, rfl⟩ := exists_of_dialog h
    exact .dialog (Or.inr ⟨hcase, rfl⟩)
  case toolbar =>
    obtain ⟨placement, views, hoisted, hviews, hhoisted, rfl⟩ := exists_of_toolbar h
    exact .toolbar hcase (shown_of_lowerContent hviews) (hangs_of_lowerPresented s ts hhoisted)
  -- everything else is content
  all_goals cases hkind

end Setting

end Screenwright
