/-
What the printer relies on.

The printer writes down any view there is, but not all of every view.  It opens the first closure
behind a modifier without its label, puts a label of its own where a later closure has none, and
wraps a conditional in a group only if it stands directly under the modifiers.  None of this shows
in the views that are generated: they are `Printable`, and of such a view the printer writes down
every part, by rules that leave nothing out and make nothing up.

Views are put together in few ways.  Modifiers that make no views can be hung on anything, and all
others come from presentations, tabs and the navigation of the entry, where the closures are given
one by one.
-/
import Screenwright.Proofs.Generation
import Screenwright.Proofs.Lowering.Chains

namespace Screenwright

open Steps

namespace Swift

/-! ### Printable views -/

/-- Whether a view is one with modifiers. -/
def View.isModified : View → Bool
  | .modified _ _ => true
  | _ => false

mutual

/-- Nothing in the view is lost in print. -/
inductive View.Printable : View → Prop
  | leaf {kind : LeafKind} {args : List Arg} : View.Printable (.leaf kind args)
  /-- All closures behind the content have labels. -/
  | container {kind : ContainerKind} {args : List Arg} {content : List View}
      {trailing : List Closure} (hcontent : ∀ view ∈ content, View.Printable view)
      (htrailing : ∀ closure ∈ trailing, Closure.Printable closure)
      (hlabels : ∀ closure ∈ trailing, closure.label.isSome = true) :
      View.Printable (.container kind args content trailing)
  /-- There are modifiers, and no others below them. -/
  | modified {inner : View} {chain : List ViewModifier} (hinner : View.Printable inner)
      (hbare : inner.isModified = false) (hchain : chain ≠ [])
      (hmodifiers : ∀ m ∈ chain, ViewModifier.Printable m) :
      View.Printable (.modified inner chain)
  /-- If there is something else to show, there is one view to show first. -/
  | conditional {condition : Value} {yes no : List View}
      (hyes : ∀ view ∈ yes, View.Printable view) (hno : ∀ view ∈ no, View.Printable view)
      (hone : no ≠ [] → yes.length = 1) : View.Printable (.conditional condition yes no)

/-- The first closure of the modifier has no label, and all others have one. -/
inductive ViewModifier.Printable : ViewModifier → Prop
  | mk {name : String} {args : List Arg} {trailing : List Closure}
      (htrailing : ∀ closure ∈ trailing, Closure.Printable closure)
      (hfirst : ∀ closure ∈ trailing.head?, closure.label = none)
      (hlater : ∀ closure ∈ trailing.tail, closure.label.isSome = true) :
      ViewModifier.Printable (.mk name args trailing)

/-- The views that the closure makes are printable. -/
inductive Closure.Printable : Closure → Prop
  | mk {label : Option String} {params : List String} {body : List View}
      (hbody : ∀ view ∈ body, View.Printable view) : Closure.Printable (.mk label params body)

end

/-- All of the views are printable. -/
def AllPrintable (views : List View) : Prop :=
  ∀ view ∈ views, view.Printable

/-- All of the modifiers are printable. -/
def AllPrintableModifiers (ms : List ViewModifier) : Prop :=
  ∀ m ∈ ms, m.Printable

/-! ### The rules of printing -/

mutual

/-- The view is written as the lines, and nothing of it is left out. -/
inductive View.Writes : Nat → View → List Line → Prop
  | leaf {depth : Nat} {kind : LeafKind} {args : List Arg} :
      View.Writes depth (.leaf kind args) [⟨depth, kind.name ++ "(" ++ argsText args ++ ")"⟩]
  | container {depth : Nat} {kind : ContainerKind} {args : List Arg} {content : List View}
      {trailing : List Closure} {inside behind : List Line}
      (hcontent : ViewsWrite (depth + 1) content inside)
      (htrailing : LaterWrite depth trailing behind) :
      View.Writes depth (.container kind args content trailing)
        (⟨depth, containerHead kind args ++ " \x7b"⟩ :: inside ++ behind ++ [⟨depth, "\x7d"⟩])
  | modified {depth : Nat} {inner : View} {m : ViewModifier} {ms : List ViewModifier}
      {above behind : List Line} (hinner : View.Writes depth inner above)
      (hbare : inner.isModified = false ∧ inner.isConditional = false)
      (hchain : ChainWrites (depth + 1) (m :: ms) behind) :
      View.Writes depth (.modified inner (m :: ms)) (above ++ behind)
  /-- Modifiers of a conditional stand behind a group. -/
  | grouped {depth : Nat} {condition : Value} {yes no : List View} {m : ViewModifier}
      {ms : List ViewModifier} {inside behind : List Line}
      (hinner : View.Writes (depth + 1) (.conditional condition yes no) inside)
      (hchain : ChainWrites (depth + 1) (m :: ms) behind) :
      View.Writes depth (.modified (.conditional condition yes no) (m :: ms))
        ((⟨depth, "Group \x7b"⟩ :: inside ++ [⟨depth, "\x7d"⟩]) ++ behind)
  | only {depth : Nat} {condition : Value} {yes : List View} {inside : List Line}
      (hyes : ViewsWrite (depth + 1) yes inside) :
      View.Writes depth (.conditional condition yes [])
        (⟨depth, "if " ++ condition.text ++ " \x7b"⟩ :: inside ++ [⟨depth, "\x7d"⟩])
  | either {depth : Nat} {condition : Value} {yes other : View} {others : List View}
      {inside inside' : List Line} (hyes : ViewsWrite (depth + 1) [yes] inside)
      (hno : ViewsWrite (depth + 1) (other :: others) inside') :
      View.Writes depth (.conditional condition [yes] (other :: others))
        (⟨depth, "if " ++ condition.text ++ " \x7b"⟩ :: inside ++
          ⟨depth, "\x7d else \x7b"⟩ :: inside' ++ [⟨depth, "\x7d"⟩])

/-- The views are written one after the other. -/
inductive ViewsWrite : Nat → List View → List Line → Prop
  | nil {depth : Nat} : ViewsWrite depth [] []
  | cons {depth : Nat} {view : View} {views : List View} {first rest : List Line}
      (hview : View.Writes depth view first) (hviews : ViewsWrite depth views rest) :
      ViewsWrite depth (view :: views) (first ++ rest)

/-- The modifiers are written one after the other. -/
inductive ChainWrites : Nat → List ViewModifier → List Line → Prop
  | nil {depth : Nat} : ChainWrites depth [] []
  | cons {depth : Nat} {m : ViewModifier} {ms : List ViewModifier} {first rest : List Line}
      (hm : ViewModifier.Writes depth m first) (hms : ChainWrites depth ms rest) :
      ChainWrites depth (m :: ms) (first ++ rest)

/-- A modifier is written with a closure that has no label, and with labelled ones behind it. -/
inductive ViewModifier.Writes : Nat → ViewModifier → List Line → Prop
  | plain {depth : Nat} {name : String} {args : List Arg} :
      ViewModifier.Writes depth (.mk name args []) [⟨depth, modifierHead name args false⟩]
  | closures {depth : Nat} {name : String} {args : List Arg} {params : List String}
      {body : List View} {later : List Closure} {inside behind : List Line}
      (hbody : ViewsWrite (depth + 1) body inside) (hlater : LaterWrite depth later behind) :
      ViewModifier.Writes depth (.mk name args (.mk none params body :: later))
        (⟨depth, modifierHead name args true ++ " " ++ openBrace params⟩ :: inside ++ behind ++
          [⟨depth, "\x7d"⟩])

/-- Closures are written behind others, each under its own label. -/
inductive LaterWrite : Nat → List Closure → List Line → Prop
  | nil {depth : Nat} : LaterWrite depth [] []
  | cons {depth : Nat} {label : String} {params : List String} {body : List View}
      {later : List Closure} {inside behind : List Line}
      (hbody : ViewsWrite (depth + 1) body inside) (hlater : LaterWrite depth later behind) :
      LaterWrite depth (.mk (some label) params body :: later)
        (⟨depth, "\x7d " ++ label ++ ": " ++ openBrace params⟩ :: inside ++ behind)

end

mutual

/-- **A printable view is written by the rules.** -/
theorem View.writes_lines : ∀ view : View, view.Printable → ∀ depth,
    view.Writes depth (view.lines depth)
  | .leaf kind args, _, depth => by
    rw [View.lines]
    exact .leaf
  | .container kind args content trailing, h, depth => by
    cases h with | container hcontent htrailing hlabels =>
    rw [View.lines]
    exact .container (viewsWrite_lines content hcontent _)
      (laterWrite_lines trailing htrailing hlabels depth)
  | .modified inner chain, h, depth => by
    cases h with | modified hinner hbare hchain hmodifiers =>
    have hwrites := View.writes_lines inner hinner
    have hbehind := chainWrites_lines chain hmodifiers (depth + 1)
    obtain ⟨m, ms, rfl⟩ := List.exists_cons_of_ne_nil hchain
    rw [View.lines]
    cases inner with
    | leaf kind args => exact .modified (hwrites depth) ⟨rfl, rfl⟩ hbehind
    | container kind args content trailing => exact .modified (hwrites depth) ⟨rfl, rfl⟩ hbehind
    | modified inner chain => cases hbare
    | conditional condition yes no => exact .grouped (hwrites (depth + 1)) hbehind
  | .conditional condition yes no, h, depth => by
    cases h with | conditional hyes hno hone =>
    have hfirst := viewsWrite_lines yes hyes (depth + 1)
    have hother := viewsWrite_lines no hno (depth + 1)
    rw [View.lines]
    cases no with
    | nil => simpa using View.Writes.only hfirst
    | cons other others =>
        obtain ⟨view, rfl⟩ := List.length_eq_one_iff.mp (hone (List.cons_ne_nil other others))
        simpa using View.Writes.either hfirst hother

/-- `View.writes_lines` for several views. -/
theorem viewsWrite_lines : ∀ views : List View, AllPrintable views → ∀ depth,
    ViewsWrite depth views (viewLines depth views)
  | [], _, depth => by
    rw [viewLines]
    exact .nil
  | view :: views, h, depth => by
    rw [AllPrintable, List.forall_mem_cons] at h
    rw [viewLines]
    exact .cons (View.writes_lines view h.1 depth) (viewsWrite_lines views h.2 depth)

/-- `View.writes_lines` for modifiers. -/
theorem chainWrites_lines : ∀ ms : List ViewModifier, AllPrintableModifiers ms → ∀ depth,
    ChainWrites depth ms (modifierLines depth ms)
  | [], _, depth => by
    rw [modifierLines]
    exact .nil
  | m :: ms, h, depth => by
    rw [AllPrintableModifiers, List.forall_mem_cons] at h
    rw [modifierLines]
    exact .cons (ViewModifier.writes_lines m h.1 depth) (chainWrites_lines ms h.2 depth)

/-- `View.writes_lines` for a modifier. -/
theorem ViewModifier.writes_lines : ∀ m : ViewModifier, m.Printable → ∀ depth,
    m.Writes depth (m.lines depth)
  | .mk name args [], _, depth => by
    rw [ViewModifier.lines]
    exact .plain
  | .mk name args (.mk label params body :: later), h, depth => by
    cases h with | mk htrailing hfirst hlater =>
    rw [List.forall_mem_cons] at htrailing
    cases htrailing.1 with | mk hbody =>
    obtain rfl : label = none := hfirst _ rfl
    rw [ViewModifier.lines]
    exact .closures (viewsWrite_lines body hbody _)
      (laterWrite_lines later htrailing.2 hlater depth)

/-- `View.writes_lines` for closures behind the first one. -/
theorem laterWrite_lines : ∀ closures : List Closure, (∀ closure ∈ closures, closure.Printable) →
    (∀ closure ∈ closures, closure.label.isSome = true) → ∀ depth,
      LaterWrite depth closures (closureLines depth closures)
  | [], _, _, depth => by
    rw [closureLines]
    exact .nil
  | .mk label params body :: later, h, hlabels, depth => by
    rw [List.forall_mem_cons] at h hlabels
    cases h.1 with | mk hbody =>
    obtain ⟨text, rfl⟩ : ∃ text, label = some text := Option.isSome_iff_exists.mp hlabels.1
    rw [closureLines]
    exact .cons (viewsWrite_lines body hbody _) (laterWrite_lines later h.2 hlabels.2 depth)

end

/-! ### Building printable views -/

section Building

variable {view : View} {views : List View} {m : ViewModifier} {ms : List ViewModifier}

theorem View.printable_ofContent {kind : ContainerKind} {args : List Arg}
    (h : AllPrintable views) : (View.ofContent kind args views).Printable :=
  .container h (by simp) (by simp)

/-- A modifier that makes no views. -/
theorem ViewModifier.printable_of_viewless (h : m.trailing = []) : m.Printable := by
  obtain ⟨name, args, trailing⟩ := m
  cases h
  exact .mk (by simp) (by simp) (by simp)

/-- A modifier with one closure. -/
theorem ViewModifier.printable_first {name : String} {args : List Arg} {params : List String}
    (h : AllPrintable views) :
    (ViewModifier.mk name args [.mk none params views]).Printable := by
  refine .mk (List.forall_mem_singleton.mpr (.mk h)) ?_ (by simp)
  rintro closure ⟨⟩
  rfl

theorem Viewless.printable (h : Viewless ms) : AllPrintableModifiers ms :=
  fun m hm => ViewModifier.printable_of_viewless (h m hm)

/-- Modifiers are hung on a view, or put behind those it has. -/
theorem View.Printable.modify (h : view.Printable) (hms : AllPrintableModifiers ms) :
    (view.modify ms).Printable := by
  unfold View.modify
  split
  · exact h
  next hne =>
    have hne : ms ≠ [] := by simpa using hne
    cases h with
    | leaf => exact .modified .leaf rfl hne hms
    | container hcontent htrailing hlabels =>
        exact .modified (.container hcontent htrailing hlabels) rfl hne hms
    | modified hinner hbare hchain hmodifiers =>
        exact .modified hinner hbare (List.append_ne_nil_of_left_ne_nil hchain ms)
          (List.forall_mem_append.mpr ⟨hmodifiers, hms⟩)
    | conditional hyes hno hone => exact .modified (.conditional hyes hno hone) rfl hne hms

end Building

end Swift

open Swift

/-! ### Components -/

namespace Setting

variable {s : Setting} {e : Element} {content : Build (List View)}

theorem printable_singleView {views : List View} (h : AllPrintable views) :
    (singleView views).Printable := by
  unfold singleView
  split
  · exact .leaf
  · exact h _ List.mem_cons_self
  · exact View.printable_ofContent h

theorem scroll_printable (hcontent : Makes content AllPrintable) :
    Makes (scroll e content) View.Printable := by
  refine hcontent.bind fun views hviews => .ret (View.printable_ofContent ?_)
  split
  · exact List.forall_mem_singleton.mpr (View.printable_ofContent hviews)
  · exact hviews

theorem section_printable (hcontent : Makes content AllPrintable) :
    Makes («section» e content) View.Printable := by
  refine hcontent.bind fun views hviews => .ret ?_
  have htitled : ∀ (label : String) (title : Option String), ∀ closure ∈ (title.map fun text =>
      Closure.named label [View.text (.string text)]).toList,
        closure.Printable ∧ closure.label.isSome = true := by
    intro label title closure hclosure
    obtain ⟨text, -, rfl⟩ := Option.map_eq_some_iff.mp (Option.mem_toList.mp hclosure)
    exact ⟨.mk (List.forall_mem_singleton.mpr .leaf), rfl⟩
  have hall := List.forall_mem_append.mpr
    ⟨htitled "header" (e.text? "header"), htitled "footer" (e.text? "footer")⟩
  exact .container hviews (fun closure h => (hall closure h).1) fun closure h => (hall closure h).2

/-- The first view is shown first, and there is one if there are others. -/
theorem conditional_printable (hcontent : Makes content AllPrintable) :
    Makes (s.conditional e content) View.Printable := by
  refine hcontent.bind fun views hviews => .ret (.conditional
    (fun view hview => hviews view (List.mem_of_mem_take hview))
    (fun view hview => hviews view (List.mem_of_mem_drop hview)) ?_)
  cases views with
  | nil => exact fun h => absurd rfl h
  | cons view rest => exact fun _ => rfl

theorem navigationStack_printable (hcontent : Makes content AllPrintable) :
    Makes (s.navigationStack e content) View.Printable := by
  refine hcontent.bind fun views hviews => ?_
  dsimp only
  split
  · exact .ret (View.printable_ofContent hviews)
  · refine .ret (View.printable_ofContent (List.forall_mem_singleton.mpr (.modify ?_
      (viewless_optionalModifier.append viewless_optionalModifier).printable)))
    split
    · exact hviews _ List.mem_cons_self
    · exact View.printable_ofContent hviews

theorem navigationLink_printable (hcontent : Makes content AllPrintable) :
    Makes (s.navigationLink e content) View.Printable := by
  refine Makes.after fun _ => Makes.after fun _ => hcontent.bind fun views hviews => ?_
  dsimp only
  split
  · exact .ret .leaf
  · exact .ret (View.printable_ofContent hviews)

theorem tab_printable (node : String) (item : TabItem) :
    Makes (s.tab node item) View.Printable :=
  Makes.after fun _ => Makes.after fun _ => .ret (View.Printable.leaf.modify
    (List.forall_mem_singleton.mpr (ViewModifier.printable_first
      (List.forall_mem_singleton.mpr .leaf))))

theorem textView_printable : Makes (s.textView e) View.Printable :=
  Makes.after fun _ => Makes.after fun _ => .ret (View.Printable.leaf.modify
    (((viewless_optionalModifier.append viewless_optionalModifier).append
      viewless_optionalModifier).append viewless_optionalModifier).printable)

theorem image_printable : Makes (s.image e) View.Printable := by
  refine Makes.after fun _ => .ret (View.Printable.leaf.modify (Viewless.printable ?_))
  refine (Viewless.append ?_ (viewless_option fun _ _ => rfl)).append viewless_optionalModifier
  split
  · exact viewless_nil.cons rfl
  · exact viewless_nil

theorem button_printable (hcontent : Makes content AllPrintable) :
    Makes (s.button e content) View.Printable := by
  unfold button
  split
  -- Whatever the action is, the view is put together behind it in the same way.
  all_goals
    refine Makes.after fun _ => hcontent.bind fun views hviews => Makes.after fun _ => .ret ?_
    refine View.Printable.modify ?_
      (viewless_optionalModifier.append viewless_optionalModifier).printable
    split
    · exact .leaf
    · exact View.printable_ofContent hviews

theorem picker_printable : (s.picker e).Printable := by
  refine (View.printable_ofContent (List.forall_mem_map.mpr fun option _ => ?_)).modify
    viewless_optionalModifier.printable
  exact View.Printable.leaf.modify (viewless_nil.cons rfl).printable

theorem card_printable (hcontent : Makes content AllPrintable) :
    Makes (s.card e content) View.Printable := by
  refine Makes.after fun _ => Makes.after fun _ => Makes.after fun _ => Makes.after fun _ => ?_
  refine Keeps.bind (p := fun shadow => ∀ m, shadow = some m → m.trailing = []) (.lift ?_) ?_
  · exact tokenProp_gives fun ref m hm => (shadow_plain ref m hm).1
  intro shadow hshadow
  refine hcontent.bind fun views hviews => .ret ((View.printable_ofContent hviews).modify ?_)
  refine (Viewless.append (.append (.cons rfl (viewless_nil.cons rfl)) ?_) ?_).printable
  · exact viewless_option fun _ _ => rfl
  · exact fun m hm => hshadow m (Option.mem_toList.mp hm)

/-- **Components make printable views of printable content.** -/
theorem component_printable (hcontent : Makes content AllPrintable) :
    Makes (s.component e content) View.Printable := by
  have hwrap : ∀ {kind : ContainerKind} {args : List Arg}, Makes (do
      let views ← content
      return View.ofContent kind args views) View.Printable :=
    hcontent.bind fun _ hviews => .ret (View.printable_ofContent hviews)
  unfold component
  cases e.kind with
  | vStack => exact Makes.after fun _ => hwrap
  | hStack => exact Makes.after fun _ => hwrap
  | grid => exact Makes.after fun _ => hwrap
  | zStack => exact hwrap
  | form => exact hwrap
  | menu => exact hwrap
  | list =>
      exact hcontent.bind fun _ hviews => .ret ((View.printable_ofContent hviews).modify
        viewless_optionalModifier.printable)
  | scrollView => exact scroll_printable hcontent
  | «section» => exact section_printable hcontent
  | conditional => exact conditional_printable hcontent
  | navigationStack => exact navigationStack_printable hcontent
  | navigationLink => exact navigationLink_printable hcontent
  | tabView =>
      exact (Keeps.mapM fun item _ => tab_printable e.id item).bind fun _ hviews =>
        .ret (View.printable_ofContent hviews)
  | button => exact button_printable hcontent
  | card => exact card_printable hcontent
  | text => exact textView_printable
  | image => exact image_printable
  | picker => exact .ret picker_printable
  | textField => exact .ret (View.Printable.leaf.modify viewless_optionalModifier.printable)
  | secureField => exact .ret (View.Printable.leaf.modify viewless_optionalModifier.printable)
  | spacer => exact Makes.after fun _ => .ret .leaf
  | _ => exact .ret .leaf

/-! ### Presentations -/

variable {name : String} {nested : Build (List ViewModifier)}

theorem viewless_detents : Viewless (detents e) := by
  unfold detents
  dsimp only
  split
  · exact viewless_nil.cons rfl
  · exact viewless_nil.cons rfl
  · exact viewless_nil

theorem cover_printable (hcontent : Makes content AllPrintable)
    (hnested : Makes nested AllPrintableModifiers) :
    Makes (s.cover e name content nested) AllPrintableModifiers := by
  refine hcontent.bind fun views hviews => userModifiers_plain.bind fun user huser =>
    hnested.bind fun hoisted hhoisted => .ret (List.forall_mem_singleton.mpr ?_)
  refine ViewModifier.printable_first (List.forall_mem_singleton.mpr
    ((printable_singleView hviews).modify ?_))
  exact List.forall_mem_append.mpr
    ⟨(viewless_detents.append huser.viewless).printable, hhoisted⟩

theorem actionButton_printable (node : String) (item : ActionItem) :
    Makes (s.actionButton node item) View.Printable := by
  unfold actionButton
  split <;> exact Makes.after fun _ => .ret .leaf

/-- The message of a dialog stands behind its buttons, under its label. -/
theorem dialog_printable {extra : List Arg} :
    Makes (s.dialog e name extra) AllPrintableModifiers := by
  refine Makes.after fun _ => (Keeps.mapM fun item _ => actionButton_printable e.id item).bind
    fun buttons hbuttons => .ret (List.forall_mem_singleton.mpr ?_)
  have hmessage : ∀ closure ∈ ((s.text? e "message").map fun m =>
      Closure.named "message" [View.text m]).toList,
        closure.Printable ∧ closure.label.isSome = true := by
    intro closure hclosure
    obtain ⟨m, -, rfl⟩ := Option.map_eq_some_iff.mp (Option.mem_toList.mp hclosure)
    exact ⟨.mk (List.forall_mem_singleton.mpr .leaf), rfl⟩
  refine .mk (List.forall_mem_cons.mpr ⟨.mk hbuttons, fun closure h => (hmessage closure h).1⟩) ?_
    fun closure h => (hmessage closure h).2
  rintro closure ⟨⟩
  rfl

theorem toolbar_printable (hcontent : Makes content AllPrintable)
    (hnested : Makes nested AllPrintableModifiers) :
    Makes (toolbar e content nested) AllPrintableModifiers :=
  Makes.after fun _ => hcontent.bind fun _ hviews => hnested.bind fun _ hhoisted =>
    .ret (List.forall_mem_cons.mpr ⟨ViewModifier.printable_first
      (List.forall_mem_singleton.mpr (View.printable_ofContent hviews)), hhoisted⟩)

theorem presentation_printable (hcontent : Makes content AllPrintable)
    (hnested : Makes nested AllPrintableModifiers) :
    Makes (s.presentation e content nested) AllPrintableModifiers := by
  unfold presentation
  cases e.kind with
  | sheet => exact cover_printable hcontent hnested
  | fullScreenCover => exact cover_printable hcontent hnested
  | alert => exact dialog_printable
  | confirmationDialog => exact dialog_printable
  | toolbar => exact toolbar_printable hcontent hnested
  | _ => exact .error

/-! ### Trees -/

mutual

/-- **The view of a tree is printable, and so are the modifiers by which it is presented.** -/
theorem tree_printable (s : Setting) : ∀ t : Tree Element,
    Makes (lower s t) View.Printable ∧ Makes (present s t) AllPrintableModifiers
  | .node e ts => by
    obtain ⟨hcontent, hnested⟩ := trees_printable s ts
    refine ⟨?_, presentation_printable hcontent hnested⟩
    exact (component_printable hcontent).bind fun base hbase => userModifiers_plain.bind
      fun user huser => hnested.bind fun hoisted hhoisted =>
        .ret ((hbase.modify huser.viewless.printable).modify hhoisted)

/-- `tree_printable` for the children of a node. -/
theorem trees_printable (s : Setting) : ∀ ts : List (Tree Element),
    Makes (lowerContent s ts) AllPrintable ∧ Makes (lowerPresented s ts) AllPrintableModifiers
  | [] => ⟨.ret (by simp [AllPrintable]), .ret (by simp [AllPrintableModifiers])⟩
  | t :: ts => by
    obtain ⟨hview, hpresented⟩ := tree_printable s t
    obtain ⟨hcontent, hnested⟩ := trees_printable s ts
    rw [lowerContent, lowerPresented]
    split
    · exact ⟨hcontent, hpresented.bind fun _ hown => hnested.bind fun _ hrest =>
        .ret (List.forall_mem_append.mpr ⟨hown, hrest⟩)⟩
    · exact ⟨hview.bind fun _ hfirst => hcontent.bind fun _ hrest =>
        .ret (List.forall_mem_cons.mpr ⟨hfirst, hrest⟩), hnested⟩

end

theorem lowerRoot_printable (s : Setting) (root : Tree Element) :
    Makes (lowerRoot s root) View.Printable := by
  unfold lowerRoot
  split
  · exact (tree_printable s root).2.bind fun _ hhoisted =>
      .ret (View.Printable.leaf.modify hhoisted)
  · exact (tree_printable s root).1

theorem finish_printable {screen : Screen} {body : View} {ledger : Ledger} {view : ScreenView}
    (h : body.Printable) (hfinish : s.finish screen body ledger = .ok view) :
    view.body.Printable := by
  rw [body_of_finish hfinish]
  refine h.modify (List.forall_mem_append.mpr ⟨(viewless_titleModifier screen).printable, ?_⟩)
  exact List.forall_mem_map.mpr fun sheet _ =>
    ViewModifier.printable_first (List.forall_mem_singleton.mpr .leaf)

end Setting

/-! ### Screens and the entry -/

theorem buildScreen_printable (cx : BuildContext) (screen : Screen) (tree : NormalTree) :
    Gives (buildScreen cx screen tree) fun view => view.body.Printable := by
  intro view hview
  obtain ⟨⟨bound, scope⟩, -, hview⟩ := bind_eq_ok.mp hview
  obtain ⟨⟨body, ledger⟩, hrun, hview⟩ := bind_eq_ok.mp hview
  have hbody := (Setting.lowerRoot_printable _ tree.root .empty body ledger trivial hrun).1
  exact Setting.finish_printable hbody hview

theorem printable_routedStack (viewType : String) : (routedStack viewType).Printable :=
  View.printable_ofContent (List.forall_mem_singleton.mpr (View.Printable.leaf.modify
    (List.forall_mem_singleton.mpr (ViewModifier.printable_first
      (List.forall_mem_singleton.mpr .leaf)))))

theorem printable_barTab (item : TabItem) (names : ScreenNames) :
    (barTab item names).Printable := by
  refine (printable_routedStack names.viewType).modify (List.forall_mem_cons.mpr ⟨?_, ?_⟩)
  · exact ViewModifier.printable_first (List.forall_mem_singleton.mpr .leaf)
  · exact (viewless_nil.cons rfl).printable

theorem rootView_printable (screens : ScreenIndex) (entry : ScreenNames) (tabs : List TabItem) :
    Gives (rootView screens entry tabs) fun found => found.1.Printable := by
  unfold rootView
  split
  · exact .ret (printable_routedStack _)
  · exact Gives.step fun named => .ret (View.printable_ofContent
      (List.forall_mem_map.mpr fun found _ => printable_barTab found.1 found.2))

theorem buildEntry_printable (app : AppDefinition) (tokens : DesignTokens) (screens : ScreenIndex)
    (types : List DataType) :
    Gives (buildEntry app tokens screens types) fun entry => entry.root.Printable :=
  Gives.step fun _ => (rootView_printable screens _ app.tabs).bind fun _ hroot =>
    Gives.step fun _ => .ret hroot

/-! ### Generated apps -/

/-- **Every view that is handed to the printer is printable, and the printer writes down all of
it.**  This holds of the view of each screen of a generated app and of the view that the app shows
first, at every depth of nesting. -/
theorem views_are_printable (app : AppDefinition) (catalog : Catalog) (config : GeneratorConfig)
    (out : GeneratedApp) (h : generate app catalog config = .ok out) :
    ∃ types trees views entry, Generate.Run app catalog config out types trees views entry ∧
      ∀ view ∈ entry.root :: views.map ScreenView.body, view.Printable ∧
        ∀ depth, view.Writes depth (view.lines depth) := by
  obtain ⟨types, trees, views, entry, hrun⟩ := Generate.exists_run h
  refine ⟨types, trees, views, entry, hrun, fun view hview => ?_⟩
  have hprintable : view.Printable := by
    rcases List.mem_cons.mp hview with rfl | hview
    · exact buildEntry_printable _ _ _ _ entry hrun.opening
    · obtain ⟨screen, hscreen, rfl⟩ := List.mem_map.mp hview
      obtain ⟨_, -, tree, -, hbuild⟩ := exists_of_forall₂ hrun.forall₂_screens screen hscreen
      exact buildScreen_printable _ _ _ screen hbuild
  exact ⟨hprintable, view.writes_lines hprintable⟩

/-- An app with tabs, whose first screen has a conditional under a modifier, a section between a
header and a footer, and an alert with a message. -/
def Generate.exhibit : AppDefinition where
  config := ⟨"Notes", "com.example.notes", "1.0.0", .standard, .standard, false, false⟩
  screens :=
    [⟨"home", "Home", none, [], [],
        .node ⟨"root", "List", [], [], []⟩
          [.node ⟨"works", "Section",
              [("header", .string "Works"), ("footer", .string "All of them")], [], []⟩
            [.node ⟨"gate", "Conditional", [], [⟨"condition", .state, "isReady"⟩],
                [⟨"padding", [.int 8]⟩]⟩
              [.node ⟨"ready", "Text", [("content", .string "Ready")], [], []⟩ [],
              .node ⟨"wait", "ProgressView", [], [], []⟩ []]],
          .node ⟨"sure", "Alert", [("title", .string "Clear?"), ("message", .string "For good.")],
            [⟨"isPresented", .state, "isAsking"⟩], []⟩ []]⟩,
      ⟨"about", "About", none, [], [],
        .node ⟨"body", "Text", [("content", .string "Notes")], [], []⟩ []⟩]
  models := []
  entryScreen := "home"
  tabBar := some [⟨"home", "Home", "house"⟩, ⟨"about", "About", "info"⟩]

/-- The exhibit is generated, and all of its views are printed. -/
theorem views_of_exhibit : ∃ out, generate Generate.exhibit Catalog.standard .standard = .ok out ∧
    ∃ types trees views entry,
      Generate.Run Generate.exhibit Catalog.standard .standard out types trees views entry ∧
      ∀ view ∈ entry.root :: views.map ScreenView.body, view.Printable ∧
        ∀ depth, view.Writes depth (view.lines depth) := by
  have haccepts : Generate.accepts Generate.exhibit .standard = true := by decide +kernel
  obtain ⟨out, hout⟩ := Generate.exists_generate_of_accepts haccepts
  exact ⟨out, hout, views_are_printable Generate.exhibit Catalog.standard .standard out hout⟩

end Screenwright
