/-
Components that have passed their checks are lowered.

A component makes the uses of its properties, and hands its content on.  Most kinds have
no property that makes a use; five kinds have one, and `loudProp?` names it.  What the
checks promise of a property, its kind and that a needed one is there, is what keeps
every reader of properties from failing.
-/
import Screenwright.Proofs.Lowering.Modifiers
import Screenwright.Proofs.Normal

namespace Screenwright

open Steps

/-! ### Properties that make uses -/

/-- Whether values of the kind make no uses. -/
def PropKind.isQuiet : PropKind → Bool
  | action | actions | screen | tabs => false
  | _ => true

theorem PropKind.uses_of_isQuiet {kind : PropKind} {value : PropValue} (node : String)
    (hquiet : kind.isQuiet = true) (hfits : kind.fits value = true) : value.uses node = [] := by
  cases kind <;> cases value <;> simp_all [isQuiet, fits, PropValue.uses, PropValue.heldActions]

namespace Catalog

/-- The property of a component that makes uses, if it has one. -/
def loudProp? : ComponentKind → Option String
  | .button => some "action"
  | .navigationLink => some "target"
  | .tabView => some "tabs"
  | .alert => some "actions"
  | .confirmationDialog => some "actions"
  | _ => none

theorem isQuiet_or_loud : ∀ schema ∈ standardSchemas, ∀ p ∈ schema.info.props,
    p.kind.isQuiet = true ∨ loudProp? schema.info.kind = some p.name := by
  decide

end Catalog

namespace Element.Checked

variable {e : Element} {info : ComponentMeta} {name : String}

theorem uses_of_not_loud (h : e.Checked info) :
    ∀ entry ∈ e.props, Catalog.loudProp? e.kind ≠ some entry.1 → entry.2.uses e.id = [] := by
  intro entry hentry hne
  obtain ⟨schema, hschema, hfits⟩ := h.props.fits entry hentry
  obtain ⟨standard, hmem, rfl, hkind⟩ := Catalog.mem_of_metaOf? h.kind
  have hname : schema.name = entry.1 := by simpa using List.find?_some hschema
  rcases Catalog.isQuiet_or_loud standard hmem schema (List.mem_of_find?_eq_some hschema) with
    hquiet | hloud
  · exact PropKind.uses_of_isQuiet e.id hquiet hfits
  · rw [hkind, hname] at hloud
    exact absurd hloud hne

theorem propUses_eq_nil (h : e.Checked info) (hloud : Catalog.loudProp? e.kind = none) :
    e.propUses = [] := by
  refine List.flatMap_eq_nil_iff.mpr fun entry hentry => ?_
  exact h.uses_of_not_loud entry hentry (by simp [hloud])

theorem propUses_eq (h : e.Checked info) (name : String)
    (hloud : Catalog.loudProp? e.kind = some name) :
    e.propUses = (e.prop? name).elim [] (PropValue.uses e.id) := by
  refine Entries.flatMap_eq_lookup (f := PropValue.uses e.id) h.props.nodup ?_
  intro entry hentry hne
  refine h.uses_of_not_loud entry hentry ?_
  rw [hloud]
  exact fun heq => hne (Option.some.inj heq).symm

/-- A token property stands for what its slot stands for. -/
theorem tokenProp_eq_ok {α : Type} {resolve : String → TokenRef → Except BuildError α}
    (h : e.Checked info) {kind : TokenKind}
    (hkind : Catalog.kindOf? e.kind name = some (.token kind))
    (hresolve : ∀ slot, kind.accepts slot = true → ∃ a, resolve e.id ⟨kind, slot⟩ = .ok a) :
    ∃ a, Setting.tokenProp resolve e name = .ok a := by
  unfold Setting.tokenProp
  cases href : e.token? name with
  | none => exact ⟨none, rfl⟩
  | some ref =>
      obtain ⟨value, hvalue, htoken⟩ := Option.bind_eq_some_iff.mp href
      have hfits := h.fits_of_prop? hvalue _ hkind
      cases value with
      | token ref' =>
          cases htoken
          simp only [PropKind.fits, Bool.and_eq_true, decide_eq_true_eq] at hfits
          obtain ⟨k, slot⟩ := ref
          obtain ⟨rfl, haccepts⟩ := hfits
          obtain ⟨a, ha⟩ := hresolve slot haccepts
          exact ⟨some a, by simp only [ha]; rfl⟩
      | _ => cases htoken

end Element.Checked

namespace Setting

variable {s : Setting} {e : Element} {info : ComponentMeta} {name : String}

/-- What a token property stands for is what its token stands for. -/
theorem tokenProp_gives {α : Type} {resolve : String → TokenRef → Except BuildError α}
    {p : α → Prop} (h : ∀ ref, Gives (resolve e.id ref) p) :
    Gives (tokenProp resolve e name) fun found => ∀ a, found = some a → p a := by
  unfold tokenProp
  split
  next ref href =>
    intro found hfound
    obtain ⟨a, ha, rfl⟩ := map_eq_ok.mp hfound
    rintro _ ⟨⟩
    exact h ref a ha
  · exact .ret (by simp)

theorem length?_eq_ok (hready : s.Ready) (h : e.Checked info) (kind : TokenKind)
    (hkind : Catalog.kindOf? e.kind name = some (.token kind)) (hlength : kind.isLength = true) :
    ∃ x, s.length? e name = .ok x :=
  h.tokenProp_eq_ok hkind fun _ haccepts => dimension_eq_ok _ hready hlength haccepts

theorem color?_eq_ok (hready : s.Ready) (h : e.Checked info)
    (hkind : Catalog.kindOf? e.kind name = some (.token .color)) :
    ∃ v, s.color? e name = .ok v :=
  h.tokenProp_eq_ok hkind fun _ haccepts => color_eq_ok _ hready haccepts

theorem font?_eq_ok (hready : s.Ready) (h : e.Checked info)
    (hkind : Catalog.kindOf? e.kind name = some (.token .font)) :
    ∃ v, s.font? e name = .ok v :=
  h.tokenProp_eq_ok hkind fun _ haccepts => font_eq_ok _ hready haccepts

theorem shadow?_eq_ok (hready : s.Ready) (h : e.Checked info)
    (hkind : Catalog.kindOf? e.kind name = some (.token .shadow)) :
    ∃ m, s.shadow? e name = .ok m :=
  h.tokenProp_eq_ok hkind fun _ haccepts => shadow_eq_ok _ hready haccepts

/-! ### Layout -/

section Kinds

variable {φ : String → HandlerParams} {content : Build (List Swift.View)} {uses : List Use}

theorem lowers_stack {kind : Swift.ContainerKind} (hcontent : Lowers s φ content uses)
    (hspacing : ∃ x, s.length? e "spacing" = .ok x) :
    Lowers s φ (s.stack e kind content) uses :=
  .bind_quiet (.lift hspacing) fun _ => hcontent.bind_ret

theorem lowers_grid (hcontent : Lowers s φ content uses)
    (hspacing : ∃ x, s.length? e "spacing" = .ok x) : Lowers s φ (s.grid e content) uses :=
  .bind_quiet (.lift hspacing) fun _ => hcontent.bind_ret

theorem lowers_spacer (hlength : ∃ x, s.length? e "minLength" = .ok x) :
    Lowers s φ (s.spacer e) [] :=
  .bind_quiet (.lift hlength) fun _ => .ret _

/-! ### Navigation -/

theorem lowers_navigationStack (hcontent : Lowers s φ content uses) :
    Lowers s φ (s.navigationStack e content) uses := by
  refine hcontent.bind_of_quiet fun views => ?_
  dsimp only
  split
  · exact .ret _
  · exact .ret _

theorem lowers_navigationLink {target : String} (htarget : e.text? "target" = some target)
    (hfine : s.Fine φ (.link e.id target)) (hcontent : Lowers s φ content uses) :
    Lowers s φ (s.navigationLink e content) (.link e.id target :: uses) := by
  unfold navigationLink
  rw [htarget]
  refine .bind_quiet (.lift (target_eq_ok hfine)) fun names => ?_
  have hedge : Lowers s φ (s.addEdge e.id target .push) [.link e.id target] :=
    lowers_addEdge hfine fun _ => rfl
  refine hedge.bind fun _ => hcontent.bind_of_quiet fun views => ?_
  dsimp only
  split
  · exact .ret _
  · exact .ret _

theorem lowers_tab {node : String} {item : TabItem} (hfine : s.Fine φ (.tab node item.screen)) :
    Lowers s φ (s.tab node item) [.tab node item.screen] := by
  refine .bind_quiet (.lift (target_eq_ok hfine)) fun names => ?_
  have hedge : Lowers s φ (s.addEdge node item.screen .tab) [.tab node item.screen] :=
    lowers_addEdge hfine fun _ => rfl
  exact hedge.bind_ret

theorem lowers_tabView {items : List TabItem} (hitems : e.prop? "tabs" = some (.tabs items))
    (hfine : ∀ item ∈ items, s.Fine φ (.tab e.id item.screen)) :
    Lowers s φ (s.tabView e) (items.map fun item => .tab e.id item.screen) := by
  unfold tabView
  rw [hitems]
  have hall := Lowers.mapM fun item hitem => lowers_tab (hfine item hitem)
  rw [← List.map_eq_flatMap] at hall
  exact hall.bind_ret

/-! ### Primitives and patterns -/

theorem lowers_textView (hfont : ∃ v, s.font? e "font" = .ok v)
    (hcolor : ∃ v, s.color? e "color" = .ok v) : Lowers s φ (s.textView e) [] :=
  .bind_quiet (.lift hfont) fun _ => .bind_quiet (.lift hcolor) fun _ => .ret _

theorem lowers_image (hcolor : ∃ v, s.color? e "color" = .ok v) :
    Lowers s φ (s.image e) [] :=
  .bind_quiet (.lift hcolor) fun _ => .ret _

/-- The action of a button may be absent; if it is there, it is the only use. -/
theorem action_of_button (h : e.Checked info) (hkind : e.kind = .button) :
    (e.prop? "action" = none ∧ e.propUses = []) ∨
      ∃ a, e.prop? "action" = some (.action a) ∧ e.propUses = [.action e.id a] := by
  have huses := h.propUses_eq "action" (by rw [hkind]; rfl)
  cases hprop : e.prop? "action" with
  | none =>
      rw [hprop] at huses
      exact Or.inl ⟨rfl, huses⟩
  | some value =>
      have hfits := h.fits_of_prop? hprop .action (by rw [hkind]; rfl)
      rw [hprop] at huses
      cases value with
      | action a => exact Or.inr ⟨a, rfl, huses⟩
      | _ => cases hfits

theorem lowers_button (hready : s.Ready) (hcontent : Lowers s φ content uses)
    (h : e.Checked info) (hkind : e.kind = .button) (hfine : ∀ use ∈ e.propUses, s.Fine φ use) :
    Lowers s φ (s.button e content) (e.propUses ++ uses) := by
  have htint : ∃ v, s.color? e "tint" = .ok v :=
    color?_eq_ok hready h (by rw [hkind]; rfl)
  unfold button
  rcases action_of_button h hkind with ⟨hprop, huses⟩ | ⟨a, hprop, huses⟩
  · rw [hprop, huses]
    refine .bind_quiet (.ret []) fun body => ?_
    exact hcontent.bind_of_quiet fun views => .bind_quiet (.lift htint) fun _ => .ret _
  · rw [huses] at hfine
    rw [hprop, huses]
    refine (lowers_action (hfine (.action e.id a) List.mem_cons_self)).bind fun body => ?_
    exact hcontent.bind_of_quiet fun views => .bind_quiet (.lift htint) fun _ => .ret _

theorem lowers_card (hready : s.Ready) (hcontent : Lowers s φ content uses) (h : e.Checked info)
    (hkind : e.kind = .card) : Lowers s φ (s.card e content) uses := by
  refine .bind_quiet (.lift (length?_eq_ok hready h .spacing ?_ rfl)) fun _ => ?_
  · rw [hkind]; rfl
  refine .bind_quiet (.lift (length?_eq_ok hready h .spacing ?_ rfl)) fun _ => ?_
  · rw [hkind]; rfl
  refine .bind_quiet (.lift (length?_eq_ok hready h .radius ?_ rfl)) fun _ => ?_
  · rw [hkind]; rfl
  refine .bind_quiet (.lift (color?_eq_ok hready h ?_)) fun _ => ?_
  · rw [hkind]; rfl
  refine .bind_quiet (.lift (shadow?_eq_ok hready h ?_)) fun _ => ?_
  · rw [hkind]; rfl
  exact hcontent.bind_ret

/-! ### All components -/

theorem lowers_component_navigationLink (hcontent : Lowers s φ content uses) (h : e.Checked info)
    (hkind : e.kind = .navigationLink) (hfine : ∀ use ∈ e.propUses, s.Fine φ use) :
    Lowers s φ (s.navigationLink e content) (e.propUses ++ uses) := by
  have huses := h.propUses_eq "target" (by rw [hkind]; rfl)
  obtain ⟨value, hprop⟩ := h.exists_prop?_of_needed "target" (by rw [hkind]; rfl)
  have hfits := h.fits_of_prop? hprop .screen (by rw [hkind]; rfl)
  rw [hprop] at huses
  cases value with
  | screen id =>
      rw [huses] at hfine ⊢
      refine lowers_navigationLink ?_ (hfine (.link e.id id) List.mem_cons_self) hcontent
      rw [Element.text?, hprop]
      rfl
  | _ => cases hfits

theorem lowers_component_tabView (h : e.Checked info) (hkind : e.kind = .tabView)
    (hfine : ∀ use ∈ e.propUses, s.Fine φ use) : Lowers s φ (s.tabView e) e.propUses := by
  have huses := h.propUses_eq "tabs" (by rw [hkind]; rfl)
  obtain ⟨value, hprop⟩ := h.exists_prop?_of_needed "tabs" (by rw [hkind]; rfl)
  have hfits := h.fits_of_prop? hprop .tabs (by rw [hkind]; rfl)
  rw [hprop] at huses
  cases value with
  | tabs items =>
      rw [huses] at hfine ⊢
      exact lowers_tabView hprop fun item hitem => hfine _ (List.mem_map.mpr ⟨item, hitem, rfl⟩)
  | _ => cases hfits

/-- **A checked component that stands in content is lowered: its uses are those of its
properties and those of its content.** -/
theorem lowers_component (hready : s.Ready) (h : e.Checked info)
    (hcontent : Lowers s φ content uses) (hnone : info.children = .none → uses = [])
    (hfine : ∀ use ∈ e.propUses, s.Fine φ use) (hview : e.kind.isPresentation = false) :
    Lowers s φ (s.component e content) (e.propUses ++ uses) := by
  have hquiet : ∀ {kind : ComponentKind}, e.kind = kind → Catalog.loudProp? kind = none →
      ∀ {m : Build Swift.View}, Lowers s φ m uses → Lowers s φ m (e.propUses ++ uses) := by
    intro kind hkind hloud m hm
    rwa [h.propUses_eq_nil (hkind ▸ hloud)]
  -- Components without children have no content to lower.
  have hempty : ∀ {kind : ComponentKind}, e.kind = kind →
      Catalog.childrenOf? kind = some .none → uses = [] :=
    fun hkind hchildren => hnone (h.children_eq (hkind ▸ hchildren))
  have hleaf : ∀ {kind : ComponentKind}, e.kind = kind → Catalog.loudProp? kind = none →
      Catalog.childrenOf? kind = some .none →
      ∀ {m : Build Swift.View}, Lowers s φ m [] → Lowers s φ m (e.propUses ++ uses) := by
    intro kind hkind hloud hchildren m hm
    rw [hempty hkind hchildren] at hquiet ⊢
    exact hquiet hkind hloud hm
  have hlength : ∀ {kind : ComponentKind} {name : String}, e.kind = kind →
      Catalog.kindOf? kind name = some (.token .spacing) → ∃ x, s.length? e name = .ok x :=
    fun hkind hspacing => length?_eq_ok hready h .spacing (hkind ▸ hspacing) rfl
  unfold component
  cases hkind : e.kind with
  | vStack => exact hquiet hkind rfl (lowers_stack hcontent (hlength hkind rfl))
  | hStack => exact hquiet hkind rfl (lowers_stack hcontent (hlength hkind rfl))
  | zStack => exact hquiet hkind rfl (hcontent.bind_ret)
  | scrollView => exact hquiet hkind rfl (hcontent.bind_ret)
  | grid => exact hquiet hkind rfl (lowers_grid hcontent (hlength hkind rfl))
  | list => exact hquiet hkind rfl (hcontent.bind_ret)
  | «section» => exact hquiet hkind rfl (hcontent.bind_ret)
  | form => exact hquiet hkind rfl (hcontent.bind_ret)
  | spacer => exact hleaf hkind rfl rfl (lowers_spacer (hlength hkind rfl))
  | divider => exact hleaf hkind rfl rfl (.ret _)
  | conditional => exact hquiet hkind rfl (hcontent.bind_ret)
  | navigationStack => exact hquiet hkind rfl (lowers_navigationStack hcontent)
  | navigationLink => exact lowers_component_navigationLink hcontent h hkind hfine
  | tabView =>
      rw [hempty hkind rfl, List.append_nil]
      exact lowers_component_tabView h hkind hfine
  | menu => exact hquiet hkind rfl (hcontent.bind_ret)
  | text =>
      refine hleaf hkind rfl rfl (lowers_textView ?_ ?_)
      · exact font?_eq_ok hready h (by rw [hkind]; rfl)
      · exact color?_eq_ok hready h (by rw [hkind]; rfl)
  | label => exact hleaf hkind rfl rfl (.ret _)
  | image =>
      refine hleaf hkind rfl rfl (lowers_image (color?_eq_ok hready h ?_))
      rw [hkind]; rfl
  | button => exact lowers_button hready hcontent h hkind hfine
  | toggle => exact hleaf hkind rfl rfl (.ret _)
  | picker => exact hleaf hkind rfl rfl (.ret _)
  | slider => exact hleaf hkind rfl rfl (.ret _)
  | stepper => exact hleaf hkind rfl rfl (.ret _)
  | textField => exact hleaf hkind rfl rfl (.ret _)
  | secureField => exact hleaf hkind rfl rfl (.ret _)
  | progressView => exact hleaf hkind rfl rfl (.ret _)
  | card => exact hquiet hkind rfl (lowers_card hready hcontent h hkind)
  | emptyState => exact hleaf hkind rfl rfl (.ret _)
  | sheet | fullScreenCover | alert | confirmationDialog | toolbar =>
      simp [hkind, ComponentKind.isPresentation] at hview

/-! ### Presentations -/

variable {nested : Build (List Swift.ViewModifier)} {more : List Use}

theorem rejectModifiers_eq_ok (h : e.Checked info) (haccepts : e.kind.acceptsModifiers = false) :
    rejectModifiers e = .ok () := by
  rw [rejectModifiers, h.modifiers_eq_nil haccepts]

theorem lowers_cover {label : String} (hcontent : Lowers s φ content uses)
    (huser : Lowers s φ (s.userModifiers e) e.modifierUses) (hnested : Lowers s φ nested more) :
    Lowers s φ (s.cover e label content nested) (uses ++ (e.modifierUses ++ more)) :=
  hcontent.bind fun _ => huser.bind fun _ => hnested.bind_ret

theorem lowers_actionButton {node : String} {item : ActionItem}
    (hfine : ∀ a, item.action = some a → s.FineAction φ a) :
    Lowers s φ (s.actionButton node item) (item.action.toList.map (.action node)) := by
  unfold actionButton
  cases haction : item.action with
  | none => exact .bind_quiet (.ret []) fun _ => .ret _
  | some a => exact (lowers_action (hfine a haction)).bind_ret

theorem lowers_dialog {label : String} {extra : List Swift.Arg} (h : e.Checked info)
    (haccepts : e.kind.acceptsModifiers = false)
    (hloud : Catalog.loudProp? e.kind = some "actions")
    (hkind : Catalog.kindOf? e.kind "actions" = some .actions)
    (hfine : ∀ use ∈ e.propUses, s.Fine φ use) :
    Lowers s φ (s.dialog e label extra) e.propUses := by
  refine .bind_quiet (.lift ⟨(), rejectModifiers_eq_ok h haccepts⟩) fun _ => ?_
  have huses := h.propUses_eq _ hloud
  cases hprop : e.prop? "actions" with
  | none =>
      rw [hprop] at huses
      rw [huses]
      exact .bind_quiet (.ret []) fun _ => .ret _
  | some value =>
      have hfits := h.fits_of_prop? hprop _ hkind
      rw [hprop] at huses
      cases value with
      | actions items =>
          have hitems : e.propUses =
              items.flatMap fun item => item.action.toList.map (.action e.id) := by
            rw [huses, Option.elim_some, ← List.map_flatMap, ← List.filterMap_eq_flatMap_toList]
            rfl
          rw [hitems] at hfine ⊢
          refine Lowers.bind_ret (.mapM fun item hitem => lowers_actionButton fun a ha => ?_)
          exact hfine (.action e.id a) (List.mem_flatMap.mpr ⟨item, hitem, by simp [ha]⟩)
      | _ => cases hfits

theorem lowers_toolbar (h : e.Checked info) (hkind : e.kind = .toolbar)
    (hcontent : Lowers s φ content uses) (hnested : Lowers s φ nested more) :
    Lowers s φ (toolbar e content nested) (uses ++ more) := by
  refine .bind_quiet (.lift ⟨(), rejectModifiers_eq_ok h (by rw [hkind]; rfl)⟩) fun _ => ?_
  exact hcontent.bind fun _ => hnested.bind_ret

/-- **A checked component that is presented is lowered: its uses are its own, those of its
content and those of what is presented from inside it.** -/
theorem lowers_presentation (h : e.Checked info) (hcontent : Lowers s φ content uses)
    (huser : Lowers s φ (s.userModifiers e) e.modifierUses) (hnested : Lowers s φ nested more)
    (hnone : info.children = .none → uses = [] ∧ more = [])
    (hfine : ∀ use ∈ e.propUses, s.Fine φ use) (hpresented : e.kind.isPresentation = true) :
    Lowers s φ (s.presentation e content nested) (e.uses ++ (uses ++ more)) := by
  have hcover : Catalog.loudProp? e.kind = none →
      (uses ++ (e.modifierUses ++ more)).Perm (e.uses ++ (uses ++ more)) := by
    intro hloud
    rw [Element.uses, h.propUses_eq_nil hloud, List.nil_append, ← List.append_assoc,
      ← List.append_assoc]
    exact List.perm_append_comm.append_right more
  -- Dialogs and toolbars have no modifiers, and dialogs have no children either.
  have hplain : e.kind.acceptsModifiers = false → e.uses = e.propUses := by
    intro haccepts
    rw [Element.uses, Element.modifierUses, h.modifiers_eq_nil haccepts]
    exact List.append_nil _
  have hdialog : ∀ {label : String} {extra : List Swift.Arg},
      e.kind.acceptsModifiers = false → Catalog.loudProp? e.kind = some "actions" →
      Catalog.kindOf? e.kind "actions" = some .actions →
      Catalog.childrenOf? e.kind = some .none →
      Lowers s φ (s.dialog e label extra) (e.uses ++ (uses ++ more)) := by
    intro label extra haccepts hloud hkind hchildren
    obtain ⟨rfl, rfl⟩ := hnone (h.children_eq hchildren)
    rw [hplain haccepts, List.append_nil, List.append_nil]
    exact lowers_dialog h haccepts hloud hkind hfine
  unfold presentation
  cases hkind : e.kind with
  | sheet => exact (lowers_cover hcontent huser hnested).perm (hcover (by rw [hkind]; rfl))
  | fullScreenCover =>
      exact (lowers_cover hcontent huser hnested).perm (hcover (by rw [hkind]; rfl))
  | alert =>
      exact hdialog (by rw [hkind]; rfl) (by rw [hkind]; rfl) (by rw [hkind]; rfl)
        (by rw [hkind]; rfl)
  | confirmationDialog =>
      exact hdialog (by rw [hkind]; rfl) (by rw [hkind]; rfl) (by rw [hkind]; rfl)
        (by rw [hkind]; rfl)
  | toolbar =>
      rw [hplain (by rw [hkind]; rfl), h.propUses_eq_nil (by rw [hkind]; rfl), List.nil_append]
      exact lowers_toolbar h hkind hcontent hnested
  | _ => simp [hkind, ComponentKind.isPresentation] at hpresented

end Kinds

end Setting

end Screenwright
