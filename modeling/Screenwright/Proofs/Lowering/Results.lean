/-
What a lowering gives.

Lowering writes into a ledger, and what stands there can make it fail; but it never has a say in
what the lowering gives.  So a tree has one view, wherever among the others it is lowered, and that
view can be spoken of without the ledger: `CanGive` relates a lowering to what it gives from some
ledger or other, and `Settled` says that this is one thing only.
-/
import Screenwright.Lowering.Components
import Screenwright.Proofs.Lowering.Keeps

namespace Screenwright

open Steps Swift

/-- The lowering gives the value, from some ledger. -/
def CanGive {α : Type} (m : Build α) (a : α) : Prop :=
  ∃ before after, m.run before = .ok (a, after)

/-- The lowering gives one value at most, whatever ledger it starts from. -/
def Settled {α : Type} (m : Build α) : Prop :=
  ∀ a b, CanGive m a → CanGive m b → a = b

section Rules

variable {α β : Type} {m : Build α} {f : α → Build β} {a : α} {b : β}

namespace CanGive

theorem of_keeps {p : α → Prop} (hm : Keeps (fun _ => True) m p) (h : CanGive m a) : p a := by
  obtain ⟨before, after, hrun⟩ := h
  exact (hm before a after trivial hrun).1

theorem eq_of_pure {a' : α} (h : CanGive (pure a' : Build α) a) : a = a' :=
  h.of_keeps (p := (· = a')) (.ret rfl)

theorem eq_of_lift {x : Except BuildError α} (h : CanGive (liftM x : Build α) a) : x = .ok a :=
  h.of_keeps (p := (x = .ok ·)) (.lift fun _ hx => hx)

theorem exists_of_bind (h : CanGive (m >>= f) b) : ∃ a, CanGive m a ∧ CanGive (f a) b := by
  obtain ⟨before, after, hrun⟩ := h
  rw [StateT.run_bind] at hrun
  obtain ⟨⟨a, between⟩, hfirst, hrest⟩ := bind_eq_ok.mp hrun
  exact ⟨a, ⟨before, between, hfirst⟩, between, after, hrest⟩

theorem forall₂_of_mapM {xs : List α} :
    ∀ {ys : List β}, CanGive (xs.mapM f) ys → List.Forall₂ (fun x y => CanGive (f x) y) xs ys := by
  induction xs with
  | nil =>
      intro ys h
      rw [List.mapM_nil] at h
      rw [h.eq_of_pure]
      exact .nil
  | cons x xs ih =>
      intro ys h
      rw [List.mapM_cons] at h
      obtain ⟨y, hy, h⟩ := h.exists_of_bind
      obtain ⟨rest, hrest, h⟩ := h.exists_of_bind
      rw [h.eq_of_pure]
      exact .cons hy (ih hrest)

end CanGive

namespace Settled

theorem of_keeps {a : α} (h : Keeps (fun _ => True) m (· = a)) : Settled m :=
  fun _ _ h₁ h₂ => (h₁.of_keeps h).trans (h₂.of_keeps h).symm

theorem ret {a : α} : Settled (pure a : Build α) :=
  of_keeps (.ret rfl)

theorem lift {x : Except BuildError α} : Settled (liftM x : Build α) :=
  fun _ _ h₁ h₂ => Except.ok.inj (h₁.eq_of_lift.symm.trans h₂.eq_of_lift)

theorem error {e : BuildError} : Settled (throw e : Build α) :=
  fun _ _ ⟨_, _, h⟩ => by cases h

/-- Nothing to give. -/
theorem unit {m : Build Unit} : Settled m :=
  fun _ _ _ _ => rfl

theorem bind (hm : Settled m) (hf : ∀ a, Settled (f a)) : Settled (m >>= f) := by
  intro b b' h h'
  obtain ⟨a, ha, h⟩ := h.exists_of_bind
  obtain ⟨a', ha', h'⟩ := h'.exists_of_bind
  cases hm a a' ha ha'
  exact hf a b b' h h'

/-- `bind` behind a step that only reads. -/
theorem step {x : Except BuildError α} (hf : ∀ a, Settled (f a)) :
    Settled ((liftM x : Build α) >>= f) :=
  lift.bind hf

theorem mapM {xs : List α} (hf : ∀ x, Settled (f x)) : Settled (xs.mapM f) := by
  induction xs with
  | nil => exact ret
  | cons x xs ih =>
      rw [List.mapM_cons]
      exact (hf x).bind fun y => ih.bind fun ys => ret

/-- What a settled lowering gives is the value. -/
theorem canGive_iff (hm : Settled m) (h : CanGive m a) {a' : α} : CanGive m a' ↔ a' = a :=
  ⟨fun h' => hm a' a h' h, fun heq => heq ▸ h⟩

end Settled

end Rules

/-! ### Actions and modifiers -/

namespace Setting

variable {s : Setting} {node : String}

theorem customAction_settled {name : String} {args : Entries Json} :
    Settled (s.customAction node name args) := by
  refine .of_keeps (a := [.invoke name (args.filterMap handlerArg)]) ?_
  unfold customAction
  dsimp only
  split
  · refine Keeps.read fun ledger => ?_
    split
    · exact .error_bind
    · split
      · exact .error
      · exact Keeps.bind (p := fun _ => True) (fun _ _ _ h _ => ⟨trivial, h⟩) fun _ _ => .ret rfl
  · exact .error_bind

theorem action_settled (a : Action) : Settled (s.action node a) := by
  cases a with
  | navigate => exact .step fun _ => Settled.unit.bind fun _ => Settled.unit.bind fun _ => .ret
  | presentSheet => exact .step fun _ => Settled.unit.bind fun _ => Settled.unit.bind fun _ => .ret
  | dismiss => exact Settled.unit.bind fun _ => .ret
  | custom => exact customAction_settled

end Setting

theorem ModifierUse.triggered_settled {u : ModifierUse} {s : Setting} :
    Settled (u.triggered s) := by
  refine .step fun _ => ?_
  split
  · exact .error
  · exact (Setting.action_settled _).bind fun _ => .ret

theorem ModifierUse.lower_settled {u : ModifierUse} {s : Setting} : Settled (u.lower s) := by
  unfold lower
  split <;> first | exact .lift | exact triggered_settled

namespace Setting

variable {s : Setting} {e : Element} {content : Build (List View)}
  {nested : Build (List ViewModifier)}

theorem userModifiers_settled : Settled (s.userModifiers e) :=
  .mapM fun _ => ModifierUse.lower_settled

/-! ### Components -/

theorem navigationStack_settled (hcontent : Settled content) :
    Settled (s.navigationStack e content) := by
  refine hcontent.bind fun views => ?_
  dsimp only
  split <;> exact .ret

theorem navigationLink_settled (hcontent : Settled content) :
    Settled (s.navigationLink e content) := by
  refine .step fun _ => Settled.unit.bind fun _ => hcontent.bind fun views => ?_
  dsimp only
  split <;> exact .ret

theorem tab_settled {node : String} {item : TabItem} : Settled (s.tab node item) :=
  .step fun _ => Settled.unit.bind fun _ => .ret

theorem button_settled (hcontent : Settled content) : Settled (s.button e content) := by
  unfold button
  split
  · exact (action_settled _).bind fun _ => hcontent.bind fun _ => .step fun _ => .ret
  · exact Settled.ret.bind fun _ => hcontent.bind fun _ => .step fun _ => .ret

theorem component_settled (hcontent : Settled content) : Settled (s.component e content) := by
  unfold component
  cases e.kind with
  | vStack => exact .step fun _ => hcontent.bind fun _ => .ret
  | hStack => exact .step fun _ => hcontent.bind fun _ => .ret
  | grid => exact .step fun _ => hcontent.bind fun _ => .ret
  | card =>
      exact .step fun _ => .step fun _ => .step fun _ => .step fun _ => .step fun _ =>
        hcontent.bind fun _ => .ret
  | zStack => exact hcontent.bind fun _ => .ret
  | scrollView => exact hcontent.bind fun _ => .ret
  | list => exact hcontent.bind fun _ => .ret
  | «section» => exact hcontent.bind fun _ => .ret
  | form => exact hcontent.bind fun _ => .ret
  | conditional => exact hcontent.bind fun _ => .ret
  | menu => exact hcontent.bind fun _ => .ret
  | navigationStack => exact navigationStack_settled hcontent
  | navigationLink => exact navigationLink_settled hcontent
  | button => exact button_settled hcontent
  | tabView => exact (Settled.mapM fun _ => tab_settled).bind fun _ => .ret
  | spacer => exact .step fun _ => .ret
  | text => exact .step fun _ => .step fun _ => .ret
  | image => exact .step fun _ => .ret
  | _ => exact .ret

/-! ### Presentations -/

theorem cover_settled {name : String} (hcontent : Settled content) (hnested : Settled nested) :
    Settled (s.cover e name content nested) :=
  hcontent.bind fun _ => userModifiers_settled.bind fun _ => hnested.bind fun _ => .ret

theorem actionButton_settled {node : String} {item : ActionItem} :
    Settled (s.actionButton node item) := by
  unfold actionButton
  split
  · exact (action_settled _).bind fun _ => .ret
  · exact Settled.ret.bind fun _ => .ret

theorem dialog_settled {name : String} {extra : List Arg} : Settled (s.dialog e name extra) :=
  .step fun _ => (Settled.mapM fun _ => actionButton_settled).bind fun _ => .ret

theorem toolbar_settled (hcontent : Settled content) (hnested : Settled nested) :
    Settled (toolbar e content nested) :=
  .step fun _ => hcontent.bind fun _ => hnested.bind fun _ => .ret

theorem presentation_settled (hcontent : Settled content) (hnested : Settled nested) :
    Settled (s.presentation e content nested) := by
  unfold presentation
  cases e.kind with
  | sheet => exact cover_settled hcontent hnested
  | fullScreenCover => exact cover_settled hcontent hnested
  | alert => exact dialog_settled
  | confirmationDialog => exact dialog_settled
  | toolbar => exact toolbar_settled hcontent hnested
  | _ => exact .error

/-! ### Trees -/

mutual

/-- **A tree has one view, and it is presented in one way.** -/
theorem tree_settled (s : Setting) : ∀ t : Tree Element,
    Settled (lower s t) ∧ Settled (present s t)
  | .node e ts => by
    obtain ⟨hcontent, hpresented⟩ := trees_settled s ts
    exact ⟨(component_settled hcontent).bind fun _ => userModifiers_settled.bind fun _ =>
      hpresented.bind fun _ => .ret, presentation_settled hcontent hpresented⟩

/-- `tree_settled` for the children of a node. -/
theorem trees_settled (s : Setting) : ∀ ts : List (Tree Element),
    Settled (lowerContent s ts) ∧ Settled (lowerPresented s ts)
  | [] => ⟨.ret, .ret⟩
  | t :: ts => by
    obtain ⟨hview, hpresentation⟩ := tree_settled s t
    obtain ⟨hcontent, hpresented⟩ := trees_settled s ts
    rw [lowerContent, lowerPresented]
    split
    · exact ⟨hcontent, hpresentation.bind fun _ => hpresented.bind fun _ => .ret⟩
    · exact ⟨hview.bind fun _ => hcontent.bind fun _ => .ret, hpresented⟩

end

end Setting

end Screenwright
