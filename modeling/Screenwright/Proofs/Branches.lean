/-
The branches of a conditional.

A conditional has one or two children, and the first two views of its content are its branches.
Presentations are no content: they are hung on the conditional from outside, and a child that
stands behind one moves up.  So a second child that is content changes over to the first branch if
the first child is a presentation (`Crossed`), and in no other case does a child leave its branch.
-/
import Screenwright.Proofs.Composition

namespace Screenwright

open Steps Swift

/-- A presentation stands in front of content. -/
def Tree.Crossed (t₁ t₂ : Tree Element) : Prop :=
  t₁.value.kind.isPresentation = true ∧ t₂.value.kind.isPresentation = false

namespace Setting

open Screenwright.Tree

/-- Each branch has the view of the child that was declared for it and no other one; for a
presentation it is empty. -/
structure KeepsBranches (s : Setting) (t₁ t₂ : Tree Element) (yes no : List View) : Prop where
  yes : s.Shown [t₁] yes
  no : s.Shown [t₂] no

variable {s : Setting} {e : Element} {ts : List (Tree Element)} {t t₁ t₂ : Tree Element}

theorem shown_nil_iff {views : List View} : s.Shown [] views ↔ views = [] :=
  List.forall₂_nil_left_iff

/-- Content has one view, and it stands in front of the others. -/
theorem shown_cons_of_content (h : t.value.kind.isPresentation = false) {views : List View} :
    s.Shown (t :: ts) views ↔
      ∃ view rest, CanGive (lower s t) view ∧ s.Shown ts rest ∧ views = view :: rest := by
  have hcontents : contents (t :: ts) = t :: contents ts :=
    List.filter_cons_of_pos (by simp [h])
  rw [Shown, hcontents, List.forall₂_cons_left_iff]

/-- A presentation has no view. -/
theorem shown_cons_of_presentation (h : t.value.kind.isPresentation = true) {views : List View} :
    s.Shown (t :: ts) views ↔ s.Shown ts views := by
  have hcontents : contents (t :: ts) = contents ts :=
    List.filter_cons_of_neg (by simp [h])
  rw [Shown, hcontents]

/-- The views of a conditional's content are its branches. -/
theorem exists_of_conditional {view : View} (hkind : e.kind = .conditional)
    (h : CanGive (lower s (.node e ts)) view) :
    ∃ condition views, s.Shown ts views ∧
      view.core = .conditional condition (views.take 1) (views.drop 1) := by
  obtain ⟨base, hbase, -, hcomposed⟩ := exists_of_lower h
  have hcomponent : s.component e (s.lowerContent ts) = s.conditional e (s.lowerContent ts) := by
    rw [component, hkind]
  rw [hcomponent] at hbase
  obtain ⟨views, hviews, hbase⟩ := hbase.exists_of_bind
  refine ⟨(s.read? e "condition").getD (.bool false), views, shown_of_lowerContent hviews, ?_⟩
  rw [hcomposed.core, hbase.eq_of_pure]
  rfl

/-- Content behind a presentation moves up. -/
theorem moves_of_crossed {views : List View} (hcrossed : Crossed t₁ t₂)
    (h : s.Shown [t₁, t₂] views) : s.Shown [t₂] (views.take 1) ∧ views.drop 1 = [] := by
  obtain ⟨hfirst, hsecond⟩ := hcrossed
  rw [shown_cons_of_presentation hfirst] at h
  obtain ⟨view, _, -, hnil, rfl⟩ := (shown_cons_of_content hsecond).mp h
  rw [shown_nil_iff.mp hnil] at h ⊢
  exact ⟨h, rfl⟩

/-- **The children of a conditional keep their branches, unless a presentation stands in front of
content.** -/
theorem keepsBranches_iff {views : List View} (h : s.Shown [t₁, t₂] views) :
    s.KeepsBranches t₁ t₂ (views.take 1) (views.drop 1) ↔ ¬ Crossed t₁ t₂ := by
  constructor
  · rintro ⟨hyes, -⟩ ⟨hfirst, hsecond⟩
    rw [shown_cons_of_presentation hfirst] at h hyes
    obtain ⟨view, rest, -, -, rfl⟩ := (shown_cons_of_content hsecond).mp h
    cases shown_nil_iff.mp hyes
  · intro hcrossed
    cases hfirst : t₁.value.kind.isPresentation with
    | true =>
        -- the second child is a presentation too
        have hsecond : t₂.value.kind.isPresentation = true := by
          by_contra hsecond
          exact hcrossed ⟨hfirst, by simpa using hsecond⟩
        rw [shown_cons_of_presentation hfirst, shown_cons_of_presentation hsecond,
          shown_nil_iff] at h
        rw [h]
        exact ⟨(shown_cons_of_presentation hfirst).mpr .nil,
          (shown_cons_of_presentation hsecond).mpr .nil⟩
    | false =>
        obtain ⟨view, rest, hview, hrest, rfl⟩ := (shown_cons_of_content hfirst).mp h
        exact ⟨(shown_cons_of_content hfirst).mpr ⟨view, [], hview, .nil, rfl⟩, hrest⟩

end Setting

/-- **When the branches of a conditional are kept.**  In an accepted app, a conditional with two
children has a branch for each of them with its view and no other, empty for a presentation,
exactly if not the first one is a presentation and the second one content; that one then stands in
the branch of the first. -/
theorem branches_are_kept_iff (app : AppDefinition) (config : GeneratorConfig) (out : GeneratedApp)
    (h : generate app Catalog.standard config = .ok out) :
    ∀ screen ∈ app.screens, ∃ tree view s order body,
      normalize screen.root Catalog.standard config.limits = .ok tree ∧
      Built app screen tree view s order body ∧
      ∀ e t₁ t₂, e.kind = .conditional → Tree.node e [t₁, t₂] ∈ tree.root.subtrees →
        ∃ view condition yes no, s.HasView (.node e [t₁, t₂]) view ∧
          view.core = .conditional condition yes no ∧
          (s.KeepsBranches t₁ t₂ yes no ↔ ¬ Tree.Crossed t₁ t₂) ∧
          (Tree.Crossed t₁ t₂ → s.Shown [t₂] yes ∧ no = []) := by
  intro screen hscreen
  obtain ⟨types, trees, haccepted⟩ := Generate.exists_accepted h
  obtain ⟨tree, view, s, order, body, hnormal, hbuilt, hlowered⟩ :=
    haccepted.exists_lowered hscreen
  refine ⟨tree, view, s, order, body, hnormal, hbuilt, fun e t₁ t₂ hkind ht => ?_⟩
  obtain ⟨view, hview⟩ := (hlowered _ ht).view (by rw [Tree.value, hkind]; rfl)
  obtain ⟨condition, views, hshown, hcore⟩ := Setting.exists_of_conditional hkind hview.canGive
  exact ⟨view, condition, _, _, hview, hcore, Setting.keepsBranches_iff hshown,
    fun hcrossed => Setting.moves_of_crossed hcrossed hshown⟩

/-- An app whose screen has a sheet for the one branch of a conditional and a text for the other. -/
def Generate.gate : AppDefinition where
  config := ⟨"Notes", "com.example.notes", "1.0.0", .standard, .standard, false, false⟩
  screens :=
    [⟨"home", "Home", none, [], [],
        .node ⟨"gate", "Conditional", [], [⟨"condition", .state, "isReady"⟩], []⟩
          [.node ⟨"shown", "Sheet", [], [⟨"isPresented", .state, "isShown"⟩], []⟩
            [.node ⟨"inside", "Text", [("content", .string "Inside")], [], []⟩ []],
          .node ⟨"other", "Text", [("content", .string "Other")], [], []⟩ []]⟩]
  models := []
  entryScreen := "home"
  tabBar := none

/-- The gate is generated. -/
theorem branches_of_gate :
    ∃ out, generate Generate.gate Catalog.standard .standard = .ok out ∧
      ∀ screen ∈ Generate.gate.screens, ∃ tree view s order body,
        normalize screen.root Catalog.standard Limits.standard = .ok tree ∧
        Built Generate.gate screen tree view s order body ∧
        ∀ e t₁ t₂, e.kind = .conditional → Tree.node e [t₁, t₂] ∈ tree.root.subtrees →
          ∃ view condition yes no, s.HasView (.node e [t₁, t₂]) view ∧
            view.core = .conditional condition yes no ∧
            (s.KeepsBranches t₁ t₂ yes no ↔ ¬ Tree.Crossed t₁ t₂) ∧
            (Tree.Crossed t₁ t₂ → s.Shown [t₂] yes ∧ no = []) := by
  have haccepts : Generate.accepts Generate.gate .standard = true := by decide +kernel
  obtain ⟨out, hout⟩ := Generate.exists_generate_of_accepts haccepts
  exact ⟨out, hout, branches_are_kept_iff Generate.gate .standard out hout⟩

/-- The root is a conditional with a presentation in front of content. -/
def Tree.crossesAtRoot : Tree Element → Bool
  | .node e [t₁, t₂] =>
    e.kind = .conditional && t₁.value.kind.isPresentation && !t₂.value.kind.isPresentation
  | _ => false

theorem Tree.exists_of_crossesAtRoot {t : Tree Element} (h : t.crossesAtRoot = true) :
    ∃ e t₁ t₂, t = .node e [t₁, t₂] ∧ e.kind = .conditional ∧ Crossed t₁ t₂ := by
  unfold crossesAtRoot at h
  split at h
  next e t₁ t₂ =>
    simp only [Bool.and_eq_true, decide_eq_true_eq, Bool.not_eq_true'] at h
    exact ⟨e, t₁, t₂, rfl, h.1.1, h.1.2, h.2⟩
  · cases h

/-- The text of the gate, which was declared for the second branch, stands in the first one. -/
theorem branches_of_crossed_gate :
    ¬ ∀ (app : AppDefinition) (config : GeneratorConfig) (out : GeneratedApp),
      generate app Catalog.standard config = .ok out →
      ∀ screen ∈ app.screens, ∃ tree view s order body,
        normalize screen.root Catalog.standard config.limits = .ok tree ∧
        Built app screen tree view s order body ∧
        ∀ e t₁ t₂, e.kind = .conditional → Tree.node e [t₁, t₂] ∈ tree.root.subtrees →
          ∃ view condition yes no, s.HasView (.node e [t₁, t₂]) view ∧
            view.core = .conditional condition yes no ∧ s.KeepsBranches t₁ t₂ yes no := by
  intro hclaim
  have haccepts : Generate.accepts Generate.gate .standard = true := by decide +kernel
  obtain ⟨out, hout⟩ := Generate.exists_generate_of_accepts haccepts
  obtain ⟨tree, -, s, -, -, hnormal, -, hkeeps⟩ :=
    hclaim Generate.gate .standard out hout _ List.mem_cons_self
  have hroot : tree.root.crossesAtRoot = true :=
    eq_of_toOption_map (f := fun t => t.root.crossesAtRoot) hnormal (by decide +kernel)
  obtain ⟨e, t₁, t₂, hnode, hkind, hcrossed⟩ := Tree.exists_of_crossesAtRoot hroot
  rw [hnode] at hkeeps
  obtain ⟨view, _, yes, no, hview, hcore, hkept⟩ := hkeeps e t₁ t₂ hkind List.mem_cons_self
  obtain ⟨_, views, hshown, hcore'⟩ := Setting.exists_of_conditional hkind hview.canGive
  cases hcore.symm.trans hcore'
  exact (Setting.keepsBranches_iff hshown).mp hkept hcrossed

end Screenwright
