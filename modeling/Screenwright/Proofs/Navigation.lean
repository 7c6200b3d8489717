/-
The ways that a screen leads to others.

A screen's references are collected when its tree is normalized, from the elements in
pre-order.  The ways that its view leads elsewhere are written down while the tree is
lowered, in the order of lowering.  Both come from the same uses, so they are the same
up to order: the check that no reference dangles and the search for screens that cannot
be reached speak of the same graph.
-/
import Screenwright.Proofs.Generation

namespace Screenwright

/-- How a view leads where a reference points. -/
def ReferenceKind.edgeKind : ReferenceKind → Swift.EdgeKind
  | navigate => .push
  | link => .push
  | presentSheet => .sheet
  | tab => .tab

namespace Setting

variable {s : Setting}

/-- The way that a reference becomes. -/
def edgeOf (s : Setting) (r : ScreenReference) : Swift.NavEdge :=
  ⟨s.screenId, r.target, r.node, r.kind.edgeKind⟩

/-- One use adds the way that its reference becomes, if it makes one. -/
theorem edges_record (ledger : Ledger) (use : Use) :
    (s.record ledger use).edges = ledger.edges ++ (use.reference?.map s.edgeOf).toList := by
  cases use with
  | link node target => rfl
  | tab node target => rfl
  | action node a =>
      cases a with
      | navigate target => rfl
      | presentSheet target => rfl
      | dismiss => exact (List.append_nil _).symm
      | custom name args =>
          simp only [record, recordAction]
          split <;> exact (List.append_nil _).symm

/-- A run over uses adds the ways of their references, in the order of the uses. -/
theorem edges_foldl_record (order : List Use) :
    ∀ ledger : Ledger, (order.foldl s.record ledger).edges =
      ledger.edges ++ order.filterMap fun use => use.reference?.map s.edgeOf := by
  induction order with
  | nil => exact fun ledger => (List.append_nil _).symm
  | cons use order ih =>
      intro ledger
      rw [List.foldl_cons, ih, edges_record, List.append_assoc, List.filterMap_cons]
      cases use.reference?.map s.edgeOf <;> rfl

end Setting

/-- The finished view has the ways of the ledger. -/
theorem Setting.edges_of_finish {s : Setting} {screen : Screen} {body : Swift.View}
    {ledger : Ledger} {view : Swift.ScreenView} (h : s.finish screen body ledger = .ok view) :
    view.edges = ledger.edges := by
  obtain ⟨_, -, h⟩ := Steps.bind_eq_ok.mp h
  cases h
  rfl

/-- The references of a tree are those of its uses. -/
theorem NormalTree.references_eq_uses {root : ComponentTree} {catalog : Catalog} {limits : Limits}
    {tree : NormalTree} (h : normalize root catalog limits = .ok tree) :
    tree.references = tree.root.uses.filterMap Use.reference? := by
  rw [references_of_normalize h, Tree.uses, List.filterMap_flatMap]
  exact congrArg (List.flatMap · tree.elements) (funext Element.references_eq_uses)

/-- **The ways of a screen are its references.**  In an accepted app no reference of a screen
is lost on the way to its view, none is there twice and none is made up: the view leads
where the tree's references point, from the same nodes and in the corresponding manner,
as often. -/
theorem edges_perm_references (app : AppDefinition) (config : GeneratorConfig) (out : GeneratedApp)
    (h : generate app Catalog.standard config = .ok out) :
    ∀ screen ∈ app.screens, ∃ tree view,
      normalize screen.root Catalog.standard config.limits = .ok tree ∧
      buildScreen app.buildContext screen tree = .ok view ∧
      (view.edges.map fun e => (e.node, e.target, e.kind)).Perm
        (tree.references.map fun r => (r.node, r.target, r.kind.edgeKind)) := by
  intro screen hscreen
  obtain ⟨types, trees, haccepted⟩ := Generate.exists_accepted h
  obtain ⟨tree, hmem⟩ := haccepted.exists_mem_zip hscreen
  have hnormal := haccepted.normalize_of_mem_zip hmem
  obtain ⟨view, s, order, body, hbuilt⟩ := haccepted.exists_built hmem
  refine ⟨tree, view, hnormal, hbuilt.build, ?_⟩
  have hedges : view.edges = (order.filterMap Use.reference?).map s.edgeOf := by
    rw [Setting.edges_of_finish hbuilt.finish, Setting.edges_foldl_record, List.map_filterMap]
    rfl
  rw [hedges, NormalTree.references_eq_uses hnormal, List.map_map]
  exact (hbuilt.perm.filterMap Use.reference?).map _

/-- The sample leads to its second screen, and its view says so. -/
theorem edges_of_sample :
    ∃ out, generate Generate.sample Catalog.standard .standard = .ok out ∧
      ∀ screen ∈ Generate.sample.screens, ∃ tree view,
        normalize screen.root Catalog.standard Limits.standard = .ok tree ∧
        buildScreen Generate.sample.buildContext screen tree = .ok view ∧
        (view.edges.map fun e => (e.node, e.target, e.kind)).Perm
          (tree.references.map fun r => (r.node, r.target, r.kind.edgeKind)) := by
  obtain ⟨types, trees, haccepted⟩ := Generate.accepted_of_accepts Generate.accepts_sample
  obtain ⟨out, hout⟩ := haccepted.exists_generate
  exact ⟨out, hout, edges_perm_references Generate.sample .standard out hout⟩

end Screenwright
