/-
The views of accepted apps, node by node.

Every tree inside of the tree of a screen is lowered on its own: it is checked, because the whole
tree is, and what its elements need is there.  So each node has a view, or modifiers by which it is
presented, that do not depend on where lowering meets it; and how they are put together holds
throughout.
-/
import Screenwright.Proofs.Lowering.Composition
import Screenwright.Proofs.Members
import Screenwright.Proofs.Mirror

namespace Screenwright

open Steps Swift

/-! ### Trees inside of a tree -/

namespace Tree

variable {α : Type} {u : Tree α}

mutual

theorem each_of_mem_subtrees {p : α → Nat → Prop} :
    ∀ t : Tree α, Each p t → u ∈ t.subtrees → Each p u
  | node a ts, h, hu => by
    rcases List.mem_cons.mp hu with rfl | hu
    · exact h
    · exact each_of_mem_subtreesAll ts h.2 hu

theorem each_of_mem_subtreesAll {p : α → Nat → Prop} :
    ∀ ts : List (Tree α), EachAll p ts → u ∈ subtreesAll ts → Each p u
  | t :: ts, h, hu => by
    rcases List.mem_append.mp hu with hu | hu
    · exact each_of_mem_subtrees t h.1 hu
    · exact each_of_mem_subtreesAll ts h.2 hu

end

mutual

theorem preorder_subset_of_mem_subtrees :
    ∀ t : Tree α, u ∈ t.subtrees → u.preorder ⊆ t.preorder
  | node a ts, hu => by
    rcases List.mem_cons.mp hu with rfl | hu
    · exact List.Subset.refl _
    · have hbelow := preorder_subset_of_mem_subtreesAll ts hu
      exact List.Subset.trans hbelow (List.subset_cons_self _ _)

theorem preorder_subset_of_mem_subtreesAll :
    ∀ ts : List (Tree α), u ∈ subtreesAll ts → u.preorder ⊆ preorderAll ts
  | t :: ts, hu => by
    rcases List.mem_append.mp hu with hu | hu
    · exact List.Subset.trans (preorder_subset_of_mem_subtrees t hu) (List.subset_append_left _ _)
    · have hbelow := preorder_subset_of_mem_subtreesAll ts hu
      exact List.Subset.trans hbelow (List.subset_append_right _ _)

end

end Tree

/-! ### Nodes of a screen -/

namespace Setting

/-- The tree has one view, and this is it. -/
def HasView (s : Setting) (t : Tree Element) (view : View) : Prop :=
  ∀ v, CanGive (lower s t) v ↔ v = view

/-- The tree is presented in one way, by these modifiers. -/
def PresentedBy (s : Setting) (t : Tree Element) (ms : List ViewModifier) : Prop :=
  ∀ ns, CanGive (present s t) ns ↔ ns = ms

/-- What stands in content has a view, and what does not is presented. -/
structure Lowered (s : Setting) (t : Tree Element) : Prop where
  view : t.value.kind.isPresentation = false → ∃ view, s.HasView t view
  modifiers : t.value.kind.isPresentation = true → ∃ ms, s.PresentedBy t ms

variable {s : Setting} {φ : String → HandlerParams}

theorem HasView.canGive {t : Tree Element} {view : View} (h : s.HasView t view) :
    CanGive (lower s t) view :=
  (h view).mpr rfl

theorem PresentedBy.canGive {t : Tree Element} {ms : List ViewModifier} (h : s.PresentedBy t ms) :
    CanGive (present s t) ms :=
  (h ms).mpr rfl

theorem canGive_of_lowers {α : Type} {m : Build α} {uses : List Use} (h : Lowers s φ m uses) :
    ∃ a, CanGive m a := by
  obtain ⟨a, order, -, hrun, -⟩ := h .empty (Ledger.fits_empty φ)
  exact ⟨a, _, _, hrun⟩

/-- A checked tree that has what it needs is lowered. -/
theorem lowered_of_checked (hready : s.Ready) {t : Tree Element} (hchecked : t.Checked)
    (hsuits : ∀ e ∈ t.preorder, s.Suits φ e) : s.Lowered t := by
  obtain ⟨hview, hpresentation⟩ := lowers_tree hready t hchecked hsuits
  obtain ⟨hsettled, hsettled'⟩ := tree_settled s t
  constructor
  · intro hkind
    obtain ⟨view, h⟩ := canGive_of_lowers (hview hkind)
    exact ⟨view, fun v => hsettled.canGive_iff h⟩
  · intro hkind
    obtain ⟨ms, h⟩ := canGive_of_lowers (hpresentation hkind)
    exact ⟨ms, fun ns => hsettled'.canGive_iff h⟩

end Setting

namespace Generate

/-- Every tree inside of the tree of a screen is lowered, if the app is accepted. -/
theorem Accepted.exists_lowered {app : AppDefinition} {config : GeneratorConfig}
    {types : List DataType} {trees : List NormalTree} (h : Accepted app config types trees)
    {screen : Screen} (hscreen : screen ∈ app.screens) :
    ∃ tree view s order body, normalize screen.root Catalog.standard config.limits = .ok tree ∧
      Built app screen tree view s order body ∧ ∀ t ∈ tree.root.subtrees, s.Lowered t := by
  obtain ⟨tree, hmem⟩ := h.exists_mem_zip hscreen
  have hnormal := h.normalize_of_mem_zip hmem
  have hchecked := checked_of_normalize hnormal
  obtain ⟨bound, scope, φ, hvetted⟩ := h.exists_vetted hmem
  obtain ⟨view, order, body, hbuilt⟩ := hvetted.exists_built hchecked
  have hsuits := hvetted.elements app.config.designTokens
  refine ⟨tree, view, _, order, body, hnormal, hbuilt, fun t ht => ?_⟩
  exact Setting.lowered_of_checked (Setting.ready_ofVetted app screen bound scope)
    (Tree.each_of_mem_subtrees tree.root hchecked ht) fun e he =>
      hsuits e (Tree.preorder_subset_of_mem_subtrees tree.root ht he)

end Generate

/-- **No modifier is lost, merged or moved.**  In an accepted app, each node of a screen that is not
a presentation has one view: that of its component, with the modifiers of its kind, and behind them
in one flat chain those that the node declares, one by one, and those by which the presentations
below it are hung on it, one by one, the ones inside of a toolbar behind that of the toolbar.  A
sheet or a cover is presented by one modifier, and the view in it has its detents, its declared
modifiers and its presentations behind whatever chain it has. -/
theorem modifiers_keep_order (app : AppDefinition) (config : GeneratorConfig) (out : GeneratedApp)
    (h : generate app Catalog.standard config = .ok out) :
    ∀ screen ∈ app.screens, ∃ tree view s order body,
      normalize screen.root Catalog.standard config.limits = .ok tree ∧
      Built app screen tree view s order body ∧
      ∀ e ts, Tree.node e ts ∈ tree.root.subtrees →
        (e.kind.isPresentation = false → ∃ view base, s.HasView (.node e ts) view ∧
          CanGive (s.component e (s.lowerContent ts)) base ∧ base.Carries e.intrinsicNames ∧
          s.Composed e ts base [] view) ∧
        (e.kind.isPresentation = true → ∃ ms, s.PresentedBy (.node e ts) ms ∧
          s.PresentedAs e ts ms) := by
  intro screen hscreen
  obtain ⟨types, trees, haccepted⟩ := Generate.exists_accepted h
  obtain ⟨tree, view, s, order, body, hnormal, hbuilt, hlowered⟩ :=
    haccepted.exists_lowered hscreen
  refine ⟨tree, view, s, order, body, hnormal, hbuilt, fun e ts ht => ⟨fun hkind => ?_,
    fun hkind => ?_⟩⟩
  · obtain ⟨view, hview⟩ := (hlowered _ ht).view hkind
    obtain ⟨base, hbase, hcarries, hcomposed⟩ := Setting.exists_of_lower hview.canGive
    exact ⟨view, base, hview, hbase, hcarries, hcomposed⟩
  · obtain ⟨ms, hms⟩ := (hlowered _ ht).modifiers hkind
    exact ⟨ms, hms, Setting.presented_of_present hkind hms.canGive⟩

/-- An app whose first screen has declared modifiers on a stack, a text and a sheet, a dialog inside
of a toolbar, and a cover inside of the sheet. -/
def Generate.pinboard : AppDefinition where
  config := ⟨"Notes", "com.example.notes", "1.0.0", .standard, .standard, false, false⟩
  screens :=
    [⟨"home", "Home", none, [], [],
        .node ⟨"root", "VStack", [], [], [⟨"padding", [.int 8]⟩, ⟨"bold", []⟩]⟩
          [.node ⟨"title", "Text", [("content", .string "Pins"), ("lineLimit", .int 2)], [],
            [⟨"italic", []⟩]⟩ [],
          .node ⟨"bar", "Toolbar", [], [], []⟩
            [.node ⟨"clear", "Text", [("content", .string "Clear")], [], []⟩ [],
            .node ⟨"sure", "Alert", [("title", .string "Clear all?")],
              [⟨"isPresented", .state, "isAsking"⟩], []⟩ []],
          .node ⟨"more", "Sheet", [("detents", .string "medium")],
            [⟨"isPresented", .state, "isShown"⟩], [⟨"padding", []⟩, ⟨"hidden", []⟩]⟩
            [.node ⟨"pin", "Image", [("resizable", .bool true)], [], []⟩ [],
            .node ⟨"over", "FullScreenCover", [], [⟨"isPresented", .state, "isOpen"⟩], []⟩
              [.node ⟨"end", "Divider", [], [], []⟩ []]]]⟩]
  models := []
  entryScreen := "home"
  tabBar := none

/-- The pins are generated, with every modifier in its place. -/
theorem modifiers_of_pinboard :
    ∃ out, generate Generate.pinboard Catalog.standard .standard = .ok out ∧
      ∀ screen ∈ Generate.pinboard.screens, ∃ tree view s order body,
        normalize screen.root Catalog.standard Limits.standard = .ok tree ∧
        Built Generate.pinboard screen tree view s order body ∧
        ∀ e ts, Tree.node e ts ∈ tree.root.subtrees →
          (e.kind.isPresentation = false → ∃ view base, s.HasView (.node e ts) view ∧
            CanGive (s.component e (s.lowerContent ts)) base ∧ base.Carries e.intrinsicNames ∧
            s.Composed e ts base [] view) ∧
          (e.kind.isPresentation = true → ∃ ms, s.PresentedBy (.node e ts) ms ∧
            s.PresentedAs e ts ms) := by
  have haccepts : Generate.accepts Generate.pinboard .standard = true := by decide +kernel
  obtain ⟨out, hout⟩ := Generate.exists_generate_of_accepts haccepts
  exact ⟨out, hout, modifiers_keep_order Generate.pinboard .standard out hout⟩

end Screenwright
