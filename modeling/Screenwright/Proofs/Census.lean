/-
The components of a screen, counted in its view.

A view has as many parts of each sort as its tree has components of that kind.  Only sheets are
more: besides those of the tree a view has one sheet for each flag that its statements set,
however often they set it.  What the tree contributes is `root_tally`.  The rest is added when
the view is finished, from the ledger, and there each flag stands once: it is put in with the
first use that sets it, and no use can set one that is not there.
-/
import Mathlib.Data.List.Dedup
import Screenwright.Proofs.Calls
import Screenwright.Proofs.Flags
import Screenwright.Proofs.Lowering.Tally

namespace Screenwright

open Steps Swift

namespace Swift

/-- The presentation flag that an effect sets. -/
def Effect.flag? : Effect → Option String
  | .run (.present flag) => some flag
  | _ => none

/-- The presentation flags that the statements of a view set, each of them once. -/
def View.flags (view : View) : List String :=
  (view.effects.filterMap Effect.flag?).dedup

theorem View.mem_flags {view : View} {flag : String} :
    flag ∈ view.flags ↔ .run (.present flag) ∈ view.effects := by
  rw [View.flags, List.mem_dedup, List.mem_filterMap]
  constructor
  · rintro ⟨effect, hmem, hflag⟩
    unfold Effect.flag? at hflag
    split at hflag
    · cases hflag
      exact hmem
    · cases hflag
  · exact fun hmem => ⟨_, hmem, rfl⟩

end Swift

/-- A sheet for each flag, and nothing else that counts. -/
theorem Setting.tally_sheetModifiers (k : ComponentKind) (sheets : Entries String) :
    tally k (modifierParts (sheets.map fun sheet => sheetModifier sheet.1 sheet.2)) =
      if k = .sheet then sheets.length else 0 := by
  have hone : ∀ sheet : String × String,
      tally k (sheetModifier sheet.1 sheet.2).parts = if k = .sheet then 1 else 0 := by
    intro sheet
    have hmark : tally k (sheetModifier sheet.1 sheet.2).parts = mark k (some .sheet) := by
      simp [sheetModifier, Closure.first, presents?]
    rw [hmark, mark]
    simp only [Option.some.injEq, eq_comm]
  induction sheets with
  | nil => simp
  | cons sheet sheets ih =>
      rw [List.map_cons, modifierParts, tally_append, hone, ih]
      split
      · rw [List.length_cons, Nat.add_comm]
      · rfl

namespace Built

variable {app : AppDefinition} {screen : Screen} {tree : NormalTree} {view : ScreenView}
  {s : Setting} {order : List Use} {body : View}

/-- The flags of the ledger are those that the statements of the view set. -/
theorem mem_sheets_iff (h : Built app screen tree view s order body) {flag : String} :
    flag ∈ Entries.names (order.foldl s.record .empty).sheets ↔
      .run (.present flag) ∈ view.body.effects := by
  refine ⟨fun hmem => ?_, h.mem_sheets_of_run⟩
  obtain ⟨order', effects, hledger, -, hdoes, heffects⟩ :=
    Setting.root_emits s tree.root .empty body _ h.run
  rw [hledger, Setting.sheets_foldl_record, Entries.mem_names_foldl_putNew] at hmem
  rcases hmem with hnil | ⟨names, hnames, rfl⟩
  · cases hnil
  obtain ⟨use, huse, hpresents⟩ := List.mem_filterMap.mp hnames
  rw [Setting.run_mem_effects_iff h.finish, heffects]
  cases use with
  | link node target => cases hpresents
  | tab node target => cases hpresents
  | action node a =>
      cases a with
      | presentSheet target =>
          obtain ⟨effect, heffect, hdone⟩ := exists_of_forall₂ hdoes.flip _ huse
          cases hdone with
          | present hfound =>
              rw [Option.some.inj (hpresents.symm.trans hfound)]
              exact heffect
      | _ => cases hpresents

/-- There are as many sheets in the ledger as flags that the statements of the view set. -/
theorem length_sheets (h : Built app screen tree view s order body) :
    (order.foldl s.record .empty).sheets.length = view.body.flags.length := by
  have hperm : (Entries.names (order.foldl s.record .empty).sheets).Perm view.body.flags := by
    refine (List.perm_ext_iff_of_nodup h.clean.sheets (List.nodup_dedup _)).mpr fun flag => ?_
    exact h.mem_sheets_iff.trans View.mem_flags.symm
  rw [← hperm.length_eq, Entries.names, List.length_map]

/-- **In a view that has been built, each component of the tree counts once, and each flag that
is set counts as a sheet.** -/
theorem tally_body (h : Built app screen tree view s order body) (hchecked : tree.root.Checked)
    (k : ComponentKind) :
    tally k view.body.parts =
      census k tree.elements + if k = .sheet then view.body.flags.length else 0 := by
  have htree : tally k body.parts = census k tree.elements :=
    ((Setting.root_tally k s tree.root hchecked) .empty body _ trivial h.run).1
  have htitle : AllPlain (Setting.titleModifier screen) := by
    unfold Setting.titleModifier
    split
    · exact List.forall_mem_nil _
    · exact List.forall_mem_singleton.mpr ⟨rfl, rfl⟩
  rw [← h.length_sheets, ← Setting.tally_sheetModifiers, Setting.body_of_finish h.finish,
    parts_modify, modifierParts_append, tally_append, tally_append, htree, htitle.tally_eq_zero,
    Nat.zero_add]

end Built

/-- **Lowering loses no component, and makes none twice.**  In an accepted app, the view of each
screen has as many parts that stand for a kind of component as its tree has elements of that
kind, wherever in the view they are; only sheets are more, by one for each presentation flag that
the statements of the view set.  This is so for every kind that can be told by what it is lowered
to. -/
theorem components_are_counted (app : AppDefinition) (config : GeneratorConfig)
    (out : GeneratedApp) (h : generate app Catalog.standard config = .ok out) :
    ∀ screen ∈ app.screens, ∃ tree view,
      normalize screen.root Catalog.standard config.limits = .ok tree ∧
      buildScreen app.buildContext screen tree = .ok view ∧
      ∀ kind : ComponentKind, kind.isTraced = true →
        tally kind view.body.parts = (tree.elements.countP fun e => e.kind = kind) +
          if kind = .sheet then view.body.flags.length else 0 := by
  intro screen hscreen
  obtain ⟨types, trees, haccepted⟩ := Generate.exists_accepted h
  obtain ⟨tree, view, s, order, body, hnormal, hbuilt, -⟩ := haccepted.exists_furnished hscreen
  refine ⟨tree, view, hnormal, hbuilt.build, fun kind htraced => ?_⟩
  rw [hbuilt.tally_body (checked_of_normalize hnormal), census_of_isTraced htraced]

/-- An app whose first screen scrolls a row of inputs, has a toolbar inside of a sheet, and
presents its second screen from two buttons. -/
def Generate.gallery : AppDefinition where
  config := ⟨"Notes", "com.example.notes", "1.0.0", .standard, .standard, false, false⟩
  screens :=
    [⟨"home", "Home", none, [], [],
        .node ⟨"root", "ScrollView", [("axis", .string "horizontal")], [], []⟩
          [.node ⟨"first", "Toggle", [("label", .string "First")], [], []⟩ [],
          .node ⟨"second", "Toggle", [("label", .string "Second")], [], []⟩ [],
          .node ⟨"either", "Conditional", [], [], []⟩
            [.node (presentButton "open" "compose") [],
            .node (presentButton "again" "compose") []],
          .node ⟨"shown", "Sheet", [], [⟨"isPresented", .state, "isShown"⟩], []⟩
            [.node ⟨"image", "Image", [], [], []⟩ [],
            .node ⟨"bar", "Toolbar", [], [], []⟩
              [.node ⟨"link", "NavigationLink", [("target", .string "compose")], [], []⟩ []]]]⟩,
      ⟨"compose", "Compose", none, [], [], .node ⟨"body", "Text", [], [], []⟩ []⟩]
  models := []
  entryScreen := "home"
  tabBar := none

/-- The first screen of the gallery has one element for a sheet, and its view has two sheets. -/
theorem components_of_gallery :
    ∃ out, generate Generate.gallery Catalog.standard .standard = .ok out ∧
      ∀ screen ∈ Generate.gallery.screens, ∃ tree view,
        normalize screen.root Catalog.standard Limits.standard = .ok tree ∧
        buildScreen Generate.gallery.buildContext screen tree = .ok view ∧
        ∀ kind : ComponentKind, kind.isTraced = true →
          tally kind view.body.parts = (tree.elements.countP fun e => e.kind = kind) +
            if kind = .sheet then view.body.flags.length else 0 := by
  have haccepts : Generate.accepts Generate.gallery .standard = true := by decide +kernel
  obtain ⟨out, hout⟩ := Generate.exists_generate_of_accepts haccepts
  exact ⟨out, hout, components_are_counted Generate.gallery .standard out hout⟩

end Screenwright
