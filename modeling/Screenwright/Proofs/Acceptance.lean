/-
Accepted apps are generated.

Generation runs its checks first and lowers afterwards.  The checks are `Accepted`; an
app that meets it has a file for everything, because each of the nine ways in which
lowering can fail has been excluded by one of the checks, in another module and in
another order.  What is left of the errors is what the checks themselves report.
-/
import Screenwright.Generate
import Screenwright.Proofs.References

namespace Screenwright

open Steps

/-! ### One screen -/

namespace Setting

/-- The setting in which a vetted screen is lowered. -/
def ofVetted (app : AppDefinition) (screen : Screen) (bound : Scope.Resolved) (scope : Scope) :
    Setting :=
  ⟨screen.id, app.config.designTokens, ScreenNames.index app.screens, scope, bound⟩

theorem ready_ofVetted (app : AppDefinition) (screen : Screen) (bound : Scope.Resolved)
    (scope : Scope) : (ofVetted app screen bound scope).Ready :=
  fun _ _ haccepts => DesignTokens.exists_resolve _ _ _ haccepts

/-- A tree is finished if its members can be declared. -/
theorem exists_finish {s : Setting} (hmembers : ∃ members, s.scope.members = .ok members)
    (screen : Screen) (body : Swift.View) (ledger : Ledger) :
    ∃ view, s.finish screen body ledger = .ok view := by
  obtain ⟨members, hmembers⟩ := hmembers
  unfold finish allMembers
  rw [hmembers]
  exact ⟨_, rfl⟩

end Setting

namespace AppDefinition

/-- What the views of the screens of an app are made from. -/
def buildContext (app : AppDefinition) : BuildContext :=
  ⟨Catalog.standard, app.config.designTokens, ScreenNames.index app.screens, app.models⟩

end AppDefinition

/-- How the view of a screen comes about: its bindings are resolved, the uses of its tree, in
some order, are recorded one after the other, and the view is finished from the ledger they
leave. -/
structure Built (app : AppDefinition) (screen : Screen) (tree : NormalTree)
    (view : Swift.ScreenView) (s : Setting) (order : List Use) (body : Swift.View) : Prop where
  bindings : ∃ bound scope, (Scope.ofScreen screen app.models).bindAll Catalog.standard []
    tree.bindings = .ok (bound, scope) ∧ s = .ofVetted app screen bound scope
  fine : ∀ use ∈ order, ∃ φ, s.Fine φ use
  perm : order.Perm tree.root.uses
  run : (s.lowerRoot tree.root).run .empty = .ok (body, order.foldl s.record .empty)
  finish : s.finish screen body (order.foldl s.record .empty) = .ok view
  build : buildScreen app.buildContext screen tree = .ok view

theorem Built.screens {app : AppDefinition} {screen : Screen} {tree : NormalTree}
    {view : Swift.ScreenView} {s : Setting} {order : List Use} {body : Swift.View}
    (h : Built app screen tree view s order body) : s.screens = ScreenNames.index app.screens := by
  obtain ⟨_, _, -, rfl⟩ := h.bindings
  rfl

/-- **A vetted screen is built.** -/
theorem Vetted.exists_built {app : AppDefinition} {screen : Screen} {tree : NormalTree}
    {bound : Scope.Resolved} {scope : Scope} {φ : String → HandlerParams}
    (h : Vetted app screen tree bound scope φ) (hchecked : tree.root.Checked) :
    ∃ view order body,
      Built app screen tree view (.ofVetted app screen bound scope) order body := by
  have hsuits := h.elements app.config.designTokens
  obtain ⟨body, order, hperm, hrun, -⟩ :=
    Setting.lowers_root (Setting.ready_ofVetted app screen bound scope) tree.root hchecked hsuits
      .empty (Ledger.fits_empty φ)
  obtain ⟨view, hfinish⟩ :=
    (Setting.ofVetted app screen bound scope).exists_finish h.members screen body
      (order.foldl (Setting.ofVetted app screen bound scope).record .empty)
  refine ⟨view, order, body, ⟨bound, scope, h.bindings, rfl⟩, fun use huse => ⟨φ, ?_⟩, hperm, hrun,
    hfinish, ?_⟩
  · obtain ⟨e, he, hmem⟩ := List.mem_flatMap.mp (hperm.mem_iff.mp huse)
    exact (hsuits e he).uses use hmem
  · unfold buildScreen
    refine bind_eq_ok.mpr ⟨(bound, scope), h.bindings, ?_⟩
    exact bind_eq_ok.mpr ⟨_, hrun, hfinish⟩

/-! ### The checks -/

namespace Generate

/-- What an app has to pass before anything is lowered. -/
structure Accepted (app : AppDefinition) (config : GeneratorConfig) (types : List Swift.DataType)
    (trees : List NormalTree) : Prop where
  checked : config.check = .ok ()
  settings : app.config.check = .ok ()
  models : buildModels app = .ok types
  normal : normalizeAll app Catalog.standard config.limits = .ok trees
  references : app.referenceErrors trees Catalog.standard = []

theorem checkReferences_eq_ok {app : AppDefinition} {trees : List NormalTree} {catalog : Catalog}
    {u : Unit} :
    checkReferences app trees catalog = .ok u ↔ app.referenceErrors trees catalog = [] := by
  unfold checkReferences
  cases app.referenceErrors trees catalog with
  | nil => simp
  | cons e rest => simp

namespace Accepted

variable {app : AppDefinition} {config : GeneratorConfig} {types : List Swift.DataType}
  {trees : List NormalTree}

theorem faultless (h : Accepted app config types trees) : app.Faultless trees Catalog.standard :=
  AppDefinition.faultless_of_referenceErrors h.references

theorem normalize_of_mem_zip (h : Accepted app config types trees) {screen : Screen}
    {tree : NormalTree} (hmem : (screen, tree) ∈ app.screens.zip trees) :
    normalize screen.root Catalog.standard config.limits = .ok tree := by
  have hall := (List.forall₂_iff_zip.mp (mapM_eq_ok.mp h.normal)).2 hmem
  exact mapError_eq_ok.mp hall

theorem exists_mem_zip (h : Accepted app config types trees) {screen : Screen}
    (hmem : screen ∈ app.screens) : ∃ tree, (screen, tree) ∈ app.screens.zip trees := by
  have hlength := (mapM_eq_ok.mp h.normal).length_eq
  obtain ⟨i, hi, rfl⟩ := List.mem_iff_getElem.mp hmem
  refine ⟨trees[i], List.mem_iff_getElem.mpr ⟨i, by simp [List.length_zip]; omega, ?_⟩⟩
  rw [List.getElem_zip]

/-- Every screen of an accepted app is vetted. -/
theorem exists_vetted (h : Accepted app config types trees) {screen : Screen} {tree : NormalTree}
    (hmem : (screen, tree) ∈ app.screens.zip trees) :
    ∃ bound scope φ, Vetted app screen tree bound scope φ := by
  have hnormal := h.normalize_of_mem_zip hmem
  exact AppDefinition.exists_vetted (checked_of_normalize hnormal)
    (references_of_normalize hnormal) (h.faultless.screens _ hmem)

/-- **Every screen of an accepted app is built.** -/
theorem exists_built (h : Accepted app config types trees) {screen : Screen} {tree : NormalTree}
    (hmem : (screen, tree) ∈ app.screens.zip trees) :
    ∃ view s order body, Built app screen tree view s order body := by
  obtain ⟨bound, scope, φ, hvetted⟩ := h.exists_vetted hmem
  obtain ⟨view, order, body, hbuilt⟩ :=
    hvetted.exists_built (checked_of_normalize (h.normalize_of_mem_zip hmem))
  exact ⟨view, _, order, body, hbuilt⟩

theorem exists_buildScreens (h : Accepted app config types trees) :
    ∃ views, buildScreens app.buildContext app trees = .ok views := by
  refine exists_mapM_eq_ok fun pair hpair => ?_
  obtain ⟨view, _, _, _, hbuilt⟩ := h.exists_built hpair
  exact ⟨view, mapError_eq_ok.mpr hbuilt.build⟩

/-! ### The entry -/

theorem exists_entryTarget {place target : String} (h : app.hasScreen target = true) :
    ∃ names, entryTarget (ScreenNames.index app.screens) place target = .ok names := by
  obtain ⟨names, hnames⟩ := Option.isSome_iff_exists.mp (ScreenNames.isSome_lookup_index h)
  exact ⟨names, by rw [entryTarget, hnames]⟩

theorem exists_rootView (h : Accepted app config types trees) (entry : ScreenNames) :
    ∃ found, rootView (ScreenNames.index app.screens) entry app.tabs = .ok found := by
  unfold rootView
  split
  · exact ⟨_, rfl⟩
  · refine exists_bind_eq_ok (exists_mapM_eq_ok fun item hitem => ?_) fun _ _ => ⟨_, rfl⟩
    exact exists_map_eq_ok (exists_entryTarget (h.faultless.tabs item hitem))

/-- Every set of tokens has one by which the app is tinted. -/
theorem exists_accentToken (config : AppConfig) :
    ∃ accent, accentToken config.designTokens = .ok accent := by
  have haccepts : TokenKind.color.accepts "accent" = true := by decide
  obtain ⟨accent, haccent, -⟩ := DesignTokens.exists_resolve config.name config.version
    config.appearance.tokenInputs haccepts
  exact ⟨accent, mapError_eq_ok.mpr haccent⟩

theorem exists_buildEntry (h : Accepted app config types trees) (valueTypes : List Swift.DataType) :
    ∃ entry, buildEntry app app.config.designTokens (ScreenNames.index app.screens) valueTypes =
      .ok entry := by
  refine exists_bind_eq_ok (exists_entryTarget h.faultless.entry) fun names _ => ?_
  refine exists_bind_eq_ok (h.exists_rootView names) fun found _ => ?_
  exact exists_bind_eq_ok (exists_accentToken app.config) fun _ _ => ⟨_, rfl⟩

/-! ### The app -/

/-- **An app that passes all checks is generated.** -/
theorem exists_generate (h : Accepted app config types trees) :
    ∃ out, generate app Catalog.standard config = .ok out := by
  refine exists_bind_eq_ok ⟨(), mapError_eq_ok.mpr h.checked⟩ fun _ _ => ?_
  refine exists_bind_eq_ok ⟨(), mapError_eq_ok.mpr h.settings⟩ fun _ _ => ?_
  refine exists_bind_eq_ok ⟨types, h.models⟩ fun types' _ => ?_
  refine exists_bind_eq_ok ⟨trees, h.normal⟩ fun trees' htrees => ?_
  obtain rfl : trees = trees' := by
    rw [h.normal] at htrees
    exact Except.ok.inj htrees
  refine exists_bind_eq_ok ⟨(), checkReferences_eq_ok.mpr h.references⟩ fun _ _ => ?_
  refine exists_bind_eq_ok h.exists_buildScreens fun views _ => ?_
  obtain ⟨entry, hentry⟩ := h.exists_buildEntry (valueTypes app types')
  exact exists_bind_eq_ok ⟨entry, mapError_eq_ok.mpr hentry⟩ fun _ _ => ⟨_, rfl⟩

end Accepted

/-- Before lowering begins, no error is an error of lowering. -/
theorem accepted_of_build_error {app : AppDefinition} {config : GeneratorConfig} {place : String}
    {error : BuildError} (h : generate app Catalog.standard config = .error (.build place error)) :
    ∃ types trees, Accepted app config types trees := by
  rcases bind_eq_error.mp h with h | ⟨_, hchecked, h⟩
  · obtain ⟨_, -, h⟩ := mapError_eq_error.mp h
    cases h
  rcases bind_eq_error.mp h with h | ⟨_, hsettings, h⟩
  · obtain ⟨_, -, h⟩ := mapError_eq_error.mp h
    cases h
  rcases bind_eq_error.mp h with h | ⟨types, htypes, h⟩
  · obtain ⟨_, -, h⟩ := exists_error_of_mapM h
    obtain ⟨_, -, h⟩ := mapError_eq_error.mp h
    cases h
  rcases bind_eq_error.mp h with h | ⟨trees, htrees, h⟩
  · obtain ⟨_, -, h⟩ := exists_error_of_mapM h
    obtain ⟨_, -, h⟩ := mapError_eq_error.mp h
    cases h
  rcases bind_eq_error.mp h with h | ⟨_, hreferences, -⟩
  · unfold checkReferences at h
    split at h <;> cases h
  exact ⟨types, trees, mapError_eq_ok.mp hchecked, mapError_eq_ok.mp hsettings, htypes, htrees,
    checkReferences_eq_ok.mp hreferences⟩

/-! ### Deciding acceptance -/

/-- Whether an app passes all checks. -/
def accepts (app : AppDefinition) (config : GeneratorConfig) : Bool :=
  config.check.isOk && app.config.check.isOk && (buildModels app).isOk &&
    match normalizeAll app Catalog.standard config.limits with
    | .ok trees => (app.referenceErrors trees Catalog.standard).isEmpty
    | .error _ => false

theorem accepted_of_accepts {app : AppDefinition} {config : GeneratorConfig}
    (h : accepts app config = true) : ∃ types trees, Accepted app config types trees := by
  simp only [accepts, Bool.and_eq_true, isOk_iff] at h
  obtain ⟨⟨⟨⟨_, hchecked⟩, ⟨_, hsettings⟩⟩, ⟨types, hmodels⟩⟩, h⟩ := h
  split at h
  next trees hnormal =>
    exact ⟨types, trees, hchecked, hsettings, hmodels, hnormal, List.isEmpty_iff.mp h⟩
  · cases h

theorem exists_generate_of_accepts {app : AppDefinition} {config : GeneratorConfig}
    (h : accepts app config = true) : ∃ out, generate app Catalog.standard config = .ok out := by
  obtain ⟨types, trees, haccepted⟩ := accepted_of_accepts h
  exact haccepted.exists_generate

/-- A small app: a button of one screen presents the other. -/
def sample : AppDefinition where
  config := ⟨"Notes", "com.example.notes", "1.0.0", .standard, .standard, false, false⟩
  screens :=
    [⟨"home", "Home", none, [], [],
        .node ⟨"root", "VStack", [], [], []⟩
          [.node ⟨"open", "Button",
            [("title", .string "About"),
              ("action", .object
                [("target", .string "about"), ("type", .string "presentSheet")])], [], []⟩ []]⟩,
      ⟨"about", "About", none, [], [],
        .node ⟨"body", "Text", [("content", .string "Notes")], [], []⟩ []⟩]
  models := []
  entryScreen := "home"
  tabBar := none

theorem accepts_sample : accepts sample .standard = true := by decide +kernel

end Generate

open Generate in
/-- **Lowering never fails.**  No error of lowering reaches whoever generates an app; and once
the settings, the data models, the trees and the references have passed their checks, every
screen is built, and so is the entry. -/
theorem lowering_never_fails (app : AppDefinition) (config : GeneratorConfig) :
    (∀ place error, generate app Catalog.standard config ≠ .error (.build place error)) ∧
      ∀ types trees, config.check = .ok () → app.config.check = .ok () →
        buildModels app = .ok types →
        normalizeAll app Catalog.standard config.limits = .ok trees →
        checkReferences app trees Catalog.standard = .ok () →
        (∀ screen tree, (screen, tree) ∈ app.screens.zip trees →
          ∃ view, buildScreen app.buildContext screen tree = .ok view) ∧
        ∃ entry, buildEntry app app.config.designTokens (ScreenNames.index app.screens)
          (valueTypes app types) = .ok entry := by
  constructor
  · intro place error herror
    obtain ⟨types, trees, haccepted⟩ := accepted_of_build_error herror
    obtain ⟨out, hout⟩ := haccepted.exists_generate
    rw [herror] at hout
    cases hout
  · intro types trees hchecked hsettings hmodels hnormal hreferences
    have haccepted : Accepted app config types trees :=
      ⟨hchecked, hsettings, hmodels, hnormal, checkReferences_eq_ok.mp hreferences⟩
    refine ⟨fun screen tree hmem => ?_, haccepted.exists_buildEntry _⟩
    obtain ⟨view, _, _, _, hbuilt⟩ := haccepted.exists_built hmem
    exact ⟨view, hbuilt.build⟩

open Generate in
/-- The checks pass for the sample, so its screens and its entry are built. -/
theorem lowering_of_sample :
    ∃ types trees, normalizeAll sample Catalog.standard Limits.standard = .ok trees ∧
      (∀ screen tree, (screen, tree) ∈ sample.screens.zip trees →
        ∃ view, buildScreen sample.buildContext screen tree = .ok view) ∧
      ∃ entry, buildEntry sample sample.config.designTokens (ScreenNames.index sample.screens)
        (valueTypes sample types) = .ok entry := by
  obtain ⟨types, trees, h⟩ := accepted_of_accepts accepts_sample
  exact ⟨types, trees, h.normal, (lowering_never_fails sample .standard).2 types trees h.checked
    h.settings h.models h.normal (checkReferences_eq_ok.mpr h.references)⟩

end Screenwright
