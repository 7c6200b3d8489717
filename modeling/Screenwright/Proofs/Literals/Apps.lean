/-
Apps whose bound properties have other literals.

Two runs of the generator are compared, of an app and of the same app with other raw properties.
Where nothing but literals of bound properties differs, they end alike, and what they share is told
in two halves.  Outside of their trees the screens are the same, and that is all that the checks
across the app, the entry and the warnings read of the screens themselves.  The trees are the same
once they are trimmed, and a trimmed tree is all that is read of a tree.
-/
import Screenwright.Proofs.Generation
import Screenwright.Proofs.Literals.Lowering
import Screenwright.Proofs.Literals.Normal
import Screenwright.Proofs.Naming

namespace Screenwright

open Steps
open DataBinding (covers)

/-! ### Apps with other literals -/

/-- The screen with other raw properties on its components. -/
def Screen.reword (raw : Component → Entries Json) (screen : Screen) : Screen :=
  { screen with root := screen.root.map (Component.reword raw) }

namespace AppDefinition

/-- The app with other raw properties on the components of its screens. -/
def reword (app : AppDefinition) (raw : Screen → Component → Entries Json) : AppDefinition :=
  { app with screens := app.screens.map fun screen => screen.reword (raw screen) }

variable (app : AppDefinition) (raw : Screen → Component → Entries Json)

/-! ### The checks across the app -/

theorem hasScreen_reword (id : String) : (app.reword raw).hasScreen id = app.hasScreen id := by
  rw [hasScreen, hasScreen, reword, List.any_map]
  rfl

theorem allErrors_reword (screens : List Screen) : ∀ taken : TakenNames,
    taken.allErrors (app.reword raw) (screens.map fun screen => screen.reword (raw screen)) =
      taken.allErrors app screens := by
  induction screens with
  | nil => exact fun _ => rfl
  | cons screen rest ih =>
      intro taken
      simp only [List.map_cons, TakenNames.allErrors, ih]
      rfl

theorem modelNameErrors_reword (models : List DataModel) : ∀ seen : List String,
    (app.reword raw).modelNameErrors seen models = app.modelNameErrors seen models := by
  induction models with
  | nil => exact fun _ => rfl
  | cons model rest ih =>
      intro seen
      rw [modelNameErrors, modelNameErrors, ih]
      rfl

theorem variableErrors_reword (screen : String) (declared : List Variable) :
    ∀ seen : List String, (app.reword raw).variableErrors screen seen declared =
      app.variableErrors screen seen declared := by
  induction declared with
  | nil => exact fun _ => rfl
  | cons v rest ih =>
      intro seen
      rw [variableErrors, variableErrors, ih, ih]
      rfl

theorem screenErrors_reword (catalog : Catalog) (screen : Screen) (tree : NormalTree) :
    (app.reword raw).screenErrors catalog (screen.reword (raw screen)) tree =
      app.screenErrors catalog screen tree := by
  have hnavigation : (app.reword raw).navigationErrors (screen.reword (raw screen)) tree =
      app.navigationErrors screen tree := by
    rw [navigationErrors, navigationErrors]
    simp only [hasScreen_reword]
    rfl
  rw [screenErrors, hnavigation, variableErrors_reword, screenErrors]
  rfl

theorem referenceErrors_reword (catalog : Catalog) (trees : List NormalTree) :
    (app.reword raw).referenceErrors trees catalog = app.referenceErrors trees catalog := by
  have hentry : (app.reword raw).entryErrors = app.entryErrors := by
    rw [entryErrors, hasScreen_reword]
    rfl
  have htabs : (app.reword raw).tabErrors = app.tabErrors := by
    rw [tabErrors, tabErrors]
    simp only [hasScreen_reword]
    rfl
  have hscreens : ((app.reword raw).screens.zip trees).flatMap
      (fun entry => (app.reword raw).screenErrors catalog entry.1 entry.2) =
      (app.screens.zip trees).flatMap fun entry => app.screenErrors catalog entry.1 entry.2 := by
    rw [reword, List.zip_map_left, List.flatMap_map]
    exact List.flatMap_congr fun entry _ => app.screenErrors_reword raw catalog entry.1 entry.2
  rw [referenceErrors, hscreens, hentry, htabs, modelNameErrors_reword]
  exact congrArg (· ++ _ ++ _ ++ _ ++ _ ++ _) (app.allErrors_reword raw app.screens .none)

/-! ### What is generated -/

theorem index_reword :
    ScreenNames.index (app.reword raw).screens = ScreenNames.index app.screens := by
  rw [ScreenNames.index, reword, List.foldl_map]
  rfl

theorem buildScreens_reword (cx : BuildContext) (trees : List NormalTree) :
    Generate.buildScreens cx (app.reword raw) trees = Generate.buildScreens cx app trees := by
  rw [Generate.buildScreens, reword, List.zip_map_left, List.mapM_map]
  rfl

theorem buildEntry_reword (tokens : DesignTokens) (screens : ScreenIndex)
    (types : List Swift.DataType) :
    buildEntry (app.reword raw) tokens screens types = buildEntry app tokens screens types := by
  have hroutes : routesOf screens (app.reword raw).screens = routesOf screens app.screens := by
    rw [routesOf, reword, List.filterMap_map]
    rfl
  unfold buildEntry
  rw [hroutes]
  rfl

theorem usedModels_reword : (app.reword raw).usedModels = app.usedModels := by
  have hdeclared : (app.reword raw).screens.flatMap Screen.declared =
      app.screens.flatMap Screen.declared := by
    rw [reword, List.flatMap_map]
    rfl
  rw [usedModels, heldModels, hdeclared]
  rfl

theorem warnings_reword (trees : List NormalTree) (views : List Swift.ScreenView)
    (tokens : DesignTokens) (depth : Nat) :
    (app.reword raw).warnings trees views tokens depth = app.warnings trees views tokens depth := by
  have hnesting : (app.reword raw).nestingWarnings trees depth =
      app.nestingWarnings trees depth := by
    rw [nestingWarnings, reword, List.zip_map_left, List.filter_map, List.map_map]
    rfl
  have hentries : (app.reword raw).entries = app.entries := by
    rw [entries, reword, List.filter_map, List.map_map]
    rfl
  have hreach : (app.reword raw).reachWarnings views = app.reachWarnings views := by
    rw [reachWarnings, index_reword, reachableScreens, hentries]
    rfl
  have hunused : (app.reword raw).unusedWarnings = app.unusedWarnings := by
    rw [unusedWarnings, usedModels_reword]
    rfl
  rw [warnings, hnesting, hreach, hunused]
  rfl

end AppDefinition

/-! ### What is read of the trees -/

namespace Scope

/-- Bindings are resolved by the identifiers and the types of elements. -/
theorem bindingErrors_trim (catalog : Catalog) (screen : String)
    (bindings : List (Element × DataBinding)) : ∀ scope : Scope,
    bindingErrors catalog screen scope (bindings.map fun entry => (entry.1.trim, entry.2)) =
      bindingErrors catalog screen scope bindings := by
  induction bindings with
  | nil => exact fun _ => rfl
  | cons entry rest ih =>
      intro scope
      obtain ⟨e, b⟩ := entry
      have hresolve : scope.resolveOn catalog e.trim b = scope.resolveOn catalog e b := rfl
      rw [List.map_cons, bindingErrors, bindingErrors, hresolve]
      split
      · exact ih _
      · rw [ih]
        rfl

/-- Of the element that calls a handler, the errors name the identifier. -/
theorem handlerErrors_trim (scope : Scope) (screen : String) (actions : List (Element × Action)) :
    ∀ seen : Entries HandlerParams,
      scope.handlerErrors screen seen (actions.map fun entry => (entry.1.trim, entry.2)) =
        scope.handlerErrors screen seen actions := by
  induction actions with
  | nil => exact fun _ => rfl
  | cons entry rest ih =>
      intro seen
      obtain ⟨e, a⟩ := entry
      simp only [List.map_cons, handlerErrors, ih]
      rfl

end Scope

namespace AppDefinition

variable (app : AppDefinition) (catalog : Catalog) (screen : Screen)

theorem dataErrors_trim {t : NormalTree} (h : t.Sound) :
    app.dataErrors catalog screen t.trim = app.dataErrors catalog screen t := by
  have hknown : t.trim.bindings.filter (fun entry => (catalog.find? entry.1.type).isSome) =
      (t.bindings.filter fun entry => (catalog.find? entry.1.type).isSome).map
        fun entry => (entry.1.trim, entry.2) := by
    rw [NormalTree.bindings_trim, List.filter_map]
    rfl
  have hanimations : ∀ scope : Scope, t.trim.elements.flatMap (fun e =>
      e.animationPaths.flatMap (Scope.animationError screen.id scope e.id)) =
      t.elements.flatMap fun e =>
        e.animationPaths.flatMap (Scope.animationError screen.id scope e.id) := by
    intro scope
    rw [NormalTree.elements_trim, List.flatMap_map]
    rfl
  simp only [dataErrors, hknown, Scope.bindingErrors_trim, hanimations,
    NormalTree.actions_trim h, Scope.handlerErrors_trim]

/-- What leads out of a tree is not among the literals of what is bound in it. -/
theorem screenErrors_trim {t : NormalTree} (h : t.Sound) :
    app.screenErrors catalog screen t.trim = app.screenErrors catalog screen t := by
  rw [screenErrors, dataErrors_trim app catalog screen h, screenErrors]
  rfl

variable {trees : List NormalTree}

theorem referenceErrors_trim (h : ∀ t ∈ trees, t.Sound) :
    app.referenceErrors (trees.map NormalTree.trim) catalog =
      app.referenceErrors trees catalog := by
  rw [referenceErrors, List.zip_map_right, List.flatMap_map, referenceErrors]
  refine congrArg _ (List.flatMap_congr fun entry hentry => ?_)
  exact app.screenErrors_trim catalog entry.1 (h entry.2 (List.of_mem_zip hentry).2)

theorem buildScreens_trim {cx : BuildContext} (hcatalog : cx.catalog = Catalog.standard)
    (h : ∀ t ∈ trees, t.Sound) :
    Generate.buildScreens cx app (trees.map NormalTree.trim) =
      Generate.buildScreens cx app trees := by
  rw [Generate.buildScreens, List.zip_map_right, List.mapM_map, Generate.buildScreens]
  refine mapM_congr fun entry hentry => ?_
  exact congrArg (Generate.within (GenerateError.build entry.1.id))
    (buildScreen_trim hcatalog entry.1 (h entry.2 (List.of_mem_zip hentry).2))

/-- The warnings tell how deep a tree is, and nothing else of it. -/
theorem warnings_trim (views : List Swift.ScreenView) (tokens : DesignTokens) (depth : Nat) :
    app.warnings (trees.map NormalTree.trim) views tokens depth =
      app.warnings trees views tokens depth := by
  have hnesting : app.nestingWarnings (trees.map NormalTree.trim) depth =
      app.nestingWarnings trees depth := by
    rw [nestingWarnings, List.zip_map_right, List.filter_map, List.map_map]
    rfl
  rw [warnings, hnesting, warnings]

end AppDefinition

/-! ### Generation with other literals -/

namespace Generate

variable {app : AppDefinition} {raw : Screen → Component → Entries Json}

/-- The trees of all screens are normalized with other literals, to the same trees but for
them. -/
theorem exists_normalizeAll_reword {limits : Limits} {trees : List NormalTree}
    (h : normalizeAll app Catalog.standard limits = .ok trees)
    (hallows : ∀ screen ∈ app.screens, ∀ c ∈ screen.root.preorder, c.Allows (raw screen c)) :
    ∃ trees', normalizeAll (app.reword raw) Catalog.standard limits = .ok trees' ∧
      trees'.map NormalTree.trim = trees.map NormalTree.trim := by
  rw [normalizeAll, AppDefinition.reword, List.mapM_map]
  refine exists_mapM_of_each (fun screen hscreen t ht => ?_) h
  obtain ⟨t', ht', htrim⟩ :=
    exists_normalize_reword (raw screen) (mapError_eq_ok.mp ht) (hallows screen hscreen)
  exact ⟨t', mapError_eq_ok.mpr ht', htrim⟩

theorem sound_of_normalizeAll {limits : Limits} {trees : List NormalTree}
    (h : normalizeAll app Catalog.standard limits = .ok trees) : ∀ t ∈ trees, t.Sound :=
  forall_of_mapM_eq_ok h fun _ _ _ ht => NormalTree.sound_of_normalize (mapError_eq_ok.mp ht)

/-- **An app is generated with other literals as it is with its own.** -/
theorem generate_reword {config : GeneratorConfig} {out : GeneratedApp}
    (h : generate app Catalog.standard config = .ok out)
    (hallows : ∀ screen ∈ app.screens, ∀ c ∈ screen.root.preorder, c.Allows (raw screen c)) :
    generate (app.reword raw) Catalog.standard config = .ok out := by
  obtain ⟨types, trees, views, entry, hrun, hwarned⟩ := exists_run_warnings h
  obtain ⟨trees', htrees', htrim⟩ := exists_normalizeAll_reword hrun.normal hallows
  have hsound := sound_of_normalizeAll hrun.normal
  have hsound' := sound_of_normalizeAll htrees'
  have hreferences' : (app.reword raw).referenceErrors trees' Catalog.standard = [] := by
    rw [app.referenceErrors_reword, ← app.referenceErrors_trim _ hsound', htrim,
      app.referenceErrors_trim _ hsound]
    exact hrun.references
  have hviews' : buildScreens (app.contextIn Catalog.standard) (app.reword raw) trees' =
      .ok views := by
    rw [app.buildScreens_reword, ← app.buildScreens_trim rfl hsound', htrim,
      app.buildScreens_trim rfl hsound]
    exact hrun.screens
  have hentry' : buildEntry (app.reword raw) app.config.designTokens
      (ScreenNames.index app.screens) (valueTypes app types) = .ok entry := by
    rw [app.buildEntry_reword]
    exact hrun.opening
  have hwarnings : (app.reword raw).warnings trees' views app.config.designTokens
      config.nestingWarningDepth = out.warnings := by
    rw [hwarned, app.warnings_reword, ← app.warnings_trim, htrim, app.warnings_trim]
  have hout : out = ⟨_, _⟩ := congrArg₂ GeneratedApp.mk hrun.files hwarnings.symm
  refine bind_eq_ok.mpr ⟨(), mapError_eq_ok.mpr hrun.checked, ?_⟩
  refine bind_eq_ok.mpr ⟨(), mapError_eq_ok.mpr hrun.settings, ?_⟩
  refine bind_eq_ok.mpr ⟨types, hrun.models, bind_eq_ok.mpr ⟨trees', htrees', ?_⟩⟩
  refine bind_eq_ok.mpr ⟨(), checkReferences_eq_ok.mpr hreferences', ?_⟩
  rw [app.index_reword]
  refine bind_eq_ok.mpr ⟨views, hviews', bind_eq_ok.mpr ⟨entry, ?_, ?_⟩⟩
  · rw [valueTypes, app.usedModels_reword]
    exact mapError_eq_ok.mpr hentry'
  · rw [hout]
    rfl

end Generate

end Screenwright
