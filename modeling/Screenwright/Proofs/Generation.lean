/-
What a generated app has come through, whatever its catalog.

`Accepted` speaks of the standard catalog, because there an app that passes the checks is
always generated.  Over another catalog it need not be; but where generation does give an app,
every one of its steps has come through, and that alone carries all that is said about names,
routes and files.
-/
import Screenwright.Proofs.Acceptance

namespace Screenwright

open Steps

namespace AppDefinition

/-- What the views of the screens of an app are made from, in a catalog. -/
def contextIn (app : AppDefinition) (catalog : Catalog) : BuildContext :=
  ⟨catalog, app.config.designTokens, ScreenNames.index app.screens, app.models⟩

end AppDefinition

/-- What an entry is put together from. -/
theorem exists_of_buildEntry {app : AppDefinition} {tokens : DesignTokens} {screens : ScreenIndex}
    {types : List Swift.DataType} {entry : Swift.AppEntry}
    (h : buildEntry app tokens screens types = .ok entry) :
    ∃ first root tabs accent, entryTarget screens "entryScreen" app.entryScreen = .ok first ∧
      rootView screens first app.tabs = .ok (root, tabs) ∧ accentToken tokens = .ok accent ∧
      entry = {
        appType := Names.appTypeName app.config.name
        routes := routesOf screens app.screens
        root := root
        rootCase := first.routeCase
        tabs := tabs
        sceneModifiers := sceneModifiers accent app.config.appearance
          (routesOf screens app.screens)
        store := storeOf app
        valueTypes := types } := by
  obtain ⟨first, hfirst, h⟩ := bind_eq_ok.mp h
  obtain ⟨⟨root, tabs⟩, hroot, h⟩ := bind_eq_ok.mp h
  obtain ⟨accent, haccent, h⟩ := bind_eq_ok.mp h
  cases h
  exact ⟨first, root, tabs, accent, hfirst, hroot, haccent, rfl⟩

namespace Generate

/-- The steps by which an app has been generated. -/
structure Run (app : AppDefinition) (catalog : Catalog) (config : GeneratorConfig)
    (out : GeneratedApp) (types : List Swift.DataType) (trees : List NormalTree)
    (views : List Swift.ScreenView) (entry : Swift.AppEntry) : Prop where
  checked : config.check = .ok ()
  settings : app.config.check = .ok ()
  models : buildModels app = .ok types
  normal : normalizeAll app catalog config.limits = .ok trees
  references : app.referenceErrors trees catalog = []
  screens : buildScreens (app.contextIn catalog) app trees = .ok views
  opening : buildEntry app app.config.designTokens (ScreenNames.index app.screens)
    (valueTypes app types) = .ok entry
  files : out.files = screenFiles (Names.appFolder app.config.name) config views ++
    modelFiles (Names.appFolder app.config.name) config.indentWidth types ++
    [⟨Swift.entryPath (Names.appFolder app.config.name) entry.appType,
      entry.print config.indentWidth⟩]

variable {app : AppDefinition} {catalog : Catalog} {config : GeneratorConfig} {out : GeneratedApp}

/-- Where an app is generated, every step has come through, and its warnings are those of what the
steps gave. -/
theorem exists_run_warnings (h : generate app catalog config = .ok out) :
    ∃ types trees views entry, Run app catalog config out types trees views entry ∧
      out.warnings = app.warnings trees views app.config.designTokens
        config.nestingWarningDepth := by
  obtain ⟨_, hchecked, h⟩ := bind_eq_ok.mp h
  obtain ⟨_, hsettings, h⟩ := bind_eq_ok.mp h
  obtain ⟨types, htypes, h⟩ := bind_eq_ok.mp h
  obtain ⟨trees, htrees, h⟩ := bind_eq_ok.mp h
  obtain ⟨_, hreferences, h⟩ := bind_eq_ok.mp h
  obtain ⟨views, hviews, h⟩ := bind_eq_ok.mp h
  obtain ⟨entry, hentry, h⟩ := bind_eq_ok.mp h
  cases h
  exact ⟨types, trees, views, entry, ⟨mapError_eq_ok.mp hchecked, mapError_eq_ok.mp hsettings,
    htypes, htrees, checkReferences_eq_ok.mp hreferences, hviews, mapError_eq_ok.mp hentry, rfl⟩,
    rfl⟩

/-- **Where an app is generated, every step has come through.** -/
theorem exists_run (h : generate app catalog config = .ok out) :
    ∃ types trees views entry, Run app catalog config out types trees views entry := by
  obtain ⟨types, trees, views, entry, hrun, -⟩ := exists_run_warnings h
  exact ⟨types, trees, views, entry, hrun⟩

namespace Run

variable {types : List Swift.DataType} {trees : List NormalTree}
  {views : List Swift.ScreenView} {entry : Swift.AppEntry}

/-- Over the standard catalog the checks alone say as much. -/
theorem accepted (h : Run app Catalog.standard config out types trees views entry) :
    Accepted app config types trees :=
  ⟨h.checked, h.settings, h.models, h.normal, h.references⟩

theorem faultless (h : Run app catalog config out types trees views entry) :
    app.Faultless trees catalog :=
  AppDefinition.faultless_of_referenceErrors h.references

/-- The views are those of the screens, one by one. -/
theorem forall₂_screens (h : Run app catalog config out types trees views entry) :
    List.Forall₂ (fun screen view => ∃ tree, (screen, tree) ∈ app.screens.zip trees ∧
      buildScreen (app.contextIn catalog) screen tree = .ok view) app.screens views := by
  have hlength := (mapM_eq_ok.mp h.normal).length_eq
  have hall := mapM_eq_ok.mp h.screens
  rw [List.forall₂_iff_get] at hall ⊢
  obtain ⟨hcount, hall⟩ := hall
  rw [List.length_zip, ← hlength, Nat.min_self] at hcount
  refine ⟨hcount, fun i hi hi' => ?_⟩
  have hzip : i < (app.screens.zip trees).length := by
    rw [List.length_zip]
    omega
  have hbuild := hall i hzip hi'
  refine ⟨trees.get ⟨i, by omega⟩, ?_, ?_⟩
  · exact List.mem_iff_get.mpr ⟨⟨i, hzip⟩, by simp⟩
  · simpa using mapError_eq_ok.mp hbuild

/-- Every screen has been normalized and built. -/
theorem exists_screen (h : Run app catalog config out types trees views entry) {screen : Screen}
    (hmem : screen ∈ app.screens) :
    ∃ tree view, (screen, tree) ∈ app.screens.zip trees ∧
      normalize screen.root catalog config.limits = .ok tree ∧
      buildScreen (app.contextIn catalog) screen tree = .ok view := by
  obtain ⟨view, -, tree, hzip, hbuild⟩ := exists_of_forall₂ h.forall₂_screens.flip screen hmem
  have hnormal := (List.forall₂_iff_zip.mp (mapM_eq_ok.mp h.normal)).2 hzip
  exact ⟨tree, view, hzip, mapError_eq_ok.mp hnormal, hbuild⟩

end Run

/-- An app that is generated over the standard catalog has passed all checks. -/
theorem exists_accepted (h : generate app Catalog.standard config = .ok out) :
    ∃ types trees, Accepted app config types trees := by
  obtain ⟨types, trees, _, _, hrun⟩ := exists_run h
  exact ⟨types, trees, hrun.accepted⟩

end Generate

end Screenwright
