/-
The lines of generated files.

Every file is printed from lines, and is read back as these lines, without their indentation.  For
the entry and for the data types this holds whatever the catalog is, because nothing of a catalog
goes into them; for the views of screens it holds of the standard catalog.  The names of generated
views are all that keeps this from being seen from the lines alone, and such a name begins with a
letter or a digit.  So the declarations of the entry file and of the data types are found in their
texts.
-/
import Screenwright.Proofs.EntryFile
import Screenwright.Proofs.Lexical.Generated
import Screenwright.Proofs.Lexical.Layout
import Screenwright.Proofs.Opening
import Screenwright.Proofs.TypeNames
import Screenwright.Proofs.Ways

namespace Screenwright

open Steps Swift
open Text (Flush)

/-! ### Names of views -/

theorem Screen.flush_viewType (screen : Screen) : Flush screen.viewType := by
  intro hblank
  have halnum := screen.isAlphanum_of_mem_viewType _ (List.mem_of_mem_head? hblank)
  cases halnum

/-- Whatever view of a screen is made where the ways lead as recorded, its name is flush. -/
theorem AppDefinition.makesFlush_of_leads {app : AppDefinition} {view : ScreenView}
    (h : app.LeadsAsRecorded view) : MakesFlush view.body.effects := by
  obtain ⟨ways, sheets, hways, hleads, hsheets⟩ := h
  intro type htype
  have hway : Effect.view type ∈ view.body.ways := List.mem_filter.mpr ⟨htype, rfl⟩
  rw [hways] at hway
  rcases List.mem_append.mp hway with hway | hway
  · obtain ⟨edge, -, t, -, -, hkind⟩ := exists_of_forall₂ hleads.flip _ hway
    generalize edge.kind = kind at hkind
    cases hkind with
    | tab => exact t.flush_viewType
  · obtain ⟨sheet, hsheet, heq⟩ := List.mem_map.mp hway
    cases heq
    obtain ⟨-, -, -, t, -, -, rfl⟩ := hsheets type hsheet
    exact t.flush_viewType

theorem makesFlush_routedStack {viewType : String} (h : Flush viewType) :
    MakesFlush [.view viewType, .view "routeView"] := by
  intro type htype
  rcases List.mem_pair.mp htype with heq | heq
  · cases heq
    exact h
  · cases heq
    simp [Flush]

theorem AppDefinition.makesFlush_rootView {app : AppDefinition} {first : ScreenNames}
    (hfirst : Flush first.viewType) {root : View} {names : List String}
    (h : rootView (ScreenNames.index app.screens) first app.tabs = .ok (root, names)) :
    MakesFlush root.effects := by
  unfold rootView at h
  split at h
  · cases h
    rw [effects_routedStack]
    exact makesFlush_routedStack hfirst
  · obtain ⟨named, hnamed, h⟩ := bind_eq_ok.mp h
    cases h
    have hitems := AppDefinition.forall₂_of_tabTargets hnamed
    intro type htype
    have hbar : Effect.view type ∈ named.flatMap fun found =>
        [.view found.2.viewType, .view "routeView"] := by
      have hmem : Effect.view type ∈ (View.ofContent .tabView
          [labeled "selection" (.binding "router.selectedTab")]
          (named.map fun found => barTab found.1 found.2)).effects := htype
      rwa [effects_bar] at hmem
    obtain ⟨found, hfound, hmade⟩ := List.mem_flatMap.mp hbar
    obtain ⟨item, -, t, -, -, hnames⟩ := exists_of_forall₂ hitems found hfound
    have hflush : Flush found.2.viewType := hnames ▸ t.flush_viewType
    exact makesFlush_routedStack hflush type hmade

/-! ### Files of data types -/

namespace Swift.DataType

/-- The declaration of a data type that is kept. -/
def classDeclaration (type : DataType) : String × List String :=
  ("final class " ++ type.name ++ " \x7b",
    (type.properties.map fun p =>
        (if p.transient then "@Transient " else "") ++ "var " ++ p.text) ++
      (initializerLines type.properties).map Line.text ++ ["\x7d", ""])

/-- The file of a data type that is kept declares its class and nothing else. -/
theorem declarations_lines (type : DataType) (h : type.persisted = true) :
    declarations (type.lines.map Line.text ++ [""]) = [type.classDeclaration] := by
  have hhead : opensDeclaration type.classDeclaration.1 = true :=
    opensDeclaration_word (by simp [declaring]) type.name (by decide)
  have hproperties : OpensNone (type.properties.map fun p =>
      (if p.transient then "@Transient " else "") ++ "var " ++ p.text) := by
    refine .map fun p _ => ?_
    split <;> exact opensDeclaration_append (by decide) _
  have hinitializer : OpensNone ((initializerLines type.properties).map Line.text) := by
    have hassign : OpensNone (type.properties.map fun p =>
        "self." ++ withoutBackticks p.name ++ " = " ++ p.name) := by
      refine .map fun p _ => ?_
      simp only [String.append_assoc]
      exact opensDeclaration_append (by decide) _
    unfold initializerLines
    split
    · simp +decide
    · simp only [String.append_assoc] at hassign
      simp +decide [Function.comp_def, Line.blank, hassign, String.append_assoc,
        opensDeclaration_append]
  have hdeclaration : IsDeclaration type.classDeclaration := by
    refine ⟨hhead, ?_⟩
    simp +decide [classDeclaration, hproperties, hinitializer]
  have hopen : OpensNone ["import Foundation", "import SwiftData", "", "@Model"] := by
    simp +decide
  have hlines : type.lines.map Line.text ++ [""] =
      ["import Foundation", "import SwiftData", "", "@Model"] ++
        written [type.classDeclaration] := by
    simp [lines, typeLines, h, written, classDeclaration, Line.blank, Function.comp_def]
  rw [hlines, declarations_append hopen,
    declarations_written (List.forall_mem_singleton.mpr hdeclaration)]

end Swift.DataType

/-! ### Modifiers of the first window -/

/-- No modifier of the first window gives types to a store. -/
theorem isStoring_sceneModifiers (accent : Token) (appearance : Appearance)
    (routes : List Route) : ∀ m ∈ sceneModifiers accent appearance routes,
      isStoring ("." ++ m.name ++ "(" ++ argsText m.args ++ ")") = false := by
  have hnames : ∀ m ∈ sceneModifiers accent appearance routes,
      m.name ∈ ["environmentObject", "tint", "preferredColorScheme", "onOpenURL"] := by
    unfold sceneModifiers
    simp only [List.forall_mem_append]
    refine ⟨⟨⟨List.forall_mem_singleton.mpr List.mem_cons_self, ?_⟩, ?_⟩, ?_⟩
    all_goals split <;> simp [ViewModifier.single, ViewModifier.plain, ViewModifier.name]
  have hall : ∀ name ∈ ["environmentObject", "tint", "preferredColorScheme", "onOpenURL"],
      beginsApart storing ("." ++ name) = true := by decide
  intro m hm
  rw [String.append_assoc, String.append_assoc]
  exact any_startsWith_of_beginsApart (hall m.name (hnames m hm)) _

/-! ### Lines that are read back -/

namespace Swift.ScreenView

variable (view : ScreenView) (preview : Bool)

/-- The lines of a screen's view stand in its file. -/
theorem body_infix_lines : view.body.lines 2 <:+: view.lines preview := by
  refine ⟨[⟨0, "import SwiftUI"⟩, .blank, ⟨0, "struct " ++ view.viewType ++ ": View \x7b"⟩] ++
    memberLines view.members ++ [⟨1, "var body: some View \x7b"⟩],
    [⟨1, "\x7d"⟩] ++ view.handlers.flatMap (fun h => .blank :: h.lines) ++ [⟨0, "\x7d"⟩] ++
      (if preview then .blank :: previewLines view else []), ?_⟩
  simp only [lines, viewLines, List.append_assoc]

/-- The members of a screen's view stand in its file, directly behind the first line of the view. -/
theorem members_infix_lines :
    ⟨0, "struct " ++ view.viewType ++ ": View \x7b"⟩ ::
      view.members.map (fun m => ⟨1, m.text⟩) <:+: view.lines preview := by
  refine ⟨[⟨0, "import SwiftUI"⟩, .blank],
    (if view.members.isEmpty then [] else [.blank]) ++ [⟨1, "var body: some View \x7b"⟩] ++
      view.body.lines 2 ++ [⟨1, "\x7d"⟩] ++ view.handlers.flatMap (fun h => .blank :: h.lines) ++
      [⟨0, "\x7d"⟩] ++ (if preview then .blank :: previewLines view else []), ?_⟩
  simp only [lines, viewLines, memberLines, List.append_assoc, List.cons_append, List.nil_append]

end Swift.ScreenView

namespace Generate.Run

variable {app : AppDefinition} {catalog : Catalog} {config : GeneratorConfig} {out : GeneratedApp}
  {types : List DataType} {trees : List NormalTree} {views : List ScreenView} {entry : AppEntry}

/-- The lines of a screen's file are apart. -/
theorem apart_screen (h : Run app Catalog.standard config out types trees views entry)
    (preview : Bool) : ∀ view ∈ views, Line.Apart (view.lines preview) := by
  intro view hview
  obtain ⟨screen, -, tree, -, hbuild⟩ := exists_of_forall₂ h.forall₂_screens view hview
  have htame := h.accepted.tame_views h.screens view hview
  have hname : Flush view.viewType := by
    rw [viewType_of_buildScreen hbuild]
    exact screen.flush_viewType
  have hbody := AppDefinition.makesFlush_of_leads (AppDefinition.leads_of_buildScreen hbuild)
  exact (htame.linesInert preview).apart (by simp [ScreenView.lines, ScreenView.viewLines])
    (ScreenView.allFlush hname hbody preview)

/-- What stands in the lines of a screen's file stands in its text. -/
theorem infix_screen (h : Run app Catalog.standard config out types trees views entry)
    {view : ScreenView} (hview : view ∈ views) {ls : List Line}
    (hin : ls <:+: view.lines config.emitPreviews) : ls.map Line.text <:+:
      Text.codeLines (view.print config.indentWidth config.emitPreviews) := by
  rw [ScreenView.print, (h.apart_screen config.emitPreviews view hview).codeLines_textOf]
  exact (hin.map Line.text).trans (List.prefix_append _ _).isInfix

/-- The file of a screen is found among the files. -/
theorem screen_mem_files (h : Run app catalog config out types trees views entry)
    {view : ScreenView} (hview : view ∈ views) :
    (⟨screenPath (Names.appFolder app.config.name) view.viewType,
      view.print config.indentWidth config.emitPreviews⟩ : SourceFile) ∈ out.files := by
  rw [h.files]
  exact List.mem_append_left _ (List.mem_append_left _ (List.mem_map_of_mem hview))

/-- The lines of a data type are apart. -/
theorem apart_type (h : Run app catalog config out types trees views entry) :
    ∀ type ∈ types, Line.Apart type.lines := fun type htype =>
  (h.tame_types type htype).linesInert.apart (by simp [DataType.lines]) type.allFlush

/-- The lines of the entry are apart. -/
theorem apart_entry (h : Run app catalog config out types trees views entry) :
    Line.Apart entry.lines := by
  have hroutes : ∀ r ∈ entry.routes, Flush r.viewType := by
    rw [h.routes_eq]
    refine List.forall_mem_map.mpr fun screen _ => ?_
    rw [Screen.viewType_route]
    exact screen.flush_viewType
  obtain ⟨t, -, -, -, hroot⟩ := h.exists_opening
  have hmakes := AppDefinition.makesFlush_rootView t.flush_viewType hroot
  exact h.tame_entry.linesInert.apart (by simp [AppEntry.lines]) (AppEntry.allFlush hroutes hmakes)

/-! ### What the texts declare -/

/-- **What the text of a type that is kept declares.** -/
theorem declarations_type (h : Run app catalog config out types trees views entry)
    {type : DataType} (htype : type ∈ types) (hkept : type.persisted = true) (width : Nat) :
    declarations (Text.codeLines (type.print width)) = [type.classDeclaration] := by
  rw [DataType.print, (h.apart_type type htype).codeLines_textOf,
    type.declarations_lines hkept]

/-- The entry file is found among the files. -/
theorem entry_mem_files (h : Run app catalog config out types trees views entry) :
    (⟨entryPath (Names.appFolder app.config.name) entry.appType,
      entry.print config.indentWidth⟩ : SourceFile) ∈ out.files := by
  rw [h.files]
  exact List.mem_append_right _ List.mem_cons_self

/-- **What the text of the entry file declares.** -/
theorem declarations_entry (h : Run app catalog config out types trees views entry) (width : Nat) :
    declarations (Text.codeLines (entry.print width)) = entry.declared := by
  rw [AppEntry.print, h.apart_entry.codeLines_textOf,
    AppEntry.declarations_lines h.persisted_of_mem_valueTypes]

/-- **What the text of the entry file gives to the store.** -/
theorem filter_isStoring_entry (h : Run app catalog config out types trees views entry)
    (width : Nat) :
    (bodyOf ("struct " ++ entry.appType ++ ": App \x7b")
      (Text.codeLines (entry.print width))).filter isStoring = entry.store.typeTexts := by
  have hscene : ∀ m ∈ entry.sceneModifiers,
      isStoring ("." ++ m.name ++ "(" ++ argsText m.args ++ ")") = false := by
    obtain ⟨_, _, _, accent, -, -, -, hentry⟩ := exists_of_buildEntry h.opening
    rw [hentry]
    exact isStoring_sceneModifiers accent _ _
  have hbody : bodyOf ("struct " ++ entry.appType ++ ": App \x7b")
      (Text.codeLines (entry.print width)) = entry.appDeclaration.2 := by
    rw [bodyOf, h.declarations_entry]
    exact congrArg (Option.getD · []) AppEntry.lookup_app
  rw [hbody, AppEntry.filter_isStoring_app hscene]

end Generate.Run

end Screenwright
