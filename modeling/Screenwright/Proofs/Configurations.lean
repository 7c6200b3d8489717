/-
What the configuration does to a generated app.

Two runs on one app, under two configurations, go through the same steps: the limits decide only
whether there is a tree, and nothing after it reads them.  So both runs come to the same data
types, trees, views and entry, and the files differ in how these are printed.  Every file is made
of lines; the lines do not depend on the width of indentation, and only those of a screen depend
on whether there are previews, which then stand behind all others.
-/
import Screenwright.Proofs.Reachability
import Screenwright.Proofs.SourceLines

namespace Screenwright

open Steps Swift
open Text (Flush unindent indents)

/-! ### One app, two runs -/

theorem normalize_unique {root : ComponentTree} {catalog : Catalog} {limits limits' : Limits}
    {tree tree' : NormalTree} (h : normalize root catalog limits = .ok tree)
    (h' : normalize root catalog limits' = .ok tree') : tree = tree' := by
  obtain ⟨_, hrun, htree⟩ := root_of_normalize h
  obtain ⟨_, hrun', htree'⟩ := root_of_normalize h'
  rw [hrun, Except.ok.injEq, Prod.mk.injEq] at hrun'
  rw [htree, htree', hrun'.1]

/-- Runs over a list that agree wherever both come through give the same. -/
theorem Steps.mapM_unique {ε α β : Type} {f g : α → Except ε β} {xs : List α} {ys zs : List β}
    (hstep : ∀ x ∈ xs, ∀ y z, f x = .ok y → g x = .ok z → y = z) (hf : xs.mapM f = .ok ys)
    (hg : xs.mapM g = .ok zs) : ys = zs := by
  have hys := mapM_eq_ok.mp hf
  have hzs := mapM_eq_ok.mp hg
  clear hf hg
  induction hys generalizing zs with
  | nil =>
      cases hzs
      rfl
  | cons hy _ ih =>
      rw [List.forall_mem_cons] at hstep
      cases hzs with
      | cons hz hrest => rw [hstep.1 _ _ hy hz, ih hstep.2 hrest]

namespace Generate

variable {app : AppDefinition} {catalog : Catalog} {config config' : GeneratorConfig}
  {out out' : GeneratedApp} {types types' : List DataType} {trees trees' : List NormalTree}
  {views views' : List ScreenView} {entry entry' : AppEntry}

theorem normalizeAll_unique {limits limits' : Limits}
    (h : normalizeAll app catalog limits = .ok trees)
    (h' : normalizeAll app catalog limits' = .ok trees') : trees = trees' :=
  mapM_unique (fun _ _ _ _ htree htree' =>
    normalize_unique (mapError_eq_ok.mp htree) (mapError_eq_ok.mp htree')) h h'

/-- Two runs come to the same, whatever their configurations. -/
theorem Run.unique (h : Run app catalog config out types trees views entry)
    (h' : Run app catalog config' out' types' trees' views' entry') :
    types = types' ∧ trees = trees' ∧ views = views' ∧ entry = entry' := by
  have htypes : types = types' := Except.ok.inj (h.models.symm.trans h'.models)
  have htrees : trees = trees' := normalizeAll_unique h.normal h'.normal
  subst htypes htrees
  exact ⟨rfl, rfl, Except.ok.inj (h.screens.symm.trans h'.screens),
    Except.ok.inj (h.opening.symm.trans h'.opening)⟩

end Generate

/-! ### Files as lines -/

/-- A file before it is printed. -/
structure Sketch where
  path : String
  lines : List Line

/-- The printed file. -/
def Sketch.file (width : Nat) (sketch : Sketch) : SourceFile :=
  ⟨sketch.path, Line.textOf width sketch.lines⟩

namespace Generate

/-- The sketch of a screen's file. -/
def screenSketch (app : AppDefinition) (preview : Bool) (view : ScreenView) : Sketch :=
  ⟨screenPath (Names.appFolder app.config.name) view.viewType, view.lines preview⟩

/-- The sketches of the files of data models, and of the entry. -/
def otherSketches (app : AppDefinition) (types : List DataType) (entry : AppEntry) : List Sketch :=
  (types.filter (·.persisted)).map (fun type =>
    ⟨modelPath (Names.appFolder app.config.name) type.name, type.lines⟩) ++
    [⟨entryPath (Names.appFolder app.config.name) entry.appType, entry.lines⟩]

namespace Run

variable {app : AppDefinition} {catalog : Catalog} {config : GeneratorConfig} {out : GeneratedApp}
  {types : List DataType} {trees : List NormalTree} {views : List ScreenView} {entry : AppEntry}

/-- **The files are printed from sketches**, into which no width goes; and into those of the
entry and of data models, no configuration at all. -/
theorem files_eq (h : Run app catalog config out types trees views entry) :
    out.files = (views.map (screenSketch app config.emitPreviews)).map
      (Sketch.file config.indentWidth) ++
        (otherSketches app types entry).map (Sketch.file config.indentWidth) := by
  rw [h.files, screenFiles, modelFiles, otherSketches, List.map_append, List.map_map,
    List.map_map, List.append_assoc]
  rfl

/-- The lines of the other files are apart. -/
theorem apart_others (h : Run app catalog config out types trees views entry) :
    ∀ sketch ∈ otherSketches app types entry, Line.Apart sketch.lines := by
  intro sketch hsketch
  rcases List.mem_append.mp hsketch with hsketch | hsketch
  · obtain ⟨type, htype, rfl⟩ := List.mem_map.mp hsketch
    exact h.apart_type type (List.mem_of_mem_filter htype)
  · rw [List.mem_singleton.mp hsketch]
    exact h.apart_entry

end Run

end Generate

/-! ### Files that differ in their layout -/

/-- Two files that differ in nothing but the width of indentation: without indentation they are
the same text, and line by line the indentation is the same depth, each time the width of one. -/
def AlikeAt (width width' : Nat) (file file' : SourceFile) : Prop :=
  unindent file.content = unindent file'.content ∧
    ∃ depths : List Nat, indents file.content = depths.map (· * width) ∧
      indents file'.content = depths.map (· * width')

/-- The preview of a screen, without indentation. -/
def previewText (viewType : String) (usesRouter : Bool) : String :=
  "#Preview \x7b\n" ++ viewType ++ "()\n" ++
    (if usesRouter then ".environmentObject(Router())\n" else "") ++ "\x7d\n"

/-- Without indentation, the first file is the second with a preview of the screen behind a blank
line. -/
def AddsPreview (screen : Screen) (file bare : SourceFile) : Prop :=
  ∃ usesRouter, unindent file.content =
    unindent bare.content ++ "\n" ++ previewText screen.viewType usesRouter

theorem Sketch.alikeAt (width width' : Nat) {sketch : Sketch} (h : Line.Apart sketch.lines) :
    AlikeAt width width' (sketch.file width) (sketch.file width') :=
  ⟨(h.unindent_textOf width).trans (h.unindent_textOf width').symm, _, h.indents_textOf width,
    h.indents_textOf width'⟩

theorem textOf_previewLines (view : ScreenView) :
    Line.textOf 0 (previewLines view) = previewText view.viewType view.usesRouter := by
  unfold previewLines previewText
  cases view.usesRouter <;> simp [Line.textOf, Line.indented_zero, Text.join, String.append_assoc]

/-- The preview stands behind all other lines. -/
theorem unindent_preview {view : ScreenView} (width width' : Nat)
    (hpreview : Line.Apart (view.lines true)) (hbare : Line.Apart (view.lines false)) :
    unindent (view.print width true) =
      unindent (view.print width' false) ++ "\n" ++
        previewText view.viewType view.usesRouter := by
  have hblank : Line.textOf 0 (.blank :: previewLines view) =
      "\n" ++ previewText view.viewType view.usesRouter := by
    rw [Line.textOf_cons 0 _ (by simp [previewLines]), textOf_previewLines]
    rfl
  have hlines : Line.textOf 0 (view.lines true) =
      Line.textOf 0 (view.lines false) ++ Line.textOf 0 (.blank :: previewLines view) := by
    have hsome : view.lines false ≠ [] := hbare.some
    have hsplit : view.lines true = view.lines false ++ .blank :: previewLines view := by
      simp [ScreenView.lines]
    rw [hsplit, Line.textOf_append 0 hsome (by simp)]
  rw [ScreenView.print, ScreenView.print, hpreview.unindent_textOf, hbare.unindent_textOf, hlines,
    hblank, String.append_assoc]

/-- Files printed from the same sketches at two widths. -/
theorem Sketch.forall₂_alikeAt (width width' : Nat) {sketches : List Sketch}
    (h : ∀ sketch ∈ sketches, Line.Apart sketch.lines) :
    List.Forall₂ (AlikeAt width width') (sketches.map (Sketch.file width))
      (sketches.map (Sketch.file width')) := by
  rw [List.forall₂_map_left_iff, List.forall₂_map_right_iff]
  exact List.forall₂_same.mpr fun sketch hsketch => Sketch.alikeAt width width' (h sketch hsketch)

/-! ### Two configurations -/

/-- What is made of an app under two configurations is the same but for its layout. -/
structure SameButLayout (app : AppDefinition) (config config' : GeneratorConfig)
    (out out' : GeneratedApp) : Prop where
  /-- There are the same files in the same order. -/
  paths : out.files.map SourceFile.path = out'.files.map SourceFile.path
  /-- With previews in both or in none, the files differ in indentation only. -/
  alike : config.emitPreviews = config'.emitPreviews →
    List.Forall₂ (AlikeAt config.indentWidth config'.indentWidth) out.files out'.files
  /-- With previews in one alone, its files of screens have them in addition. -/
  previews : config.emitPreviews = true → config'.emitPreviews = false →
    ∃ (shown : List (Screen × SourceFile × SourceFile)) (rest rest' : List SourceFile),
      shown.map Prod.fst = app.screens ∧ out.files = shown.map (·.2.1) ++ rest ∧
      out'.files = shown.map (·.2.2) ++ rest' ∧
      (∀ entry ∈ shown, AddsPreview entry.1 entry.2.1 entry.2.2 ∧
        entry.2.1.path = screenPath (Names.appFolder app.config.name) entry.1.viewType) ∧
      List.Forall₂ (AlikeAt config.indentWidth config'.indentWidth) rest rest'
  /-- The warnings of deep nesting come from the same trees, and the others are the same. -/
  warnings : ∃ trees rest,
    Generate.normalizeAll app Catalog.standard config.limits = .ok trees ∧
    Generate.normalizeAll app Catalog.standard config'.limits = .ok trees ∧
    out.warnings = app.nestingWarnings trees config.nestingWarningDepth ++ rest ∧
    out'.warnings = app.nestingWarnings trees config'.nestingWarningDepth ++ rest ∧
    ∀ w ∈ rest, ∀ depth, w ∉ app.nestingWarnings trees depth
  /-- Nothing of the output depends on the limits. -/
  limits : config.emitPreviews = config'.emitPreviews → config.indentWidth = config'.indentWidth →
    config.nestingWarningDepth = config'.nestingWarningDepth → out = out'

namespace Generate.Run

variable {app : AppDefinition} {catalog : Catalog} {config config' : GeneratorConfig}
  {out out' : GeneratedApp} {types : List DataType} {trees : List NormalTree}
  {views : List ScreenView} {entry : AppEntry}

theorem paths_eq (h : Run app catalog config out types trees views entry)
    (h' : Run app catalog config' out' types trees views entry) :
    out.files.map SourceFile.path = out'.files.map SourceFile.path := by
  rw [h.files_eq, h'.files_eq]
  simp only [List.map_append, List.map_map]
  rfl

theorem forall₂_alikeAt (h : Run app Catalog.standard config out types trees views entry)
    (h' : Run app Catalog.standard config' out' types trees views entry)
    (hpreviews : config.emitPreviews = config'.emitPreviews) :
    List.Forall₂ (AlikeAt config.indentWidth config'.indentWidth) out.files out'.files := by
  rw [h.files_eq, h'.files_eq, hpreviews]
  refine List.rel_append (Sketch.forall₂_alikeAt _ _ ?_) (Sketch.forall₂_alikeAt _ _ h.apart_others)
  exact List.forall_mem_map.mpr (h.apart_screen config'.emitPreviews)

/-- The files of a screen with and without its preview. -/
def bothFiles (app : AppDefinition) (config config' : GeneratorConfig)
    (built : Screen × ScreenView) : Screen × SourceFile × SourceFile :=
  ⟨built.1, (screenSketch app true built.2).file config.indentWidth,
    (screenSketch app false built.2).file config'.indentWidth⟩

theorem addsPreviews (h : Run app Catalog.standard config out types trees views entry)
    (h' : Run app Catalog.standard config' out' types trees views entry)
    (hpreviews : config.emitPreviews = true) (hbare : config'.emitPreviews = false) :
    ∃ (shown : List (Screen × SourceFile × SourceFile)) (rest rest' : List SourceFile),
      shown.map Prod.fst = app.screens ∧ out.files = shown.map (·.2.1) ++ rest ∧
      out'.files = shown.map (·.2.2) ++ rest' ∧
      (∀ entry ∈ shown, AddsPreview entry.1 entry.2.1 entry.2.2 ∧
        entry.2.1.path = screenPath (Names.appFolder app.config.name) entry.1.viewType) ∧
      List.Forall₂ (AlikeAt config.indentWidth config'.indentWidth) rest rest' := by
  have hlength := h.forall₂_screens.length_eq
  have hviews : (app.screens.zip views).map Prod.snd = views :=
    List.map_snd_zip (Nat.le_of_eq hlength.symm)
  refine ⟨(app.screens.zip views).map (bothFiles app config config'),
    (otherSketches app types entry).map (Sketch.file config.indentWidth),
    (otherSketches app types entry).map (Sketch.file config'.indentWidth), ?_, ?_, ?_, ?_,
    Sketch.forall₂_alikeAt _ _ h.apart_others⟩
  · rw [List.map_map]
    exact List.map_fst_zip (Nat.le_of_eq hlength)
  · rw [h.files_eq, hpreviews]
    nth_rewrite 1 [← hviews]
    simp only [List.map_map]
    rfl
  · rw [h'.files_eq, hbare]
    nth_rewrite 1 [← hviews]
    simp only [List.map_map]
    rfl
  · refine List.forall_mem_map.mpr fun built hbuilt => ?_
    obtain ⟨tree, -, hbuild⟩ := (List.forall₂_iff_zip.mp h.forall₂_screens).2 hbuilt
    have hview := (List.of_mem_zip hbuilt).2
    have hname : built.2.viewType = built.1.viewType := viewType_of_buildScreen hbuild
    simp only [bothFiles, ← hname, AddsPreview]
    exact ⟨⟨built.2.usesRouter, unindent_preview _ _ (h.apart_screen true _ hview)
      (h.apart_screen false _ hview)⟩, rfl⟩

end Generate.Run

/-- **A configuration decides on acceptance, layout, previews and the warnings of deep nesting,
and on nothing else.**  Of an app that is accepted under two configurations, the same files are
made in the same order.  They have the same lines, each at the same depth, but for the previews
behind those of screens; the warnings are the same but for those of deep nesting, which depend on
the depth that is allowed; and the limits decide nothing at all. -/
theorem configurations_decide_layout (app : AppDefinition) (config config' : GeneratorConfig)
    (out out' : GeneratedApp) (h : generate app Catalog.standard config = .ok out)
    (h' : generate app Catalog.standard config' = .ok out') :
    SameButLayout app config config' out out' := by
  obtain ⟨types, trees, views, entry, hrun, hwarnings⟩ := Generate.exists_run_warnings h
  obtain ⟨types', trees', views', entry', hrun', hwarnings'⟩ := Generate.exists_run_warnings h'
  obtain ⟨rfl, rfl, rfl, rfl⟩ := hrun.unique hrun'
  obtain ⟨rest, hrest⟩ := app.split_nested trees views app.config.designTokens
  refine ⟨hrun.paths_eq hrun', hrun.forall₂_alikeAt hrun', hrun.addsPreviews hrun',
    ⟨trees, rest, hrun.normal, hrun'.normal, ?_, ?_, ?_⟩, ?_⟩
  · rw [hwarnings, (hrest _).1]
  · rw [hwarnings', (hrest _).1]
  · exact fun w hw depth => (hrest depth).2 w hw
  · intro hpreviews hwidth hdepth
    have hfiles : out.files = out'.files := by
      rw [hrun.files_eq, hrun'.files_eq, hpreviews, hwidth]
    have hsame : out.warnings = out'.warnings := by
      rw [hwarnings, hwarnings', hdepth]
    cases out
    cases out'
    cases hfiles
    cases hsame
    rfl

/-- A configuration with narrow indentation, small limits and no previews. -/
def GeneratorConfig.compact : GeneratorConfig := ⟨⟨8, 100⟩, 1, false, 2⟩

/-- The sample is generated under both configurations. -/
theorem layout_of_sample :
    ∃ out out', generate Generate.sample Catalog.standard .standard = .ok out ∧
      generate Generate.sample Catalog.standard .compact = .ok out' ∧
      SameButLayout Generate.sample .standard .compact out out' := by
  have hcompact : Generate.accepts Generate.sample .compact = true := by decide +kernel
  obtain ⟨out, hout⟩ := Generate.exists_generate_of_accepts Generate.accepts_sample
  obtain ⟨out', hout'⟩ := Generate.exists_generate_of_accepts hcompact
  exact ⟨out, out', hout, hout',
    configurations_decide_layout Generate.sample .standard .compact out out' hout hout'⟩

end Screenwright
