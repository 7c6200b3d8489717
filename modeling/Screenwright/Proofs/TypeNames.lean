/-
The types of an app, and the files that they are written to.

A generated app declares the views of its screens, the types of the data models that it keeps or
uses, and the app, its routes, its router and its root view.  Views are checked against all of
these, and data models against the last four; but data models are told apart by their names in
the definition, and two of these can fall into the same type name.  So the types are distinct
exactly if those of the data models are.  A view and a data model that is kept have a file each,
which is named like the type, so the same holds of the files and the models that are kept; and
where the files are distinct, writing them loses none.  `files_of_twins` is an accepted app in
which two data models have one type, and so one file.
-/
import Screenwright.Proofs.Opening
import Screenwright.Proofs.Ways
import Screenwright.Proofs.Writing

namespace Screenwright

open Steps Swift

/-! ### The types of data models -/

/-- The type that a data model has become. -/
structure TypeOf (model : DataModel) (type : DataType) : Prop where
  name : Names.typeName? model.name = some type.name
  persisted : type.persisted = model.persisted
  free : type.name ∉ reservedTypes

theorem typeOf_of_build {models : List DataModel} {model : DataModel} {type : DataType}
    (h : model.build models = .ok type) : TypeOf model type := by
  unfold DataModel.build at h
  split at h
  next name hname =>
    dsimp only at h
    split at h
    · cases h
    next hfree =>
      obtain ⟨properties, -, h⟩ := bind_eq_ok.mp h
      cases h
      exact ⟨hname, rfl, fun hmem => hfree (List.contains_iff_mem.mpr hmem)⟩
  · cases h

namespace AppDefinition

/-- The data models that an app emits: those that are kept, then the others in use. -/
def emittedModels (app : AppDefinition) : List DataModel :=
  app.persistedModels ++
    app.models.filter fun m => !m.persisted && app.usedModels.contains m.name

/-- The type of the app is not one of the types that every app has. -/
theorem appTypeName_not_mem (appName : String) : Names.appTypeName appName ∉ reservedTypes := by
  intro hmem
  have hlast : (Names.appTypeName appName).toList.getLast? = some 'p' := by
    simp [Names.appTypeName]
  have hother : ∀ type ∈ reservedTypes, type.toList.getLast? ≠ some 'p' := by decide
  exact hother _ hmem hlast

theorem ne_appTypeName_of_modelNameErrors {app : AppDefinition} {models : List DataModel} :
    ∀ {seen : List String}, app.modelNameErrors seen models = [] →
      ∀ model ∈ models, Names.typeName? model.name ≠ some (Names.appTypeName app.config.name) := by
  induction models with
  | nil => simp
  | cons model rest ih =>
      intro seen h
      obtain ⟨-, hself, hrest⟩ := modelNameErrors_cons h
      rw [List.forall_mem_cons]
      exact ⟨hself, ih hrest⟩

end AppDefinition

/-- What some items have become, chosen among all by the items. -/
theorem forall₂_filter_zip {α β : Type} {r : α → β → Prop} {xs : List α} {ys : List β}
    (h : List.Forall₂ r xs ys) (p : α → Bool) :
    List.Forall₂ r (xs.filter p) (((xs.zip ys).filter fun entry => p entry.1).map Prod.snd) := by
  induction h with
  | nil => exact .nil
  | @cons x y xs ys hxy _ ih =>
      rw [List.zip_cons_cons]
      by_cases hp : p x = true
      · rw [List.filter_cons_of_pos hp, List.filter_cons_of_pos (by exact hp)]
        exact .cons hxy ih
      · rwa [List.filter_cons_of_neg hp, List.filter_cons_of_neg (by exact hp)]

/-- The types of data models are named as the models say. -/
theorem map_name_of_forall₂ {models : List DataModel} {types : List DataType}
    (h : List.Forall₂ TypeOf models types) :
    (types.map fun t => some t.name) = models.map fun m => Names.typeName? m.name := by
  induction h with
  | nil => rfl
  | cons htype _ ih => rw [List.map_cons, List.map_cons, ih, htype.name]

/-- The types that are kept are those of the models that are kept. -/
theorem forall₂_filter_persisted {r : DataModel → DataType → Prop} {models : List DataModel}
    {types : List DataType} (hr : ∀ model type, r model type → TypeOf model type)
    (h : List.Forall₂ r models types) :
    List.Forall₂ r (models.filter fun m => m.persisted) (types.filter fun t => t.persisted) := by
  refine List.rel_filter (fun model type htype => ?_) h
  show model.persisted = true ↔ type.persisted = true
  rw [(hr model type htype).persisted]

/-- Types have distinct names exactly if the names that they are known by are distinct. -/
theorem nodup_map_name_iff {types : List DataType} {names : List (Option String)}
    (h : (types.map fun t => some t.name) = names) :
    (types.map DataType.name).Nodup ↔ names.Nodup := by
  have hsome : names = (types.map DataType.name).map some := by
    rw [← h, List.map_map]
    rfl
  rw [hsome, List.nodup_map_iff fun _ _ heq => Option.some.inj heq]

/-! ### Paths of files -/

namespace Swift

/-- The pieces of the path of a file in one of the folders of an app. -/
theorem segments_ofKind {folder kind type : String} (hfolder : '/' ∉ folder.toList)
    (hkind : '/' ∉ kind.toList) (htype : '/' ∉ type.toList) :
    Text.segments '/' (folder ++ "/" ++ (kind ++ "/" ++ (type ++ ".swift"))) =
      [folder, kind, type ++ ".swift"] := by
  have hname : '/' ∉ (type ++ ".swift").toList := by simp [htype]
  rw [Text.segments_append, Text.segments_append, Text.segments_of_not_mem hfolder,
    Text.segments_of_not_mem hkind, Text.segments_of_not_mem hname]
  rfl

/-- The pieces of the path of a view's file. -/
theorem segments_screenPath {folder viewType : String} (hfolder : '/' ∉ folder.toList)
    (htype : '/' ∉ viewType.toList) :
    Text.segments '/' (screenPath folder viewType) = [folder, "Views", viewType ++ ".swift"] := by
  have hpath : screenPath folder viewType =
      folder ++ "/" ++ ("Views" ++ "/" ++ (viewType ++ ".swift")) := by
    simp [screenPath, ← String.toList_inj]
  rw [hpath]
  exact segments_ofKind hfolder (by decide) htype

/-- The pieces of the path of a data model's file. -/
theorem segments_modelPath {folder type : String} (hfolder : '/' ∉ folder.toList)
    (htype : '/' ∉ type.toList) :
    Text.segments '/' (modelPath folder type) = [folder, "Models", type ++ ".swift"] := by
  have hpath : modelPath folder type =
      folder ++ "/" ++ ("Models" ++ "/" ++ (type ++ ".swift")) := by
    simp [modelPath, ← String.toList_inj]
  rw [hpath]
  exact segments_ofKind hfolder (by decide) htype

/-- The pieces of the path of the entry file. -/
theorem segments_entryPath {folder appType : String} (hfolder : '/' ∉ folder.toList)
    (htype : '/' ∉ appType.toList) :
    Text.segments '/' (entryPath folder appType) = [folder, appType ++ ".swift"] := by
  have hpath : entryPath folder appType = folder ++ "/" ++ (appType ++ ".swift") := by
    simp [entryPath, ← String.toList_inj]
  have hname : '/' ∉ (appType ++ ".swift").toList := by simp [htype]
  rw [hpath, Text.segments_append, Text.segments_of_not_mem hfolder,
    Text.segments_of_not_mem hname]
  rfl

end Swift

/-- A name of letters and digits is an ordinary one. -/
theorem FileTree.ordinary_of_isAlphanum {name : String} (hne : name ≠ "")
    (h : ∀ c ∈ name.toList, c.isAlphanum = true) : Ordinary name := by
  refine ⟨hne, ?_, ?_⟩
  · rintro rfl
    exact absurd (h '.' (by decide)) (by decide)
  · rintro rfl
    exact absurd (h '.' (by decide)) (by decide)

/-- The name of a source file is an ordinary one. -/
theorem FileTree.ordinary_sourceName (name : String) : Ordinary (name ++ ".swift") := by
  have hlength : 6 ≤ (name ++ ".swift").length := by
    rw [String.length_append]
    exact Nat.le_add_left 6 _
  have hne : ∀ short : String, short.length < 6 → name ++ ".swift" ≠ short := by
    rintro short hshort rfl
    omega
  exact ⟨hne "" (by decide), hne "." (by decide), hne ".." (by decide)⟩

theorem Names.appFolder_ne_empty (appName : String) : appFolder appName ≠ "" := by
  unfold appFolder
  cases h : typeName? appName with
  | none => decide
  | some name =>
      obtain ⟨cs, hcs, rfl⟩ := Option.map_eq_some_iff.mp h
      intro hempty
      have hnil : cs = [] := by
        have hlist := congrArg String.toList hempty
        simpa using hlist
      unfold typeNameChars at hcs
      split at hcs
      · cases hcs
      · rw [hnil, Option.some.injEq] at hcs
        split at hcs
        · cases hcs
        · cases hcs

/-! ### Names of letters and digits -/

/-- A name of letters and digits has no slash. -/
theorem Names.slash_not_mem {name : String} (h : ∀ c ∈ name.toList, c.isAlphanum = true) :
    '/' ∉ name.toList := by
  intro hmem
  have hslash := h '/' hmem
  cases hslash

theorem Names.isAlphanum_of_mem_appTypeName (appName : String) :
    ∀ c ∈ (appTypeName appName).toList, c.isAlphanum = true := by
  intro c hc
  rw [appTypeName, String.toList_append] at hc
  rcases List.mem_append.mp hc with hc | hc
  · exact isAlphanum_of_mem_appFolder appName c hc
  · exact List.all_eq_true.mp (by decide : "App".toList.all Char.isAlphanum = true) c hc

/-! ### The types of an app -/

namespace Generate

/-- The types of the data models that an app emits: in files of their own, and in the entry. -/
def emittedTypes (types : List DataType) (entry : AppEntry) : List DataType :=
  types.filter (fun t => t.persisted) ++ entry.valueTypes

/-- The names of all types that an app declares. -/
def typeNames (types : List DataType) (views : List ScreenView) (entry : AppEntry) :
    List String :=
  views.map ScreenView.viewType ++ (emittedTypes types entry).map DataType.name ++
    entry.appType :: reservedTypes

namespace Run

variable {app : AppDefinition} {catalog : Catalog} {config : GeneratorConfig} {out : GeneratedApp}
  {types : List DataType} {trees : List NormalTree} {views : List ScreenView} {entry : AppEntry}

theorem forall₂_models (h : Run app catalog config out types trees views entry) :
    List.Forall₂ TypeOf app.models types := by
  refine (mapM_eq_ok.mp h.models).imp fun model type hbuild => ?_
  exact typeOf_of_build (mapError_eq_ok.mp hbuild)

theorem map_viewType (h : Run app catalog config out types trees views entry) :
    views.map ScreenView.viewType = app.screens.map Screen.viewType := by
  have hall : List.Forall₂ (fun screen view => ScreenView.viewType view = Screen.viewType screen)
      app.screens views := by
    refine h.forall₂_screens.imp fun screen view hbuild => ?_
    obtain ⟨tree, -, hbuild⟩ := hbuild
    exact viewType_of_buildScreen hbuild
  have heq : List.Forall₂ Eq (views.map ScreenView.viewType) (app.screens.map Screen.viewType) := by
    rw [List.forall₂_map_left_iff, List.forall₂_map_right_iff]
    exact hall.flip
  rwa [List.forall₂_eq_eq_eq] at heq

theorem entry_eq (h : Run app catalog config out types trees views entry) :
    entry.appType = Names.appTypeName app.config.name ∧
      entry.valueTypes = valueTypes app types := by
  obtain ⟨_, _, _, _, -, -, -, rfl⟩ := exists_of_buildEntry h.opening
  exact ⟨rfl, rfl⟩

/-- The value types are not kept. -/
theorem persisted_of_mem_valueTypes (h : Run app catalog config out types trees views entry) :
    ∀ type ∈ entry.valueTypes, type.persisted = false := by
  have hall := forall₂_filter_zip h.forall₂_models fun m =>
    !m.persisted && app.usedModels.contains m.name
  intro type htype
  rw [h.entry_eq.2, valueTypes] at htype
  obtain ⟨model, hmodel, hof⟩ := exists_of_forall₂ hall type htype
  rw [hof.persisted]
  simpa using (Bool.and_eq_true_iff.mp (List.mem_filter.mp hmodel).2).1

/-- The emitted types are those of the emitted models. -/
theorem map_name_emittedTypes (h : Run app catalog config out types trees views entry) :
    ((emittedTypes types entry).map fun t => some t.name) =
      app.emittedModels.map fun m => Names.typeName? m.name := by
  have hvalue : (entry.valueTypes.map fun t => some t.name) =
      (app.models.filter fun m => !m.persisted && app.usedModels.contains m.name).map
        fun m => Names.typeName? m.name := by
    rw [h.entry_eq.2]
    exact map_name_of_forall₂ (forall₂_filter_zip h.forall₂_models _)
  have hkept := forall₂_filter_persisted (fun _ _ htype => htype) h.forall₂_models
  rw [emittedTypes, AppDefinition.emittedModels, List.map_append, List.map_append, hvalue,
    map_name_of_forall₂ hkept]
  rfl

/-- Every emitted type is that of a data model. -/
theorem exists_typeOf (h : Run app catalog config out types trees views entry) {type : DataType}
    (htype : type ∈ emittedTypes types entry) : ∃ model ∈ app.models, TypeOf model type := by
  have hmem : type ∈ types := by
    rcases List.mem_append.mp htype with htype | htype
    · exact List.mem_of_mem_filter htype
    · rw [h.entry_eq.2, valueTypes] at htype
      obtain ⟨found, hfound, rfl⟩ := List.mem_map.mp htype
      exact (List.of_mem_zip (List.mem_of_mem_filter hfound)).2
  exact exists_of_forall₂ h.forall₂_models type hmem

/-- **The types of an app are distinct exactly if those of its data models are.** -/
theorem nodup_typeNames_iff (h : Run app catalog config out types trees views entry) :
    (typeNames types views entry).Nodup ↔
      (app.emittedModels.map fun m => Names.typeName? m.name).Nodup := by
  have hnames := h.namesApart
  have happ := AppDefinition.ne_appTypeName_of_modelNameErrors h.faultless.models
  rw [← nodup_map_name_iff h.map_name_emittedTypes, typeNames, h.map_viewType, h.entry_eq.1]
  constructor
  · intro hnodup
    exact (List.nodup_append.mp (List.nodup_append.mp hnodup).1).2.1
  · intro hnodup
    rw [List.nodup_append, List.nodup_append]
    refine ⟨⟨hnames.viewTypes, hnodup, ?_⟩, ?_, ?_⟩
    · intro viewType hview name hname heq
      obtain ⟨screen, hscreen, rfl⟩ := List.mem_map.mp hview
      obtain ⟨type, htype, rfl⟩ := List.mem_map.mp hname
      obtain ⟨model, hmodel, hof⟩ := h.exists_typeOf htype
      exact hnames.ofModels screen hscreen model hmodel (by rw [hof.name, heq])
    · refine List.nodup_cons.mpr ⟨AppDefinition.appTypeName_not_mem app.config.name, ?_⟩
      decide
    · intro name hname other hother heq
      rw [← heq] at hother
      rcases List.mem_append.mp hname with hname | hname
      · obtain ⟨screen, hscreen, rfl⟩ := List.mem_map.mp hname
        exact hnames.ofApp screen hscreen hother
      · obtain ⟨type, htype, rfl⟩ := List.mem_map.mp hname
        obtain ⟨model, hmodel, hof⟩ := h.exists_typeOf htype
        rcases List.mem_cons.mp hother with heq | hother
        · exact happ model hmodel (by rw [hof.name, heq])
        · exact hof.free hother

/-! ### The files of an app -/

/-- The paths of the files: of the views, of the models that are kept, and of the entry. -/
theorem map_path_files (h : Run app catalog config out types trees views entry) :
    out.files.map SourceFile.path =
      (app.screens.map Screen.viewType).map (screenPath (Names.appFolder app.config.name)) ++
        ((types.filter fun t => t.persisted).map DataType.name).map
          (modelPath (Names.appFolder app.config.name)) ++
        [entryPath (Names.appFolder app.config.name) (Names.appTypeName app.config.name)] := by
  rw [h.files, List.map_append, List.map_append, ← h.map_viewType, h.entry_eq.1, screenFiles,
    modelFiles, List.map_map, List.map_map, List.map_map, List.map_map]
  rfl

theorem slash_not_mem_appFolder (app : AppDefinition) :
    '/' ∉ (Names.appFolder app.config.name).toList :=
  Names.slash_not_mem (Names.isAlphanum_of_mem_appFolder app.config.name)

/-- The pieces of the path of a view's file. -/
theorem segments_of_mem_viewPaths {path : String}
    (hpath : path ∈ (app.screens.map Screen.viewType).map
      (screenPath (Names.appFolder app.config.name))) :
    ∃ type, Text.segments '/' path =
      [Names.appFolder app.config.name, "Views", type ++ ".swift"] := by
  obtain ⟨viewType, htype, rfl⟩ := List.mem_map.mp hpath
  obtain ⟨screen, -, rfl⟩ := List.mem_map.mp htype
  have hslash := Names.slash_not_mem screen.isAlphanum_of_mem_viewType
  exact ⟨_, segments_screenPath (slash_not_mem_appFolder app) hslash⟩

/-- The pieces of the path of a data model's file. -/
theorem segments_of_mem_modelPaths (h : Run app catalog config out types trees views entry)
    {path : String} (hpath : path ∈ ((types.filter fun t => t.persisted).map DataType.name).map
      (modelPath (Names.appFolder app.config.name))) :
    ∃ type, Text.segments '/' path =
      [Names.appFolder app.config.name, "Models", type ++ ".swift"] := by
  obtain ⟨name, hname, rfl⟩ := List.mem_map.mp hpath
  obtain ⟨type, htype, rfl⟩ := List.mem_map.mp hname
  obtain ⟨model, -, hof⟩ := h.exists_typeOf (List.mem_append_left _ htype)
  have hslash := Names.slash_not_mem (Names.isAlphanum_of_mem_typeName? hof.name)
  exact ⟨_, segments_modelPath (slash_not_mem_appFolder app) hslash⟩

/-- The pieces of the path of the entry's file. -/
theorem segments_entryFile (app : AppDefinition) :
    Text.segments '/' (entryPath (Names.appFolder app.config.name)
        (Names.appTypeName app.config.name)) =
      [Names.appFolder app.config.name, Names.appTypeName app.config.name ++ ".swift"] := by
  have hslash := Names.slash_not_mem (Names.isAlphanum_of_mem_appTypeName app.config.name)
  exact segments_entryPath (slash_not_mem_appFolder app) hslash

theorem ordinary_files (h : Run app catalog config out types trees views entry) :
    ∀ file ∈ out.files, ∀ name ∈ Text.segments '/' file.path, FileTree.Ordinary name := by
  have hfolder := FileTree.ordinary_of_isAlphanum (Names.appFolder_ne_empty app.config.name)
    (Names.isAlphanum_of_mem_appFolder app.config.name)
  have hviews : FileTree.Ordinary "Views" := ⟨by decide, by decide, by decide⟩
  have hmodels : FileTree.Ordinary "Models" := ⟨by decide, by decide, by decide⟩
  intro file hfile
  have hpath := List.mem_map_of_mem (f := SourceFile.path) hfile
  rw [h.map_path_files, List.mem_append, List.mem_append, List.mem_singleton] at hpath
  rcases hpath with (hpath | hpath) | hpath
  · obtain ⟨type, hsegments⟩ := segments_of_mem_viewPaths hpath
    rw [hsegments, List.forall_mem_cons, List.forall_mem_cons, List.forall_mem_singleton]
    exact ⟨hfolder, hviews, FileTree.ordinary_sourceName type⟩
  · obtain ⟨type, hsegments⟩ := h.segments_of_mem_modelPaths hpath
    rw [hsegments, List.forall_mem_cons, List.forall_mem_cons, List.forall_mem_singleton]
    exact ⟨hfolder, hmodels, FileTree.ordinary_sourceName type⟩
  · rw [hpath, segments_entryFile, List.forall_mem_cons, List.forall_mem_singleton]
    exact ⟨hfolder, FileTree.ordinary_sourceName _⟩

/-- **The files of an app are distinct exactly if the types of the models that are kept are.** -/
theorem nodup_paths_iff (h : Run app catalog config out types trees views entry) :
    (out.files.map SourceFile.path).Nodup ↔
      (app.persistedModels.map fun m => Names.typeName? m.name).Nodup := by
  have hkept := map_name_of_forall₂
    (forall₂_filter_persisted (fun _ _ htype => htype) h.forall₂_models)
  rw [AppDefinition.persistedModels, ← nodup_map_name_iff hkept, h.map_path_files]
  constructor
  · intro hnodup
    exact (List.nodup_append.mp (List.nodup_append.mp hnodup).1).2.1.of_map
  · intro hnodup
    have hnames := h.namesApart
    rw [List.nodup_append, List.nodup_append]
    refine ⟨⟨?_, ?_, ?_⟩, List.nodup_singleton _, ?_⟩
    · exact hnames.viewTypes.map fun _ _ heq => Text.between_inj.mp heq
    · exact hnodup.map fun _ _ heq => Text.between_inj.mp heq
    · intro path hpath other hother heq
      obtain ⟨type, hfirst⟩ := segments_of_mem_viewPaths hpath
      obtain ⟨type', hsecond⟩ := h.segments_of_mem_modelPaths hother
      rw [heq, hsecond] at hfirst
      simp at hfirst
    · intro path hpath other hother heq
      rw [List.mem_singleton] at hother
      rw [heq, hother] at hpath
      rcases List.mem_append.mp hpath with hpath | hpath
      · obtain ⟨type, hsegments⟩ := segments_of_mem_viewPaths hpath
        rw [segments_entryFile] at hsegments
        simp at hsegments
      · obtain ⟨type, hsegments⟩ := h.segments_of_mem_modelPaths hpath
        rw [segments_entryFile] at hsegments
        simp at hsegments

end Run

end Generate

/-- **When the types and the files of an app are distinct.**  In every generated app, over any
catalog, the types are distinct exactly if no two of the data models that it emits have names
that fall into one type name, and the files are distinct exactly if this holds of the data
models that are kept.  Where the files are distinct, writing them below a folder loses none. -/
theorem types_and_files_distinct_iff (app : AppDefinition) (catalog : Catalog)
    (config : GeneratorConfig) (out : GeneratedApp) (h : generate app catalog config = .ok out) :
    ∃ types trees views entry, Generate.Run app catalog config out types trees views entry ∧
      ((Generate.typeNames types views entry).Nodup ↔
        (app.emittedModels.map fun m => Names.typeName? m.name).Nodup) ∧
      ((out.files.map SourceFile.path).Nodup ↔
        (app.persistedModels.map fun m => Names.typeName? m.name).Nodup) ∧
      ((out.files.map SourceFile.path).Nodup → ∀ folder tree result after,
        Command.runOn tree (Command.writeFiles FileTree.disk folder out.files) =
          (result, after) →
        Command.Wrote folder out.files result after) := by
  obtain ⟨types, trees, views, entry, hrun⟩ := Generate.exists_run h
  refine ⟨types, trees, views, entry, hrun, hrun.nodup_typeNames_iff, hrun.nodup_paths_iff, ?_⟩
  intro hnodup folder tree result after hwrite
  exact Command.wrote_of_writeFiles hrun.ordinary_files hnodup hwrite

/-- An app with a data model that is kept and one that is only used. -/
def Generate.shelf : AppDefinition where
  config := ⟨"Notes", "com.example.notes", "1.0.0", .standard, .standard, true, false⟩
  screens :=
    [⟨"home", "Home", none, [], [⟨"picked", .model "tag", none⟩],
      .node ⟨"body", "Text", [("content", .string "Notes")], [], []⟩ []⟩]
  models :=
    [⟨"note", [⟨"title", .string, none, true⟩], true⟩,
      ⟨"tag", [⟨"label", .string, none, true⟩], false⟩]
  entryScreen := "home"
  tabBar := none

/-- The shelf is generated. -/
theorem types_and_files_of_shelf :
    ∃ out, generate Generate.shelf Catalog.standard .standard = .ok out ∧
      ∃ types trees views entry,
        Generate.Run Generate.shelf Catalog.standard .standard out types trees views entry ∧
        ((Generate.typeNames types views entry).Nodup ↔
          (Generate.shelf.emittedModels.map fun m => Names.typeName? m.name).Nodup) ∧
        ((out.files.map SourceFile.path).Nodup ↔
          (Generate.shelf.persistedModels.map fun m => Names.typeName? m.name).Nodup) ∧
        ((out.files.map SourceFile.path).Nodup → ∀ folder tree result after,
          Command.runOn tree (Command.writeFiles FileTree.disk folder out.files) =
            (result, after) →
          Command.Wrote folder out.files result after) := by
  have haccepts : Generate.accepts Generate.shelf .standard = true := by decide +kernel
  obtain ⟨out, hout⟩ := Generate.exists_generate_of_accepts haccepts
  exact ⟨out, hout, types_and_files_distinct_iff Generate.shelf Catalog.standard .standard out hout⟩

/-! ### Models that fall into one type -/

/-- An app with two data models that are kept and whose names differ in their first letter. -/
def twins : AppDefinition where
  config := ⟨"Notes", "com.example.notes", "1.0.0", .standard, .standard, true, false⟩
  screens := [⟨"home", "Home", none, [], [], .node ⟨"t", "Text", [], [], []⟩ []⟩]
  models :=
    [⟨"note", [⟨"title", .string, none, true⟩], true⟩,
      ⟨"Note", [⟨"body", .string, none, true⟩], true⟩]
  entryScreen := "home"
  tabBar := none

/-- **An accepted app with two types of one name and two files of one path.** -/
theorem files_of_twins :
    ∃ out, generate twins Catalog.standard .standard = .ok out ∧
      ∃ types trees views entry,
        Generate.Run twins Catalog.standard .standard out types trees views entry ∧
        ¬ (Generate.typeNames types views entry).Nodup ∧
        ¬ (out.files.map SourceFile.path).Nodup := by
  have haccepts : Generate.accepts twins .standard = true := by decide +kernel
  obtain ⟨out, hout⟩ := Generate.exists_generate_of_accepts haccepts
  obtain ⟨types, trees, views, entry, hrun⟩ := Generate.exists_run hout
  have hemitted : ¬ (twins.emittedModels.map fun m => Names.typeName? m.name).Nodup := by
    decide +kernel
  have hkept : ¬ (twins.persistedModels.map fun m => Names.typeName? m.name).Nodup := by
    decide +kernel
  exact ⟨out, hout, types, trees, views, entry, hrun,
    fun hnodup => hemitted (hrun.nodup_typeNames_iff.mp hnodup),
    fun hnodup => hkept (hrun.nodup_paths_iff.mp hnodup)⟩

end Screenwright
