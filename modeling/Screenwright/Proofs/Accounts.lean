/-
What becomes of the data models of an app.

Each of them comes out in one of three places: in a file of its own if it is kept, as a structure
in the entry file if it is not kept but in use, and as a warning otherwise.  The three are computed
in different places, from the same list and the same search, so they add up.

In between stand the names.  The store is given the types that it keeps by spelling the names of
the models; members and properties are declared with the spelling of their types.  All of these are
the names of types that the app emits, because what is held by something emitted is in use, and
what is in use, or kept, is emitted.
-/
import Screenwright.Proofs.Calls
import Screenwright.Proofs.Holding
import Screenwright.Proofs.SourceLines
import Screenwright.Proofs.TypeNames
import Screenwright.Proofs.Warnings

namespace Screenwright

open Steps Swift

/-! ### Declarations that the emitted types back -/

namespace Swift

/-- The types that a store keeps. -/
def Store.types : Store → List String
  | none => []
  | «local» types | cloud types => types

/-- A declaration with a type as it is written and an initial value: of the types of data models,
it names and makes only such as are declared. -/
def Backed (declared : List String) (written : String) (initial : Value) : Prop :=
  ∃ type, written = typeText type ∧ initial.Inhabits type ∧
    ∀ model, type.Holds model → typeText (.model model) ∈ declared

/-- A member that is declared with a type is backed. -/
def Member.Backed (declared : List String) : Member → Prop
  | state _ written initial | parameter _ written initial => Swift.Backed declared written initial
  | environment _ _ | router => True

end Swift

/-- How the data models of a generated app are accounted for. -/
structure Accounted (app : AppDefinition) (catalog : Catalog) (config : GeneratorConfig)
    (out : GeneratedApp) (types : List DataType) (views : List ScreenView) (entry : AppEntry) :
    Prop where
  /-- One type for each model that is kept, in order. -/
  kept : List.Forall₂ (fun (model : DataModel) type => model.build app.models = .ok type)
    app.persistedModels (types.filter fun type => type.persisted)
  /-- The files of models are those of these types. -/
  files : (out.files.filter fun file => (Text.segments '/' file.path)[1]? = some "Models") =
    (types.filter fun type => type.persisted).map fun type =>
      ⟨modelPath (Names.appFolder app.config.name) type.name, type.print config.indentWidth⟩
  /-- The text of each of these files declares the class of its type, and nothing else. -/
  classes : ∀ type ∈ types, type.persisted = true →
    declarations (Text.codeLines (type.print config.indentWidth)) = [type.classDeclaration]
  /-- The store keeps these types. -/
  store : entry.store.types = (types.filter fun type => type.persisted).map DataType.name
  /-- The entry file is among the files. -/
  entryFile : (⟨entryPath (Names.appFolder app.config.name) entry.appType,
    entry.print config.indentWidth⟩ : SourceFile) ∈ out.files
  /-- Its text gives the types of the store to the app, in one line. -/
  storeText : (bodyOf ("struct " ++ entry.appType ++ ": App \x7b")
    (Text.codeLines (entry.print config.indentWidth))).filter isStoring = entry.store.typeTexts
  /-- One type for each model that is in use but not kept, in order. -/
  used : ∃ used : List DataModel, used.Sublist app.models ∧
    (∀ model ∈ app.models, model ∈ used ↔
      model.persisted = false ∧ Reached app.Needs app.HoldsModel model.name) ∧
    List.Forall₂ (fun (model : DataModel) type => model.build app.models = .ok type)
      used entry.valueTypes
  /-- The entry file declares the structures of these types, and of no others. -/
  records : entry.lines.filter Line.isRecord =
    entry.valueTypes.map fun type => recordLine type.name
  /-- The text of the entry file declares them, with their properties, and no others. -/
  structures : (declarations (Text.codeLines (entry.print config.indentWidth))).filter
    (fun d => isRecord d.1) = entry.valueTypes.map DataType.declaration
  /-- One warning for each of the other models, in order. -/
  unused : ∃ unused : List DataModel, unused.Sublist app.models ∧
    (∀ model ∈ app.models, model ∈ unused ↔
      model.persisted = false ∧ ¬ Reached app.Needs app.HoldsModel model.name) ∧
    (unused.map fun model => unusedWarning model.name).Nodup ∧
    ∃ before after,
      out.warnings = before ++ (unused.map fun model => unusedWarning model.name) ++ after ∧
      ∀ w ∈ before ++ after, ∀ name, w ≠ unusedWarning name
  /-- The members of the views name emitted types. -/
  members : ∀ view ∈ views, ∀ m ∈ view.members,
    m.Backed ((Generate.emittedTypes types entry).map DataType.name)
  /-- So do the properties of the emitted types. -/
  properties : ∀ type ∈ Generate.emittedTypes types entry, ∀ p ∈ type.properties,
    Backed ((Generate.emittedTypes types entry).map DataType.name) p.type p.default
  /-- Each view has a file, and over the standard catalog its members stand in the text of it. -/
  memberTexts : ∀ view ∈ views,
    (⟨screenPath (Names.appFolder app.config.name) view.viewType,
      view.print config.indentWidth config.emitPreviews⟩ : SourceFile) ∈ out.files ∧
    (catalog = Catalog.standard →
      ("struct " ++ view.viewType ++ ": View \x7b") :: view.members.map Member.text <:+:
        Text.codeLines (view.print config.indentWidth config.emitPreviews))
  /-- No chain of properties leads from a model that is not kept to one that is. -/
  apart : ∀ model ∈ app.models, model.persisted = false → ∀ other ∈ app.models,
    Relation.ReflTransGen app.HoldsModel model.name other.name → other.persisted = false

/-! ### State that bindings bring into being -/

/-- No property of a component expects a value that holds a data model. -/
theorem PropKind.not_holds_of_expectedType? {kind : PropKind} {type : ValueType}
    (h : kind.expectedType? = some type) (model : String) : ¬ type.Holds model := by
  rw [← ValueType.heldModel?_eq_some_iff]
  cases kind with
  | string | number | integer | bool | strings =>
      cases h
      rintro ⟨⟩
  | _ => cases h

namespace Scope

variable {catalog : Catalog} {scope after : Scope} {e : Element} {b : DataBinding}
  {bindings : List (Element × DataBinding)}

/-- The state that has come into being holds no data model. -/
def InfersNone (scope : Scope) : Prop :=
  ∀ entry ∈ scope.inferred, ∀ model, ¬ entry.2.Holds model

theorem Resolves.infersNone (h : Resolves catalog scope e b after) (hscope : scope.InfersNone) :
    after.InfersNone := by
  cases h with
  | declared => exact hscope
  | parameter => exact hscope
  | environment =>
      rw [InfersNone, inferred_useEnvironment]
      exact hscope
  | inferred _ _ _ htype =>
      intro entry hentry
      rcases Entries.mem_putNew hentry with hold | rfl
      · exact hscope entry hold
      · obtain ⟨schema, -, hschema⟩ := Option.bind_eq_some_iff.mp htype
        exact PropKind.not_holds_of_expectedType? hschema

theorem ResolvesAll.infersNone (h : ResolvesAll catalog scope bindings after)
    (hscope : scope.InfersNone) : after.InfersNone := by
  induction h with
  | nil => exact hscope
  | cons hstep _ ih => exact ih (hstep.infersNone hscope)

end Scope

/-! ### Emitted models -/

namespace AppDefinition

variable {app : AppDefinition}

/-- A data model is emitted if it is kept or in use. -/
theorem mem_emittedModels_iff {model : DataModel} :
    model ∈ app.emittedModels ↔ model ∈ app.models ∧
      (model.persisted = true ∨ Reached app.Needs app.HoldsModel model.name) := by
  rw [← mem_usedModels_iff]
  simp only [emittedModels, persistedModels, List.mem_append, List.mem_filter, Bool.and_eq_true,
    Bool.not_eq_true', List.contains_iff_mem]
  cases model.persisted <;> simp

/-- What an emitted model holds is in use. -/
theorem reached_of_mem_emittedModels {model : DataModel} (h : model ∈ app.emittedModels)
    {p : ModelProperty} (hp : p ∈ model.properties) {name : String} (hholds : p.type.Holds name) :
    Reached app.Needs app.HoldsModel name := by
  obtain ⟨hmodel, hkept | hreached⟩ := mem_emittedModels_iff.mp h
  · exact .start (Or.inr ⟨model, hmodel, hkept, p, hp, hholds⟩)
  · exact .step hreached ⟨model, hmodel, rfl, p, hp, hholds⟩

theorem exists_model_of_typeErrors {owner : String} {type : ValueType}
    (h : app.typeErrors owner type = []) {name : String} (hholds : type.Holds name) :
    ∃ model ∈ app.models, model.name = name := by
  rw [typeErrors, ValueType.heldModel?_eq_some_iff.mpr hholds] at h
  dsimp only at h
  split at h
  next hmodel => simpa [hasModel] using hmodel
  · cases h

end AppDefinition

namespace Generate.Run

variable {app : AppDefinition} {catalog : Catalog} {config : GeneratorConfig} {out : GeneratedApp}
  {types : List DataType} {trees : List NormalTree} {views : List ScreenView} {entry : AppEntry}

theorem forall₂_builds (h : Run app catalog config out types trees views entry) :
    List.Forall₂ (fun (model : DataModel) type => model.build app.models = .ok type)
      app.models types :=
  (mapM_eq_ok.mp h.models).imp fun _ _ htype => mapError_eq_ok.mp htype

/-- The types that are kept are those of the models that are kept. -/
theorem forall₂_kept (h : Run app catalog config out types trees views entry) :
    List.Forall₂ (fun (model : DataModel) type => model.build app.models = .ok type)
      app.persistedModels (types.filter fun type => type.persisted) :=
  forall₂_filter_persisted (fun _ _ hbuild => typeOf_of_build hbuild) h.forall₂_builds

/-- The value types are those of the models that are in use but not kept. -/
theorem forall₂_valueTypes (h : Run app catalog config out types trees views entry) :
    List.Forall₂ (fun (model : DataModel) type => model.build app.models = .ok type)
      (app.models.filter fun m => !m.persisted && app.usedModels.contains m.name)
      entry.valueTypes := by
  rw [h.entry_eq.2]
  exact forall₂_filter_zip h.forall₂_builds _

/-- The emitted types are those of the emitted models, one by one. -/
theorem forall₂_emitted (h : Run app catalog config out types trees views entry) :
    List.Forall₂ (fun (model : DataModel) type => model.build app.models = .ok type)
      app.emittedModels (emittedTypes types entry) :=
  List.rel_append h.forall₂_kept h.forall₂_valueTypes

/-- The name of an emitted model, as it is spelled in types, is that of an emitted type. -/
theorem typeText_mem (h : Run app catalog config out types trees views entry) {model : DataModel}
    (hmodel : model ∈ app.emittedModels) :
    typeText (.model model.name) ∈ (emittedTypes types entry).map DataType.name := by
  have hname := List.mem_map_of_mem (f := fun m => Names.typeName? m.name) hmodel
  rw [← h.map_name_emittedTypes] at hname
  obtain ⟨type, htype, heq⟩ := List.mem_map.mp hname
  refine List.mem_map.mpr ⟨type, htype, ?_⟩
  rw [typeText, ← heq, Option.getD_some]

/-- What a property of an emitted model holds is spelled like an emitted type. -/
theorem typeText_mem_of_holds (h : Run app catalog config out types trees views entry)
    {model : DataModel} (hmodel : model ∈ app.emittedModels) {p : ModelProperty}
    (hp : p ∈ model.properties) {held : String} (hholds : p.type.Holds held) :
    typeText (.model held) ∈ (emittedTypes types entry).map DataType.name := by
  have hin := (AppDefinition.mem_emittedModels_iff.mp hmodel).1
  have htype := h.faultless.properties model hin p hp
  obtain ⟨other, hother, rfl⟩ := AppDefinition.exists_model_of_typeErrors htype hholds
  have hreached := AppDefinition.reached_of_mem_emittedModels hmodel hp hholds
  exact h.typeText_mem (AppDefinition.mem_emittedModels_iff.mpr ⟨hother, Or.inr hreached⟩)

/-- A declaration is backed if what its type holds exists and is in use. -/
theorem backed (h : Run app catalog config out types trees views entry) {type : ValueType}
    {owner : String} (herrors : app.typeErrors owner type = []) {initial : Value}
    (hinitial : initial.Inhabits type)
    (hused : ∀ name, type.Holds name → Reached app.Needs app.HoldsModel name) :
    Backed ((emittedTypes types entry).map DataType.name) (typeText type) initial := by
  refine ⟨type, rfl, hinitial, fun name hholds => ?_⟩
  obtain ⟨model, hmodel, rfl⟩ := AppDefinition.exists_model_of_typeErrors herrors hholds
  exact h.typeText_mem (AppDefinition.mem_emittedModels_iff.mpr
    ⟨hmodel, Or.inr (hused model.name hholds)⟩)

/-! ### Files, the store and warnings -/

theorem files_of_models (h : Run app catalog config out types trees views entry) :
    (out.files.filter fun file => (Text.segments '/' file.path)[1]? = some "Models") =
      modelFiles (Names.appFolder app.config.name) config.indentWidth types := by
  have hviews : ∀ file ∈ screenFiles (Names.appFolder app.config.name) config views,
      (Text.segments '/' file.path)[1]? ≠ some "Models" := by
    intro file hfile
    obtain ⟨view, hview, rfl⟩ := List.mem_map.mp hfile
    have htype := List.mem_map_of_mem (f := ScreenView.viewType) hview
    rw [h.map_viewType] at htype
    obtain ⟨_, hsegments⟩ := segments_of_mem_viewPaths (List.mem_map_of_mem htype)
    rw [hsegments]
    simp
  have hmodels : ∀ file ∈ modelFiles (Names.appFolder app.config.name) config.indentWidth types,
      (Text.segments '/' file.path)[1]? = some "Models" := by
    intro file hfile
    obtain ⟨type, htype, rfl⟩ := List.mem_map.mp hfile
    obtain ⟨_, hsegments⟩ := h.segments_of_mem_modelPaths
      (List.mem_map_of_mem (List.mem_map_of_mem htype))
    rw [hsegments]
    rfl
  have hentry :
      (Text.segments '/' (entryPath (Names.appFolder app.config.name) entry.appType))[1]? ≠
        some "Models" := by
    rw [h.entry_eq.1, segments_entryFile]
    intro heq
    have hlast := congrArg (fun text : String => text.toList.getLast?) (Option.some.inj heq)
    simp at hlast
  rw [h.files, List.filter_append, List.filter_append,
    List.filter_eq_nil_iff.mpr (by simpa using hviews),
    List.filter_eq_self.mpr (by simpa using hmodels),
    List.filter_cons_of_neg (by simpa using hentry)]
  simp

/-- The store keeps the types of the models that are kept. -/
theorem store_types (h : Run app catalog config out types trees views entry) :
    entry.store.types = (types.filter fun type => type.persisted).map DataType.name := by
  have hstore : entry.store = storeOf app := by
    obtain ⟨_, _, _, _, -, -, -, rfl⟩ := exists_of_buildEntry h.opening
    rfl
  have hnames : app.persistedModels.map (fun m => typeText (.model m.name)) =
      (types.filter fun type => type.persisted).map DataType.name := by
    have hall := h.forall₂_kept.imp fun model type hbuild => (typeOf_of_build hbuild).name
    have hequal : List.Forall₂ Eq (app.persistedModels.map fun m => typeText (.model m.name))
        ((types.filter fun type => type.persisted).map DataType.name) := by
      rw [List.forall₂_map_left_iff, List.forall₂_map_right_iff]
      refine hall.imp fun model type hname => ?_
      rw [typeText, hname, Option.getD_some]
    rwa [List.forall₂_eq_eq_eq] at hequal
  rw [hstore, ← hnames, storeOf]
  split
  next hempty => rw [List.isEmpty_iff.mp hempty, Store.types]
  · split <;> rfl

/-! ### Names of types -/

/-- The variables of a screen are backed. -/
theorem backed_variable (h : Run app catalog config out types trees views entry)
    {screen : Screen} (hscreen : screen ∈ app.screens) {v : Variable} (hv : v ∈ screen.declared)
    {initial : Value} (hinitial : Scope.initialValue v = .ok initial) :
    Backed ((emittedTypes types entry).map DataType.name) (typeText v.type) initial := by
  have hfaultless :=
    AppDefinition.faultless_of_variableErrors (h.variableErrors_eq_nil hscreen) v hv
  have hdefault : defaultValue v.type v.default = .ok initial := by
    unfold Scope.initialValue at hinitial
    split at hinitial
    next value hvalue =>
      cases hinitial
      exact hvalue
    · cases hinitial
  exact h.backed hfaultless.type (inhabits_defaultValue hdefault) fun name hholds =>
    .start (Or.inl ⟨screen, hscreen, v, hv, hholds⟩)

/-- **The members of a view name emitted types.** -/
theorem backed_members (h : Run app catalog config out types trees views entry)
    {view : ScreenView} (hview : view ∈ views) :
    ∀ m ∈ view.members, m.Backed ((emittedTypes types entry).map DataType.name) := by
  obtain ⟨screen, hscreen, tree, -, hbuild⟩ := exists_of_forall₂ h.forall₂_screens view hview
  obtain ⟨s, order, body, hemitted, hfurnished⟩ := h.furnished_of_build hscreen hbuild
  have hsame := hfurnished.run.sameDeclared
  obtain ⟨stored, hstored, hmembers⟩ := Setting.members_of_finish hemitted.finish
  obtain ⟨parameters, state, rfl, hparameters, hstate⟩ := Scope.members_declared hstored
  rw [hmembers]
  simp only [List.forall_mem_append]
  refine ⟨⟨⟨⟨⟨?_, ?_⟩, ?_⟩, ?_⟩, ?_, ?_⟩, ?_⟩
  · intro m hm
    obtain ⟨entry, hentry, initial, hinitial, rfl⟩ := exists_of_forall₂ hparameters m hm
    rw [hsame.parameters] at hentry
    exact h.backed_variable hscreen (Scope.mem_declared (Or.inl hentry)).1 hinitial
  · intro m hm
    obtain ⟨entry, hentry, initial, hinitial, rfl⟩ := exists_of_forall₂ hstate m hm
    rw [hsame.state] at hentry
    exact h.backed_variable hscreen (Scope.mem_declared (Or.inr hentry)).1 hinitial
  · -- State that bindings have brought into being.
    refine List.forall_mem_map.mpr fun entry hentry => ?_
    have hnone := hfurnished.run.infersNone (List.forall_mem_nil _) entry hentry
    exact ⟨entry.2, rfl, inhabits_zeroValue entry.2, fun model hholds =>
      absurd hholds (hnone model)⟩
  · exact List.forall_mem_map.mpr fun _ _ => trivial
  · split
    · exact List.forall_mem_singleton.mpr trivial
    · exact List.forall_mem_nil _
  · split
    · exact List.forall_mem_singleton.mpr trivial
    · exact List.forall_mem_nil _
  · refine List.forall_mem_map.mpr fun flag _ => ⟨.bool, rfl, ?_, ?_⟩
    · rintro made ⟨⟩
    · rintro model ⟨⟩

/-- **The properties of the emitted types name emitted types.** -/
theorem backed_properties (h : Run app catalog config out types trees views entry)
    {type : DataType} (htype : type ∈ emittedTypes types entry) :
    ∀ p ∈ type.properties,
      Backed ((emittedTypes types entry).map DataType.name) p.type p.default := by
  obtain ⟨model, hmodel, hbuild⟩ := exists_of_forall₂ h.forall₂_emitted type htype
  intro stored hstored
  obtain ⟨p, hp, hstores⟩ :=
    exists_of_forall₂ (DataModel.build_stores type hbuild) stored hstored
  exact ⟨p.type, hstores.type, inhabits_defaultValue hstores.default,
    fun held hholds => h.typeText_mem_of_holds hmodel hp hholds⟩

/-! ### Models that are not kept -/

/-- What a model that is not kept holds is not kept either. -/
theorem persisted_of_holds (h : Run app catalog config out types trees views entry)
    {model other : DataModel} (hmodel : model ∈ app.models) (hother : other ∈ app.models)
    (hkept : model.persisted = false) {p : ModelProperty} (hp : p ∈ model.properties)
    (hholds : p.type.Holds other.name) : other.persisted = false := by
  obtain ⟨type, -, hbuild⟩ := exists_of_forall₂ h.forall₂_builds.flip model hmodel
  obtain ⟨stored, -, hstores⟩ :=
    exists_of_forall₂ (DataModel.build_stores type hbuild).flip p hp
  exact DataModel.persisted_of_heldPersisted? h.modelsApart hother hholds (hstores.free hkept)

/-- **No chain of properties leads from a model that is not kept to one that is.** -/
theorem persisted_of_reflTransGen (h : Run app catalog config out types trees views entry)
    {model : DataModel} (hmodel : model ∈ app.models) (hkept : model.persisted = false)
    {name : String} (hchain : Relation.ReflTransGen app.HoldsModel model.name name) :
    ∀ other ∈ app.models, other.name = name → other.persisted = false := by
  have hnames := h.modelsApart.names
  induction hchain with
  | refl =>
      intro other hother hname
      rwa [List.inj_on_of_nodup_map hnames hother hmodel hname]
  | tail _ hstep ih =>
      obtain ⟨holder, hholder, hname, p, hp, hholds⟩ := hstep
      rintro other hother rfl
      exact h.persisted_of_holds hholder hother (ih holder hholder hname) hp hholds

/-- **The data models of a generated app are accounted for.** -/
theorem accounted (h : Run app catalog config out types trees views entry)
    (hwarnings : out.warnings =
      app.warnings trees views app.config.designTokens config.nestingWarningDepth) :
    Accounted app catalog config out types views entry := by
  refine ⟨h.forall₂_kept, h.files_of_models,
    fun type htype hkept => h.declarations_type htype hkept config.indentWidth, h.store_types,
    h.entry_mem_files, h.filter_isStoring_entry config.indentWidth, ?_,
    AppEntry.filter_isRecord_lines h.persisted_of_mem_valueTypes, ?_, ?_,
    fun view hview => h.backed_members hview, fun type htype => h.backed_properties htype,
    fun view hview => ⟨h.screen_mem_files hview, ?_⟩,
    fun model hmodel hkept other hother hchain =>
      h.persisted_of_reflTransGen hmodel hkept hchain other hother rfl⟩
  · refine ⟨_, List.filter_sublist, fun model hmodel => ?_, h.forall₂_valueTypes⟩
    rw [← AppDefinition.mem_usedModels_iff]
    simp [hmodel]
  · rw [h.declarations_entry, AppEntry.filter_isRecord_declared]
  · obtain ⟨before, after, hsplit, hothers⟩ :=
      app.split_unused trees views app.config.designTokens config.nestingWarningDepth
    rw [← hwarnings] at hsplit
    refine ⟨_, List.filter_sublist, fun model hmodel => ?_, ?_, before, after, hsplit, hothers⟩
    · rw [← AppDefinition.mem_usedModels_iff]
      simp [hmodel]
    · exact nodup_texts_of_sublist h.modelsApart.names List.filter_sublist unusedWarning_injective
  · rintro rfl
    have hmembers := h.infix_screen hview (view.members_infix_lines config.emitPreviews)
    rwa [List.map_cons, List.map_map] at hmembers

end Generate.Run

/-- **Data models are accounted for exactly.**  In every generated app, over any catalog, each of
them becomes a file if it is kept, a structure in the entry file if it is in use, or a warning
otherwise, and the texts of the files declare just these; the store lists the types that are kept;
whatever type a member or a property names is emitted; and no chain of properties leads from a model
that is not kept to one that is. -/
theorem models_are_accounted_for (app : AppDefinition) (catalog : Catalog)
    (config : GeneratorConfig) (out : GeneratedApp) (h : generate app catalog config = .ok out) :
    ∃ types trees views entry, Generate.Run app catalog config out types trees views entry ∧
      Accounted app catalog config out types views entry := by
  obtain ⟨types, trees, views, entry, hrun, hwarnings⟩ := Generate.exists_run_warnings h
  exact ⟨types, trees, views, entry, hrun, hrun.accounted hwarnings⟩

/-- An app with a model that is kept, two that are in use because of it, of which one holds itself,
and one that is not used although it holds one of them. -/
def Generate.library : AppDefinition where
  config := ⟨"Books", "com.example.books", "1.0.0", .standard, .standard, true, false⟩
  screens :=
    [⟨"home", "Home", none, [⟨"chosen", .optional (.model "book"), none⟩], [],
      .node ⟨"body", "Text", [("content", .string "Books")], [], []⟩ []⟩]
  models :=
    [⟨"book", [⟨"authors", .array (.model "author"), none, true⟩], true⟩,
      ⟨"author", [⟨"mentor", .optional (.model "author"), none, true⟩,
        ⟨"home", .model "place", none, true⟩], false⟩,
      ⟨"place", [⟨"city", .string, none, true⟩], false⟩,
      ⟨"draft", [⟨"writers", .optional (.array (.model "author")), none, true⟩], false⟩]
  entryScreen := "home"
  tabBar := none

/-- The library is generated, so its models are accounted for. -/
theorem models_of_library :
    ∃ out, generate Generate.library Catalog.standard .standard = .ok out ∧
      ∃ types trees views entry,
        Generate.Run Generate.library Catalog.standard .standard out types trees views entry ∧
        Accounted Generate.library Catalog.standard .standard out types views entry := by
  have haccepts : Generate.accepts Generate.library .standard = true := by decide +kernel
  obtain ⟨out, hout⟩ := Generate.exists_generate_of_accepts haccepts
  exact ⟨out, hout, models_are_accounted_for Generate.library Catalog.standard .standard out hout⟩

end Screenwright
