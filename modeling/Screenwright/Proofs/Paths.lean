/-
Types along paths.

A path into a data model is followed name by name: the type of a value says which data model it
is, the model has a property of the next name, and the property has a type again.  Models may
hold each other, even themselves; a path is finite all the same, and it is the path that the
search descends along.  `PathType` is that search as a relation, with one rule for the end of a
path and one for each name.  The relation does not say which model or property is taken where
two have the same name, so it has one answer only because the checks leave no two of them:
`ModelsApart`.
-/
import Screenwright.Proofs.Generation

namespace Screenwright

open Steps Swift

/-- The type at the end of a path that begins at a value of the given type: every name is that of
a property, in the data model that the type before it names. -/
inductive PathType (models : List DataModel) : ValueType → List String → ValueType → Prop where
  | whole {type : ValueType} : PathType models type [] type
  | part {model : DataModel} {property : ModelProperty} {rest : List String} {type : ValueType}
      (hmodel : model ∈ models) (hproperty : property ∈ model.properties)
      (hrest : PathType models property.type rest type) :
      PathType models (.model model.name) (property.name :: rest) type

/-- Data models are told apart by their names, and so are the properties of each of them. -/
structure ModelsApart (models : List DataModel) : Prop where
  names : (models.map DataModel.name).Nodup
  properties : ∀ model ∈ models, (model.properties.map ModelProperty.name).Nodup

/-- A whole value has one type. -/
theorem PathType.eq_of_nil {models : List DataModel} {first type : ValueType}
    (h : PathType models first [] type) : first = type := by
  cases h
  rfl

namespace Scope

variable {models : List DataModel}

/-- A part of a value is a property of the data model that its type names. -/
theorem partType_eq_ok_iff (h : ModelsApart models) {type part : ValueType} {name : String} :
    partType models type name = .ok part ↔
      ∃ model ∈ models, ∃ property ∈ model.properties,
        type = .model model.name ∧ property.name = name ∧ property.type = part := by
  refine ⟨exists_of_partType, ?_⟩
  rintro ⟨model, hmodel, property, hproperty, rfl, rfl, rfl⟩
  have hfirst := find?_key_eq_some DataModel.name h.names hmodel
  have hsecond := find?_key_eq_some ModelProperty.name (h.properties model hmodel) hproperty
  simp only [partType, hfirst, hsecond]

/-- **Following a path finds the type at its end, and fails only where there is none.** -/
theorem follow_eq_ok_iff (h : ModelsApart models) {names : List String} :
    ∀ {first type : ValueType},
      follow models first names = .ok type ↔ PathType models first names type := by
  induction names with
  | nil =>
      intro first type
      rw [follow, Except.ok.injEq]
      constructor
      · rintro rfl
        exact .whole
      · exact PathType.eq_of_nil
  | cons name rest ih =>
      intro first type
      unfold follow
      constructor
      · intro hfollow
        split at hfollow
        · cases hfollow
        next part hpart =>
          obtain ⟨model, hmodel, property, hproperty, rfl, rfl, rfl⟩ :=
            (partType_eq_ok_iff h).mp hpart
          exact .part hmodel hproperty (ih.mp hfollow)
      · intro hpath
        cases hpath with
        | @part model property _ _ hmodel hproperty hrest =>
            have hpart := (partType_eq_ok_iff h).mpr
              ⟨model, hmodel, property, hproperty, rfl, rfl, rfl⟩
            rw [hpart]
            exact ih.mpr hrest

end Scope

/-! ### What the checks keep apart -/

namespace AppDefinition

variable {app : AppDefinition}

/-- Data models without errors have distinct names, none of which has been seen before. -/
theorem nodup_of_modelNameErrors {models : List DataModel} :
    ∀ {seen : List String}, app.modelNameErrors seen models = [] →
      (models.map DataModel.name).Nodup ∧ ∀ model ∈ models, model.name ∉ seen := by
  induction models with
  | nil => simp
  | cons model rest ih =>
      intro seen h
      obtain ⟨hnew, -, hrest⟩ := modelNameErrors_cons h
      exact nodup_keys_cons hnew (ih hrest)

/-- Variables without errors have distinct names, none of which has been seen before. -/
theorem nodup_of_variableErrors {screen : String} {vs : List Variable} :
    ∀ {seen : List String}, app.variableErrors screen seen vs = [] →
      (vs.map Variable.name).Nodup ∧ ∀ v ∈ vs, v.name ∉ seen := by
  induction vs with
  | nil => simp
  | cons v rest ih =>
      intro seen h
      obtain ⟨hnew, -, hrest⟩ := variableErrors_cons h
      exact nodup_keys_cons hnew (ih hrest)

end AppDefinition

/-- The stored property has the name of the property, and its type as it is written. -/
def ModelProperty.IsStoredAs (p : ModelProperty) (stored : StoredProperty) : Prop :=
  stored.name = p.name ∧ stored.type = typeText p.type

namespace DataModel

variable {models : List DataModel} {model : DataModel}

theorem storedProperty_isStoredAs {seen : List String} {p : ModelProperty} :
    Gives (storedProperty models model seen p) fun stored =>
      p.IsStoredAs stored ∧ p.name ∉ seen := by
  unfold storedProperty
  dsimp only
  split
  · split
    · exact .error_bind
    next hnew =>
      split
      · exact .error_bind
      · split
        · exact .error
        · exact .ret ⟨⟨rfl, rfl⟩, fun hmem => hnew (List.contains_iff_mem.mpr hmem)⟩
  · exact .error_bind

/-- The properties of a type are those of its model, one by one, and no two have one name. -/
theorem storedProperties_areStored {ps : List ModelProperty} : ∀ {seen : List String},
    Gives (storedProperties models model seen ps) fun stored =>
      List.Forall₂ ModelProperty.IsStoredAs ps stored ∧
        (ps.map ModelProperty.name).Nodup ∧ ∀ p ∈ ps, p.name ∉ seen := by
  induction ps with
  | nil => exact .ret ⟨.nil, List.nodup_nil, by simp⟩
  | cons p rest ih =>
      intro seen
      refine storedProperty_isStoredAs.bind fun first hfirst => ?_
      refine ih.bind fun others hothers => .ret ⟨.cons hfirst.1 hothers.1, ?_⟩
      exact nodup_keys_cons hfirst.2 hothers.2

/-- The type of a data model declares the properties of the model. -/
theorem build_declares : Gives (model.build models) fun type =>
    List.Forall₂ ModelProperty.IsStoredAs model.properties type.properties ∧
      (model.properties.map ModelProperty.name).Nodup := by
  unfold build
  split
  · dsimp only
    split
    · exact .error_bind
    · refine storedProperties_areStored.bind fun properties hproperties => .ret ?_
      exact ⟨hproperties.1, hproperties.2.1⟩
  · exact .error

end DataModel

namespace Generate.Run

variable {app : AppDefinition} {catalog : Catalog} {config : GeneratorConfig} {out : GeneratedApp}
  {types : List DataType} {trees : List NormalTree} {views : List ScreenView} {entry : AppEntry}

/-- The data models of a generated app are apart. -/
theorem modelsApart (h : Run app catalog config out types trees views entry) :
    ModelsApart app.models := by
  refine ⟨(AppDefinition.nodup_of_modelNameErrors h.faultless.models).1, fun model hmodel => ?_⟩
  obtain ⟨type, -, htype⟩ := exists_of_mapM_eq_ok h.models model hmodel
  exact (DataModel.build_declares type (mapError_eq_ok.mp htype)).2

/-- The emitted types declare the properties of the data models, with their types. -/
theorem forall₂_declared (h : Run app catalog config out types trees views entry) :
    List.Forall₂ (fun (model : DataModel) (type : DataType) =>
      List.Forall₂ ModelProperty.IsStoredAs model.properties type.properties)
      app.models types :=
  (mapM_eq_ok.mp h.models).imp fun _ type htype =>
    (DataModel.build_declares type (mapError_eq_ok.mp htype)).1

end Generate.Run

end Screenwright
