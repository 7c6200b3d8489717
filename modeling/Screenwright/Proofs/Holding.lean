/-
Which data models hold which.

The type of a property, or of a variable, holds a data model if it is the type of its values, or
of arrays of them, or of optional ones, at any depth.  What the variables of the screens and the
models that are kept hold is in use, and so is whatever a model in use holds; since models may
hold each other, even themselves, this is a least set, and it is what the search finds.

Every data model is checked by itself when its type is built: if it is not kept, none of its
properties may hold a model that is.  One step at a time, this shuts the kept models off from all
that the others lead to.
-/
import Mathlib.Logic.Relation
import Screenwright.Proofs.Defaults
import Screenwright.Proofs.Paths
import Screenwright.Proofs.Reach

namespace Screenwright

open Steps Swift

/-! ### Types -/

/-- Values of the type are values of the data model, or arrays or optional values of a type that
holds it. -/
inductive ValueType.Holds : ValueType → String → Prop where
  | model {name : String} : Holds (.model name) name
  | array {item : ValueType} {name : String} (h : item.Holds name) : Holds (.array item) name
  | optional {inner : ValueType} {name : String} (h : inner.Holds name) :
      Holds (.optional inner) name

namespace ValueType

theorem holds_of_heldModel? {type : ValueType} {name : String} (h : type.heldModel? = some name) :
    type.Holds name := by
  induction type with
  | model other =>
      cases h
      exact .model
  | array item ih => exact .array (ih h)
  | optional inner ih => exact .optional (ih h)
  | string | int | double | bool | date => cases h

/-- A type holds the one data model that it names. -/
theorem heldModel?_eq_some_iff {type : ValueType} {name : String} :
    type.heldModel? = some name ↔ type.Holds name := by
  refine ⟨holds_of_heldModel?, fun h => ?_⟩
  induction h with
  | model => rfl
  | array _ ih => exact ih
  | optional _ ih => exact ih

/-- What a type begins with, it holds. -/
theorem Begins.holds {type : ValueType} {default : Option Json} {name : String}
    (h : type.Begins default name) : type.Holds name := by
  induction h with
  | model => exact .model
  | item _ _ ih => exact .array ih
  | inner _ _ ih => exact .optional ih

end ValueType

theorem DataModel.mem_heldModels_iff {model : DataModel} {name : String} :
    name ∈ model.heldModels ↔ ∃ p ∈ model.properties, p.type.Holds name := by
  simp only [heldModels, List.mem_filterMap, ValueType.heldModel?_eq_some_iff]

/-! ### Data models in use -/

namespace AppDefinition

/-- A property of a data model holds another one. -/
def HoldsModel (app : AppDefinition) (here there : String) : Prop :=
  ∃ model ∈ app.models, model.name = here ∧ ∃ p ∈ model.properties, p.type.Holds there

/-- A parameter or the state of a screen holds the data model, or one that is kept does. -/
def Needs (app : AppDefinition) (name : String) : Prop :=
  (∃ screen ∈ app.screens, ∃ v ∈ screen.declared, v.type.Holds name) ∨
    ∃ model ∈ app.models, model.persisted = true ∧ ∃ p ∈ model.properties, p.type.Holds name

variable {app : AppDefinition}

theorem mem_heldModels_iff {name : String} : name ∈ app.heldModels ↔ app.Needs name := by
  simp only [heldModels, Needs, List.mem_append, List.mem_filterMap, List.mem_flatMap,
    ValueType.heldModel?_eq_some_iff, DataModel.mem_heldModels_iff, persistedModels,
    List.mem_filter]
  constructor
  · rintro (⟨v, ⟨screen, hscreen, hv⟩, hholds⟩ | ⟨model, ⟨hmodel, hkept⟩, hholds⟩)
    · exact Or.inl ⟨screen, hscreen, v, hv, hholds⟩
    · exact Or.inr ⟨model, hmodel, hkept, hholds⟩
  · rintro (⟨screen, hscreen, v, hv, hholds⟩ | ⟨model, hmodel, hkept, hholds⟩)
    · exact Or.inl ⟨v, ⟨screen, hscreen, hv⟩, hholds⟩
    · exact Or.inr ⟨model, ⟨hmodel, hkept⟩, hholds⟩

theorem mem_targets_modelGraph {here there : String} :
    there ∈ app.modelGraph.targets here ↔ app.HoldsModel here there := by
  simp only [Graph.mem_targets, modelGraph, HoldsModel, List.mem_map, exists_exists_and_eq_and,
    DataModel.mem_heldModels_iff]

/-- **The data models in use are those that are reached from what is needed.** -/
theorem mem_usedModels_iff {name : String} :
    name ∈ app.usedModels ↔ Reached app.Needs app.HoldsModel name :=
  Graph.mem_reach_iff (fun _ => mem_heldModels_iff) fun _ _ => mem_targets_modelGraph

end AppDefinition

/-! ### What building a type checks -/

namespace DataModel

/-- How a property of a data model has become a stored one. -/
structure Stores (models : List DataModel) (model : DataModel) (p : ModelProperty)
    (stored : StoredProperty) : Prop where
  type : stored.type = typeText p.type
  default : defaultValue p.type p.default = .ok stored.default
  /-- What is not kept holds nothing that is. -/
  free : model.persisted = false → heldPersisted? models p.type = none

variable {models : List DataModel} {model : DataModel}

theorem storedProperty_stores {seen : List String} {p : ModelProperty} :
    Gives (storedProperty models model seen p) (model.Stores models p) := by
  unfold storedProperty
  dsimp only
  split
  · split
    · exact .error_bind
    · split
      · exact .error_bind
      next hfree =>
        split
        · exact .error
        next value hvalue =>
          refine .ret ⟨rfl, hvalue, fun hkept => ?_⟩
          cases hheld : heldPersisted? models p.type with
          | none => rfl
          | some held => exact absurd (by rw [hkept, hheld]) (hfree held)
  · exact .error_bind

theorem storedProperties_store {ps : List ModelProperty} : ∀ {seen : List String},
    Gives (storedProperties models model seen ps) (List.Forall₂ (model.Stores models) ps) := by
  induction ps with
  | nil => exact .ret .nil
  | cons p rest ih =>
      intro seen
      refine storedProperty_stores.bind fun first hfirst => ?_
      exact ih.bind fun others hothers => .ret (.cons hfirst hothers)

/-- The properties of the type of a data model are those of the model, one by one. -/
theorem build_stores : Gives (model.build models) fun type =>
    List.Forall₂ (model.Stores models) model.properties type.properties := by
  unfold build
  split
  · dsimp only
    split
    · exact .error_bind
    · exact storedProperties_store.bind fun properties hproperties => .ret hproperties
  · exact .error

/-- Where no kept model is held, whatever is held is not kept. -/
theorem persisted_of_heldPersisted? (hapart : ModelsApart models) {type : ValueType}
    {held : DataModel} (hheld : held ∈ models) (hholds : type.Holds held.name)
    (h : heldPersisted? models type = none) : held.persisted = false := by
  rw [heldPersisted?, ValueType.heldModel?_eq_some_iff.mpr hholds, Option.bind_some,
    find?_key_eq_some DataModel.name hapart.names hheld] at h
  simpa using h

end DataModel

/-! ### The values that a variable begins with -/

namespace Swift

/-- The value is, or has among its items, a new value of the named type. -/
inductive Value.Makes : Value → String → Prop where
  | call {name : String} {args : List (Option String × Value)} : Makes (.call name args) name
  | item {items : List Value} {item : Value} {name : String} (hitem : item ∈ items)
      (h : item.Makes name) : Makes (.array items) name

/-- The value makes values only of the data models that the type holds. -/
def Value.Inhabits (value : Value) (type : ValueType) : Prop :=
  ∀ made, value.Makes made → ∃ model, type.Holds model ∧ made = typeText (.model model)

theorem Value.Makes.mem_callees {value : Value} {made : String} (h : value.Makes made) :
    made ∈ value.callees := by
  induction h with
  | call => simp [Value.callees]
  | item hitem _ ih =>
      rw [Value.callees, mem_itemCallees]
      exact ⟨_, hitem, ih⟩

/-- **A variable begins with values only of the data models that its type holds.** -/
theorem inhabits_defaultValue {type : ValueType} {default : Option Json} {value : Value}
    (h : defaultValue type default = .ok value) : value.Inhabits type := by
  intro made hmakes
  obtain ⟨model, hbegins, htext⟩ := (mem_callees_defaultValue_iff h).mp hmakes.mem_callees
  exact ⟨model, hbegins.holds, htext.symm⟩

theorem inhabits_zeroValue (type : ValueType) : (zeroValue type).Inhabits type := by
  have hdefault : defaultValue type none = .ok (zeroValue type) := rfl
  exact inhabits_defaultValue hdefault

end Swift

end Screenwright
