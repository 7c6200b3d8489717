/-
Screens that are named but do not exist.

The entry screen, the tabs and the references in the trees name screens.  The errors of
those that do not exist stand in one list with the errors of everything else that can be
wrong with an app, and several of the passes that find these errors skip what they have
seen before.  Here the errors of missing screens are taken out of that list: what is left
of it is written down from the app and its trees alone, with no word of duplicates,
models, variables, bindings or handlers, so none of these hides a missing screen or
reports one twice.

The argument goes pass by pass.  A pass that looks for something else never finds a missing
screen, whatever it has seen before, which is an induction over what it runs through; and
the three passes that look for missing screens find nothing else.
-/
import Screenwright.Generate

namespace Screenwright

namespace ReferenceError

/-- Whether the error says that a screen does not exist. -/
def isDangling : ReferenceError → Bool
  | missingEntryScreen _ | danglingTab _ _ | danglingNavigation _ _ _ => true
  | _ => false

/-- None of the errors says that a screen does not exist. -/
def NoneDangling (errors : List ReferenceError) : Prop :=
  errors.filter isDangling = []

variable {α : Type} {errors more : List ReferenceError}

@[simp]
theorem noneDangling_nil : NoneDangling [] := rfl

@[simp]
theorem noneDangling_cons {e : ReferenceError} :
    NoneDangling (e :: errors) ↔ e.isDangling = false ∧ NoneDangling errors := by
  simp [NoneDangling]

@[simp]
theorem noneDangling_append :
    NoneDangling (errors ++ more) ↔ NoneDangling errors ∧ NoneDangling more := by
  simp [NoneDangling]

theorem noneDangling_flatMap {f : α → List ReferenceError} (xs : List α)
    (h : ∀ x, NoneDangling (f x)) : NoneDangling (xs.flatMap f) := by
  induction xs with
  | nil => exact noneDangling_nil
  | cons x rest ih => simp [h x, ih]

/-- A filter keeps every error of a missing screen. -/
theorem filter_map_dangling {f : α → ReferenceError} (xs : List α)
    (h : ∀ x, (f x).isDangling = true) : (xs.map f).filter isDangling = xs.map f := by
  rw [List.filter_eq_self]
  intro e he
  obtain ⟨x, -, rfl⟩ := List.mem_map.mp he
  exact h x

end ReferenceError

open ReferenceError

/-! ### The screens -/

namespace TakenNames

theorem noneDangling_conflict (table : Entries String) (screen name : String) :
    NoneDangling (conflict table screen name) := by
  unfold conflict
  split <;> simp [isDangling]

theorem noneDangling_linkErrors (taken : TakenNames) (screen link : String) :
    NoneDangling (taken.linkErrors screen link) := by
  unfold linkErrors
  split
  · simp [isDangling]
  · split <;> simp [isDangling]

theorem noneDangling_screenErrors (app : AppDefinition) (taken : TakenNames) (screen : Screen)
    (names : ScreenNames) : NoneDangling (screenErrors app taken screen names) := by
  unfold screenErrors
  simp only [noneDangling_append, noneDangling_conflict, and_true]
  constructor
  · split <;> simp [isDangling]
  · split
    · exact noneDangling_linkErrors _ _ _
    · exact noneDangling_nil

/-- Whatever names have been taken, a screen that is skipped or that takes its names is not
an error of a missing screen. -/
theorem noneDangling_allErrors (app : AppDefinition) (screens : List Screen) :
    ∀ taken : TakenNames, NoneDangling (allErrors app taken screens) := by
  induction screens with
  | nil =>
      intro taken
      exact noneDangling_nil
  | cons screen rest ih =>
      intro taken
      simp only [allErrors]
      by_cases hseen : taken.ids.contains screen.id
      · rw [if_pos hseen]
        simp [isDangling, ih]
      · rw [if_neg hseen]
        simp [noneDangling_screenErrors, ih]

end TakenNames

/-! ### Data models and variables -/

namespace AppDefinition

variable (app : AppDefinition)

theorem noneDangling_typeErrors (owner : String) (type : ValueType) :
    NoneDangling (app.typeErrors owner type) := by
  unfold typeErrors
  split
  · split <;> simp [isDangling]
  · exact noneDangling_nil

theorem noneDangling_modelNameErrors (models : List DataModel) :
    ∀ seen : List String, NoneDangling (app.modelNameErrors seen models) := by
  induction models with
  | nil =>
      intro seen
      exact noneDangling_nil
  | cons model rest ih =>
      intro seen
      simp only [modelNameErrors, noneDangling_append, ih, and_true]
      constructor
      · split <;> simp [isDangling]
      · split <;> simp [isDangling]

theorem noneDangling_propertyErrors : NoneDangling app.propertyErrors :=
  noneDangling_flatMap _ fun _ =>
    noneDangling_flatMap _ fun p => app.noneDangling_typeErrors _ p.type

theorem noneDangling_variableError (screen : String) (v : Variable) :
    NoneDangling (app.variableError screen v) := by
  unfold variableError
  simp only [noneDangling_append, noneDangling_typeErrors, and_true]
  constructor
  · split <;> simp [isDangling]
  · split <;> simp [isDangling]

theorem noneDangling_variableErrors (screen : String) (vs : List Variable) :
    ∀ seen : List String, NoneDangling (app.variableErrors screen seen vs) := by
  induction vs with
  | nil =>
      intro seen
      exact noneDangling_nil
  | cons v rest ih =>
      intro seen
      simp only [variableErrors]
      by_cases hseen : seen.contains v.name
      · rw [if_pos hseen]
        simp [isDangling, ih]
      · rw [if_neg hseen]
        simp [noneDangling_variableError, ih]

end AppDefinition

/-! ### Bindings and handlers -/

namespace Scope

/-- Whatever the bindings before have brought into being. -/
theorem noneDangling_bindingErrors (catalog : Catalog) (screen : String)
    (bindings : List (Element × DataBinding)) :
    ∀ scope : Scope, NoneDangling (scope.bindingErrors catalog screen bindings).1 := by
  induction bindings with
  | nil =>
      intro scope
      exact noneDangling_nil
  | cons binding rest ih =>
      intro scope
      simp only [bindingErrors]
      split
      · exact ih _
      · simp [isDangling, ih]

theorem noneDangling_animationError (scope : Scope) (screen node path : String) :
    NoneDangling (animationError screen scope node path) := by
  unfold animationError
  split <;> simp [isDangling]

theorem noneDangling_handlerErrors (scope : Scope) (screen : String)
    (actions : List (Element × Action)) :
    ∀ seen : Entries HandlerParams, NoneDangling (scope.handlerErrors screen seen actions) := by
  induction actions with
  | nil =>
      intro seen
      exact noneDangling_nil
  | cons action rest ih =>
      intro seen
      simp only [handlerErrors]
      repeat' split
      all_goals simp [isDangling, ih]

end Scope

namespace AppDefinition

variable (app : AppDefinition)

theorem noneDangling_dataErrors (catalog : Catalog) (screen : Screen) (tree : NormalTree) :
    NoneDangling (app.dataErrors catalog screen tree) := by
  simp only [dataErrors, noneDangling_append]
  refine ⟨⟨Scope.noneDangling_bindingErrors _ _ _ _, ?_⟩,
    Scope.noneDangling_handlerErrors _ _ _ _⟩
  exact noneDangling_flatMap _ fun _ =>
    noneDangling_flatMap _ fun path => Scope.noneDangling_animationError _ _ _ path

/-! ### What is left of the list -/

/-- The errors of missing screens: the entry screen, the tabs in their order, and screen by
screen the references of its tree in their order. -/
def dangling (trees : List NormalTree) : List ReferenceError :=
  let ids := app.screens.map Screen.id
  (if app.entryScreen ∈ ids then [] else [.missingEntryScreen app.entryScreen]) ++
    ((app.tabs.filter fun item => item.screen ∉ ids).map fun item =>
      .danglingTab item.title item.screen) ++
    (app.screens.zip trees).flatMap fun (screen, tree) =>
      (tree.references.filter fun r => r.target ∉ ids).map fun r =>
        .danglingNavigation screen.id r.node r.target

theorem hasScreen_eq_decide (id : String) :
    app.hasScreen id = decide (id ∈ app.screens.map Screen.id) := by
  rw [Bool.eq_iff_iff]
  simp [hasScreen]

theorem filter_entryErrors :
    app.entryErrors.filter isDangling =
      if app.entryScreen ∈ app.screens.map Screen.id then []
      else [.missingEntryScreen app.entryScreen] := by
  rw [entryErrors, hasScreen_eq_decide]
  by_cases h : app.entryScreen ∈ app.screens.map Screen.id
  · simp [h]
  · simp [h, isDangling]

theorem filter_tabErrors :
    app.tabErrors.filter isDangling =
      (app.tabs.filter fun item => item.screen ∉ app.screens.map Screen.id).map fun item =>
        .danglingTab item.title item.screen := by
  rw [tabErrors, filter_map_dangling _ fun _ => rfl]
  simp only [hasScreen_eq_decide, decide_not]

theorem filter_screenErrors (catalog : Catalog) (screen : Screen) (tree : NormalTree) :
    (app.screenErrors catalog screen tree).filter isDangling =
      (tree.references.filter fun r => r.target ∉ app.screens.map Screen.id).map fun r =>
        .danglingNavigation screen.id r.node r.target := by
  have hvariables : NoneDangling (app.variableErrors screen.id [] screen.declared) :=
    app.noneDangling_variableErrors _ _ _
  have hdata : NoneDangling (app.dataErrors catalog screen tree) :=
    app.noneDangling_dataErrors _ _ _
  unfold NoneDangling at hvariables hdata
  rw [screenErrors, List.filter_append, List.filter_append, hvariables, hdata, List.append_nil,
    List.append_nil, navigationErrors, filter_map_dangling _ fun _ => rfl]
  simp only [hasScreen_eq_decide, decide_not]

/-- **Of all errors of an app, those of missing screens are the ones that the screens, the
entry screen, the tabs and the references of the trees make.** -/
theorem filter_referenceErrors (trees : List NormalTree) (catalog : Catalog) :
    (app.referenceErrors trees catalog).filter isDangling = app.dangling trees := by
  have hscreens : NoneDangling (TakenNames.none.allErrors app app.screens) :=
    TakenNames.noneDangling_allErrors app _ _
  have hmodels : NoneDangling (app.modelNameErrors [] app.models) :=
    app.noneDangling_modelNameErrors _ _
  have hproperties : NoneDangling app.propertyErrors := app.noneDangling_propertyErrors
  unfold NoneDangling at hscreens hmodels hproperties
  simp only [referenceErrors, List.filter_append, hscreens, hmodels, hproperties,
    List.nil_append, List.append_nil, filter_entryErrors, filter_tabErrors, dangling]
  rw [List.filter_flatMap]
  simp only [filter_screenErrors]

end AppDefinition

/-- **Every reference to a screen that does not exist is reported**, once and in its place,
whatever else is wrong with the app: the check of an app and its trees gives a list of
errors in which those of missing screens are the ones that `AppDefinition.dangling` writes
down, and the app passes only if there are no errors at all. -/
theorem dangling_references_are_reported (app : AppDefinition) (trees : List NormalTree)
    (catalog : Catalog) :
    ∃ errors : List ReferenceError,
      Generate.checkReferences app trees catalog =
        (if errors = [] then .ok () else .error (.references errors)) ∧
      errors.filter ReferenceError.isDangling = app.dangling trees := by
  refine ⟨app.referenceErrors trees catalog, ?_, app.filter_referenceErrors trees catalog⟩
  unfold Generate.checkReferences
  split
  next hnone => rw [if_pos hnone]
  next hsome => rw [if_neg hsome]

end Screenwright
