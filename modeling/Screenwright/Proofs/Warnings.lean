/-
The warnings of an app, told apart.

The warnings are texts, and texts of five sorts stand in one list: of screens that are nested too
deeply, of screens that cannot be reached, of data models that are not used, of a store that was
not asked for, and of colors that are too close.  Identifiers and names go into them as they are,
so one could be read as a warning of another sort, or of another screen.  None can: warnings of
two sorts differ in their first letter or in their last one, and what stands between the same two
texts can be read off.
-/
import Screenwright.Proofs.Ways

namespace Screenwright

/-- The warning that a screen cannot be reached. -/
def unreachedWarning (id : String) : String :=
  "Screen `" ++ id ++ "` is not reachable from the entry screen, a tab or a deep link"

/-- The warning that a data model is not used. -/
def unusedWarning (model : String) : String :=
  "Model `" ++ model ++ "` is never used and was not emitted"

theorem unreachedWarning_injective : Function.Injective unreachedWarning :=
  fun _ _ heq => Text.between_inj.mp heq

theorem unusedWarning_injective : Function.Injective unusedWarning :=
  fun _ _ heq => Text.between_inj.mp heq

/-- Of items with different keys there are different warnings. -/
theorem nodup_texts_of_sublist {α : Type} {xs ys : List α} {key : α → String}
    {text : String → String} (hkeys : (xs.map key).Nodup) (hsub : ys.Sublist xs)
    (htext : Function.Injective text) : (ys.map fun y => text (key y)).Nodup := by
  have hall := (hkeys.sublist (hsub.map key)).map htext
  rwa [List.map_map] at hall

/-! ### First and last letters -/

/-- The first letter of a text and its last one. -/
def Text.ends (s : String) : Option Char × Option Char :=
  (s.toList.head?, s.toList.getLast?)

/-- A text begins as its first part does, and ends as its last part does. -/
theorem Text.ends_append {first last : String} {c d : Char} (between : String)
    (hfirst : first.toList.head? = some c) (hlast : last.toList.getLast? = some d) :
    ends (first ++ between ++ last) = (some c, some d) := by
  simp only [ends, String.toList_append, List.append_assoc, List.head?_append, hfirst,
    List.getLast?_append, hlast, Option.some_or]

theorem ends_unreachedWarning (id : String) :
    Text.ends (unreachedWarning id) = (some 'S', some 'k') :=
  Text.ends_append id rfl rfl

theorem ends_unusedWarning (model : String) :
    Text.ends (unusedWarning model) = (some 'M', some 'd') :=
  Text.ends_append model rfl rfl

namespace AppDefinition

variable {app : AppDefinition} {trees : List NormalTree} {views : List Swift.ScreenView}
  {tokens : DesignTokens} {depth : Nat}

theorem ends_of_mem_nestingWarnings :
    ∀ w ∈ app.nestingWarnings trees depth, Text.ends w = (some 'S', some ')') := by
  intro w hw
  obtain ⟨⟨screen, tree⟩, -, rfl⟩ := List.mem_map.mp hw
  have hparts : "Screen `" ++ screen.id ++ "` nests containers " ++ toString tree.maxDepth ++
      " levels deep (more than " ++ toString depth ++ ")" =
      "Screen `" ++ (screen.id ++ ("` nests containers " ++ (toString tree.maxDepth ++
        (" levels deep (more than " ++ toString depth)))) ++ ")" := by
    simp only [String.append_assoc]
  exact (congrArg Text.ends hparts).trans (Text.ends_append _ rfl rfl)

/-- The warnings of the store and of colors, which stand last. -/
def lastWarnings (app : AppDefinition) (tokens : DesignTokens) : List String :=
  app.storeWarnings ++ tokens.colors.shortfalls.map fun s => "Contrast: " ++ s.message

theorem head_of_mem_storeWarnings : ∀ w ∈ app.storeWarnings, (Text.ends w).1 = some 'P' := by
  intro w hw
  unfold storeWarnings at hw
  dsimp only at hw
  split at hw
  · cases hw
  · rw [List.mem_singleton.mp hw]
    exact congrArg Prod.fst (Text.ends_append _ rfl rfl)

theorem head_of_mem_lastWarnings :
    ∀ w ∈ app.lastWarnings tokens, (Text.ends w).1 = some 'P' ∨ (Text.ends w).1 = some 'C' := by
  intro w hw
  rcases List.mem_append.mp hw with hw | hw
  · exact Or.inl (head_of_mem_storeWarnings w hw)
  · obtain ⟨s, -, rfl⟩ := List.mem_map.mp hw
    refine Or.inr ?_
    simp only [Text.ends, String.toList_append, List.head?_append]
    rfl

theorem warnings_eq : app.warnings trees views tokens depth =
    app.nestingWarnings trees depth ++ app.reachWarnings views ++ app.unusedWarnings ++
      app.lastWarnings tokens := by
  rw [warnings, lastWarnings, List.append_assoc _ app.storeWarnings]

variable (app trees views tokens) in
/-- **Warnings of deep nesting stand first, and no other warning reads as one of them.**  What
follows them does not depend on the depth that is allowed. -/
theorem split_nested : ∃ after, ∀ depth,
    app.warnings trees views tokens depth = app.nestingWarnings trees depth ++ after ∧
      ∀ w ∈ after, w ∉ app.nestingWarnings trees depth := by
  refine ⟨app.reachWarnings views ++ app.unusedWarnings ++ app.lastWarnings tokens,
    fun depth => ⟨?_, fun w hw hnested => ?_⟩⟩
  · rw [warnings_eq, List.append_assoc, List.append_assoc, List.append_assoc]
  have hends := ends_of_mem_nestingWarnings w hnested
  rcases List.mem_append.mp hw with hw | hw
  · rcases List.mem_append.mp hw with hw | hw
    · obtain ⟨id, -, rfl⟩ := List.mem_map.mp hw
      rw [← unreachedWarning, ends_unreachedWarning] at hends
      cases hends
    · obtain ⟨m, -, rfl⟩ := List.mem_map.mp hw
      rw [← unusedWarning, ends_unusedWarning] at hends
      cases hends
  · rcases head_of_mem_lastWarnings w hw with hhead | hhead
    all_goals
      rw [hends] at hhead
      cases hhead

variable (app trees views tokens depth) in
/-- **Warnings that a screen cannot be reached stand together, and no other warning reads as one
of them.** -/
theorem split_unreached : ∃ before after,
    app.warnings trees views tokens depth = before ++ app.reachWarnings views ++ after ∧
      ∀ w ∈ before ++ after, ∀ id, w ≠ unreachedWarning id := by
  refine ⟨app.nestingWarnings trees depth, app.unusedWarnings ++ app.lastWarnings tokens, ?_, ?_⟩
  · rw [warnings_eq, List.append_assoc]
  · intro w hw id heq
    have hends : Text.ends w = (some 'S', some 'k') := by rw [heq, ends_unreachedWarning]
    rcases List.mem_append.mp hw with hw | hw
    · rw [ends_of_mem_nestingWarnings w hw] at hends
      cases hends
    rcases List.mem_append.mp hw with hw | hw
    · obtain ⟨m, -, rfl⟩ := List.mem_map.mp hw
      rw [← unusedWarning, ends_unusedWarning] at hends
      cases hends
    · rcases head_of_mem_lastWarnings w hw with hhead | hhead
      all_goals
        rw [hends] at hhead
        cases hhead

variable (app trees views tokens depth) in
/-- **Warnings that a data model is not used stand together, and no other warning reads as one of
them.** -/
theorem split_unused : ∃ before after,
    app.warnings trees views tokens depth = before ++ app.unusedWarnings ++ after ∧
      ∀ w ∈ before ++ after, ∀ model, w ≠ unusedWarning model := by
  refine ⟨app.nestingWarnings trees depth ++ app.reachWarnings views, app.lastWarnings tokens,
    warnings_eq, fun w hw model heq => ?_⟩
  have hends : Text.ends w = (some 'M', some 'd') := by rw [heq, ends_unusedWarning]
  rcases List.mem_append.mp hw with hw | hw
  · rcases List.mem_append.mp hw with hw | hw
    · rw [ends_of_mem_nestingWarnings w hw] at hends
      cases hends
    · obtain ⟨id, -, rfl⟩ := List.mem_map.mp hw
      rw [← unreachedWarning, ends_unreachedWarning] at hends
      cases hends
  · rcases head_of_mem_lastWarnings w hw with hhead | hhead
    all_goals
      rw [hends] at hhead
      cases hhead

end AppDefinition

end Screenwright
