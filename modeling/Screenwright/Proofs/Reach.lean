/-
What the search over a graph of names finds.

`Reached` is the least set that holds the names to begin with and, with every name, those that
the name leads to.  The search finds this set and nothing else, in two halves.

  * It meets no name outside a set that holds the starts and is closed under the targets.
  * What it has seen in the end is such a set itself.  While it runs, the targets of what has
    been seen are seen or wait in the queue, and it ends with the queue empty: every step takes
    one name off the queue or trades targets that are pending for as many in the queue, so
    their number goes down by one in each, and the search has as many steps as they are.

The graph may have cycles; a name that has been seen is not expanded again.
-/
import Mathlib.Tactic.Common
import Screenwright.Reach

namespace Screenwright

/-- The least set of names that holds some to begin with, and with every name those that it
leads to. -/
inductive Reached (start : String → Prop) (leads : String → String → Prop) : String → Prop where
  | start {name : String} (h : start name) : Reached start leads name
  | step {here there : String} (h : Reached start leads here) (hleads : leads here there) :
      Reached start leads there

/-- A set of names that is closed under what they lead to holds all that is reached from it. -/
theorem Reached.least {start : String → Prop} {leads : String → String → Prop}
    {p : String → Prop} (hstart : ∀ name, start name → p name)
    (hclosed : ∀ here there, p here → leads here there → p there) {name : String}
    (h : Reached start leads name) : p name := by
  induction h with
  | start h => exact hstart _ h
  | step _ hleads ih => exact hclosed _ _ ih hleads

namespace Graph

variable {graph : Graph}

theorem mem_targets {here there : String} :
    there ∈ graph.targets here ↔ ∃ entry ∈ graph, entry.1 = here ∧ there ∈ entry.2 := by
  simp only [targets, List.mem_flatMap, List.mem_filter, decide_eq_true_eq, and_assoc]

/-! ### The search stays inside any closed set -/

theorem forall_visit {p : String → Prop}
    (hclosed : ∀ here, p here → ∀ there ∈ graph.targets here, p there) :
    ∀ (steps : Nat) (queue seen : List String), (∀ name ∈ queue, p name) →
      (∀ name ∈ seen, p name) → ∀ name ∈ graph.visit steps queue seen, p name := by
  intro steps
  induction steps with
  | zero => exact fun _ _ _ hseen => hseen
  | succ steps ih =>
      intro queue seen hqueue hseen
      cases queue with
      | nil => exact hseen
      | cons name queue =>
          rw [List.forall_mem_cons] at hqueue
          unfold visit
          split
          · exact ih queue seen hqueue.2 hseen
          · refine ih _ _ (List.forall_mem_append.mpr ⟨hqueue.2, hclosed name hqueue.1⟩) ?_
            exact List.forall_mem_cons.mpr ⟨hqueue.1, hseen⟩

/-! ### What the search has seen is closed -/

/-- The targets of what has been seen are seen as well, or wait to be. -/
def Covers (graph : Graph) (queue seen : List String) : Prop :=
  ∀ here ∈ seen, ∀ there ∈ graph.targets here, there ∈ seen ∨ there ∈ queue

/-- **With enough steps, the search sees all that waits and all that this leads to.** -/
theorem visit_covers :
    ∀ (steps : Nat) (queue seen : List String), queue.length + graph.pending seen ≤ steps →
      graph.Covers queue seen →
      (∀ name, name ∈ queue ∨ name ∈ seen → name ∈ graph.visit steps queue seen) ∧
        graph.Covers [] (graph.visit steps queue seen) := by
  intro steps
  induction steps with
  | zero =>
      intro queue seen hsteps hcovers
      obtain rfl : queue = [] := List.length_eq_zero_iff.mp (by omega)
      exact ⟨fun name h => h.resolve_left List.not_mem_nil, hcovers⟩
  | succ steps ih =>
      intro queue seen hsteps hcovers
      cases queue with
      | nil => exact ⟨fun name h => h.resolve_left List.not_mem_nil, hcovers⟩
      | cons name queue =>
          rw [List.length_cons] at hsteps
          unfold visit
          split
          next hold =>
            rw [List.contains_iff_mem] at hold
            have hrest : graph.Covers queue seen := by
              intro here hhere there hthere
              rcases hcovers here hhere there hthere with h | h
              · exact Or.inl h
              · rcases List.mem_cons.mp h with rfl | h
                · exact Or.inl hold
                · exact Or.inr h
            obtain ⟨hall, hclosed⟩ := ih queue seen (by omega) hrest
            refine ⟨fun other h => hall other ?_, hclosed⟩
            rcases h with h | h
            · rcases List.mem_cons.mp h with rfl | h
              · exact Or.inr hold
              · exact Or.inl h
            · exact Or.inr h
          next hnew =>
            rw [List.contains_iff_mem] at hnew
            have hpending := graph.pending_cons name seen hnew
            have hrest : graph.Covers (queue ++ graph.targets name) (name :: seen) := by
              intro here hhere there hthere
              rcases List.mem_cons.mp hhere with rfl | hhere
              · exact Or.inr (List.mem_append_right _ hthere)
              · rcases hcovers here hhere there hthere with h | h
                · exact Or.inl (List.mem_cons_of_mem _ h)
                · rcases List.mem_cons.mp h with rfl | h
                  · exact Or.inl List.mem_cons_self
                  · exact Or.inr (List.mem_append_left _ h)
            obtain ⟨hall, hclosed⟩ := ih _ _ (by rw [List.length_append]; omega) hrest
            refine ⟨fun other h => hall other ?_, hclosed⟩
            rcases h with h | h
            · rcases List.mem_cons.mp h with rfl | h
              · exact Or.inr List.mem_cons_self
              · exact Or.inl (List.mem_append_left _ h)
            · exact Or.inr (List.mem_cons_of_mem _ h)

/-! ### The search finds what is reached -/

/-- **The search finds the least set that holds the starts and is closed under the targets.** -/
theorem mem_reach_iff {starts : List String} {start : String → Prop}
    {leads : String → String → Prop} (hstart : ∀ name, name ∈ starts ↔ start name)
    (hleads : ∀ here there, there ∈ graph.targets here ↔ leads here there) {name : String} :
    name ∈ graph.reach starts ↔ Reached start leads name := by
  have hempty : graph.Covers starts [] := fun here hhere => absurd hhere List.not_mem_nil
  obtain ⟨hall, hclosed⟩ :=
    visit_covers (starts.length + graph.pending []) starts [] (Nat.le_refl _) hempty
  constructor
  · refine forall_visit (fun here hhere there hthere => ?_) _ starts [] (fun first hfirst => ?_)
      (List.forall_mem_nil _) name
    · exact .step hhere ((hleads here there).mp hthere)
    · exact .start ((hstart first).mp hfirst)
  · intro h
    refine h.least (p := fun name => name ∈ graph.reach starts) (fun first hfirst => ?_)
      fun here there hhere hthere => ?_
    · exact hall first (Or.inl ((hstart first).mpr hfirst))
    · exact (hclosed here hhere there ((hleads here there).mpr hthere)).resolve_right
        List.not_mem_nil

end Graph

end Screenwright
