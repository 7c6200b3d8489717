/-
What can be reached in a graph of names.

The names still to be visited wait in a queue.  A name is expanded once, so the length of
the queue and the number of targets not yet expanded go down together by one in every
step; their sum is how many steps there are.
-/

namespace Screenwright

/-- A graph: names with the names they lead to. -/
abbrev Graph := List (String × List String)

namespace Graph

/-- The names that a name leads to. -/
def targets (graph : Graph) (name : String) : List String :=
  (graph.filter fun (n, _) => n = name).flatMap Prod.snd

/-- The number of targets of the names that have not been seen. -/
def pending (graph : Graph) (seen : List String) : Nat :=
  ((graph.filter fun (n, _) => !seen.contains n).flatMap Prod.snd).length

/-- Visits the queue for a number of steps. -/
def visit (graph : Graph) : Nat → List String → List String → List String
  | 0, _, seen => seen
  | _ + 1, [], seen => seen
  | steps + 1, name :: queue, seen =>
    if seen.contains name then visit graph steps queue seen
    else visit graph steps (queue ++ graph.targets name) (name :: seen)

/-- The names that can be reached from some names, those included. -/
def reach (graph : Graph) (starts : List String) : List String :=
  graph.visit (starts.length + graph.pending []) starts []

/-- Expanding a name takes its targets out of those that are pending. -/
theorem pending_cons (graph : Graph) (name : String) (seen : List String)
    (h : name ∉ seen) :
    graph.pending (name :: seen) + (graph.targets name).length = graph.pending seen := by
  induction graph with
  | nil => rfl
  | cons entry rest ih =>
    obtain ⟨n, ts⟩ := entry
    simp only [pending, targets, List.filter_cons, List.contains_cons] at ih ⊢
    by_cases hn : n = name
    · subst hn
      simp [h, List.flatMap_cons] at ih ⊢
      omega
    · have hbeq : (n == name) = false := by simpa using hn
      by_cases hs : n ∈ seen
      · simpa [hn, hs] using ih
      · simp [hn, hs, List.flatMap_cons] at ih ⊢
        omega

end Graph

end Screenwright
