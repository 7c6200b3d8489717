/-
The limits of a tree, measured.

The walk that enforces the limits keeps a stack of trees and a running count.  What stands on the
stack is what the pre-order has left: `walk_eq` says so, with the walk on one side and a run over
the visits on the other, and after it no stack is in sight.  A run over a list stops at the first
node that exceeds a limit (`errs_iff_firstIn`), and whether there is one is a matter of two
measures of the tree, its size and the lengths of its lines.
-/
import Screenwright.Check.Normalize
import Screenwright.Proofs.First

namespace Screenwright

/-! ### Lines of a tree -/

namespace Tree

variable {α : Type}

/-- The nodes from the root of the tree to one of its nodes, both included. -/
inductive Line : Tree α → List α → Prop where
  | here {a : α} {ts : List (Tree α)} : Line (node a ts) [a]
  | down {a : α} {ts : List (Tree α)} {t : Tree α} {line : List α} (child : t ∈ ts)
      (rest : Line t line) : Line (node a ts) (a :: line)

theorem line_node_iff {a : α} {ts : List (Tree α)} {line : List α} :
    Line (node a ts) line ↔ line = [a] ∨ ∃ t ∈ ts, ∃ rest, line = a :: rest ∧ Line t rest := by
  constructor
  · rintro (_ | ⟨ht, hrest⟩)
    · exact Or.inl rfl
    · exact Or.inr ⟨_, ht, _, rfl, hrest⟩
  · rintro (rfl | ⟨t, ht, rest, rfl, hrest⟩)
    · exact .here
    · exact .down ht hrest

theorem visitsAll_eq_flatMap (above : List α) (ts : List (Tree α)) :
    visitsAll above ts = ts.flatMap (visitsBelow above) := by
  induction ts with
  | nil => rfl
  | cons t ts ih => rw [visitsAll, ih, List.flatMap_cons]

mutual

/-- What is met below the given nodes lies on a line of the tree. -/
theorem mem_lines_visitsBelow {above line : List α} :
    ∀ t : Tree α, line ∈ (visitsBelow above t).map Visit.line ↔
      ∃ rest, t.Line rest ∧ line = above ++ rest
  | node a ts => by
    rw [visitsBelow, List.map_cons, List.mem_cons, mem_lines_visitsAll ts]
    simp only [line_node_iff]
    constructor
    · rintro (rfl | ⟨t, ht, rest, hrest, rfl⟩)
      · exact ⟨[a], Or.inl rfl, rfl⟩
      · exact ⟨a :: rest, Or.inr ⟨t, ht, rest, rfl, hrest⟩, by simp⟩
    · rintro ⟨_, rfl | ⟨t, ht, rest, rfl, hrest⟩, rfl⟩
      · exact Or.inl rfl
      · exact Or.inr ⟨t, ht, rest, hrest, by simp⟩

/-- `mem_lines_visitsBelow` for several trees. -/
theorem mem_lines_visitsAll {above line : List α} :
    ∀ ts : List (Tree α), line ∈ (visitsAll above ts).map Visit.line ↔
      ∃ t ∈ ts, ∃ rest, t.Line rest ∧ line = above ++ rest
  | [] => by simp [visitsAll]
  | t :: ts => by
    rw [visitsAll, List.map_append, List.mem_append, mem_lines_visitsBelow t,
      mem_lines_visitsAll ts]
    simp only [List.mem_cons, exists_eq_or_imp]

end

/-- A traversal meets every line of the tree, and no other. -/
theorem mem_lines_iff {t : Tree α} {line : List α} :
    line ∈ t.visits.map Visit.line ↔ t.Line line := by
  simp [visits, mem_lines_visitsBelow]

theorem length_visits (t : Tree α) : t.visits.length = t.size := by
  rw [← length_preorder, ← map_value_visitsBelow [] t, List.length_map, visits]

end Tree

/-! ### The stack -/

namespace Waiting

theorem push_eq (stack : Waiting) (path : NodePath) (children : List ComponentTree) :
    stack.push path children =
      children.map (fun child => (path ++ [child.value.id], child)) ++ stack := by
  induction children with
  | nil => rfl
  | cons child rest ih =>
      rw [List.map_cons, List.cons_append, ← ih]
      rfl

end Waiting

namespace Limits

variable {limits : Limits}

/-- Looks at visits, after `count` others. -/
def scan (limits : Limits) (count : Nat) : List (Visit Component) → Except NormalizeError Unit
  | [] => .ok ()
  | v :: rest =>
    if limits.maxDepth < v.depth then
      .error ⟨Component.path v, .limitExceeded .depth limits.maxDepth⟩
    else if limits.maxNodes < count + 1 then
      .error ⟨Component.path v, .limitExceeded .nodeCount limits.maxNodes⟩
    else scan limits (count + 1) rest

/-- A tree below the given components, as it stands on the stack. -/
def address (hung : List Component × ComponentTree) : NodePath × ComponentTree :=
  ((hung.1 ++ [hung.2.value]).map Component.id, hung.2)

/-- What is met of trees below the given components, one tree after the other. -/
def met (hung : List (List Component × ComponentTree)) : List (Visit Component) :=
  hung.flatMap fun h => h.2.visitsBelow h.1

theorem exists_of_cons_eq {path : NodePath} {c : Component} {children : List ComponentTree}
    {stack : Waiting} {hung : List (List Component × ComponentTree)}
    (h : (path, .node c children) :: stack = hung.map address) :
    ∃ above rest, hung = (above, .node c children) :: rest ∧
      path = (above ++ [c]).map Component.id ∧ stack = rest.map address := by
  obtain ⟨⟨above, t⟩, rest, rfl, hfirst, hrest⟩ := List.map_eq_cons_iff.mp h.symm
  cases hfirst
  exact ⟨above, rest, rfl, rfl, hrest.symm⟩

theorem push_address {above : List Component} {c : Component} {children : List ComponentTree}
    {rest : List (List Component × ComponentTree)} :
    Waiting.push (rest.map address) ((above ++ [c]).map Component.id) children =
      (children.map (fun child => (above ++ [c], child)) ++ rest).map address := by
  rw [Waiting.push_eq, List.map_append (f := address), List.map_map]
  refine congrArg (· ++ _) (List.map_congr_left fun child _ => ?_)
  simp [address]

theorem met_node {above : List Component} {c : Component} {children : List ComponentTree}
    {rest : List (List Component × ComponentTree)} :
    met ((above, .node c children) :: rest) =
      ⟨above, c, children.length⟩ ::
        met (children.map (fun child => (above ++ [c], child)) ++ rest) := by
  simp [met, Tree.visitsBelow, Tree.visitsAll_eq_flatMap, List.flatMap_map]

/-- **What stands on the stack is what the pre-order has left.** -/
theorem walk_eq (count : Nat) (stack : Waiting) (hung : List (List Component × ComponentTree))
    (h : stack = hung.map address) : limits.walk count stack = limits.scan count (met hung) := by
  fun_induction walk limits count stack generalizing hung with
  | case1 count =>
      rw [List.map_eq_nil_iff.mp h.symm]
      rfl
  | case2 count path c children stack hdeep =>
      obtain ⟨above, rest, rfl, rfl, -⟩ := exists_of_cons_eq h
      rw [met_node, scan, if_pos (by simpa [Visit.depth] using hdeep)]
      rfl
  | case3 count path c children stack hdeep hmany =>
      obtain ⟨above, rest, rfl, rfl, -⟩ := exists_of_cons_eq h
      rw [met_node, scan, if_neg (by simpa [Visit.depth] using hdeep), if_pos hmany]
      rfl
  | case4 count path c children stack hdeep hmany ih =>
      obtain ⟨above, rest, rfl, rfl, rfl⟩ := exists_of_cons_eq h
      rw [met_node, scan, if_neg (by simpa [Visit.depth] using hdeep), if_neg hmany,
        ih _ push_address]

theorem check_eq (limits : Limits) (root : ComponentTree) :
    limits.check root = limits.scan 0 root.visits := by
  have hwalk : limits.check root = limits.scan 0 (met [([], root)]) := walk_eq 0 _ _ rfl
  rwa [met, List.flatMap_singleton] at hwalk

/-! ### The run -/

/-- The node exceeds a limit where it stands, after the given ones. -/
def Exceeds (limits : Limits) (before : List (Visit Component)) (v : Visit Component) : Prop :=
  limits.maxDepth < v.depth ∨ limits.maxNodes < before.length + 1

/-- What is wrong with a node that exceeds a limit: first of all, that it lies too deep. -/
def excess (limits : Limits) (v : Visit Component) : NormalizeError :=
  ⟨Component.path v,
    if limits.maxDepth < v.depth then .limitExceeded .depth limits.maxDepth
    else .limitExceeded .nodeCount limits.maxNodes⟩

theorem scan_of_exceeds {before rest : List (Visit Component)} {v : Visit Component}
    (h : limits.Exceeds before v) :
    limits.scan before.length (v :: rest) = .error (limits.excess v) := by
  rw [scan, excess]
  by_cases hdeep : limits.maxDepth < v.depth
  · rw [if_pos hdeep, if_pos hdeep]
  · rw [if_neg hdeep, if_pos (h.resolve_left hdeep), if_neg hdeep]

theorem scan_of_not_exceeds {before rest : List (Visit Component)} {v : Visit Component}
    (h : ¬ limits.Exceeds before v) :
    limits.scan before.length (v :: rest) = limits.scan (before ++ [v]).length rest := by
  obtain ⟨hdeep, hmany⟩ := not_or.mp h
  rw [scan, if_neg hdeep, if_neg hmany, List.length_append, List.length_singleton]

/-- The run stops at the first node that exceeds a limit. -/
theorem check_eq_error_iff {root : ComponentTree} {e : NormalizeError} :
    limits.check root = .error e ↔
      ∃ before v, FirstIn limits.Exceeds root.visits before v ∧ e = limits.excess v := by
  rw [check_eq]
  refine (errs_iff_firstIn (fun count visits e => limits.scan count visits = .error e)
    (fun before count => count = before.length)
    (fun before v e => limits.Exceeds before v ∧ e = limits.excess v)
    (fun _ _ h => by cases h) ?_ [] 0 rfl).trans ?_
  · rintro before _ v rest rfl
    by_cases hexceeds : limits.Exceeds before v
    · refine Or.inl ⟨⟨_, hexceeds, rfl⟩, fun e => ?_⟩
      rw [scan_of_exceeds hexceeds, Except.error.injEq]
      exact ⟨fun h => ⟨hexceeds, h.symm⟩, fun h => h.2.symm⟩
    · refine Or.inr ⟨fun ⟨_, h, _⟩ => hexceeds h, _, rfl, fun e => ?_⟩
      rw [scan_of_not_exceeds hexceeds]
  · simp only [List.nil_append, exists_and_left, exists_eq, and_true]
    exact exists₂_congr fun before v => and_congr_right fun h => and_iff_right h.meets

/-! ### Measures of the tree -/

/-- A node exceeds the number of nodes if the last one does. -/
theorem anyIn_exceeds_iff {visits : List (Visit Component)} :
    AnyIn limits.Exceeds visits ↔
      limits.maxNodes < visits.length ∨ ∃ v ∈ visits, limits.maxDepth < v.depth := by
  constructor
  · rintro ⟨before, v, after, rfl, hdeep | hmany⟩
    · exact Or.inr ⟨v, by simp, hdeep⟩
    · refine Or.inl (Nat.lt_of_lt_of_le hmany ?_)
      simp
  · rintro (hmany | ⟨v, hv, hdeep⟩)
    · have hne : visits ≠ [] := List.ne_nil_of_length_pos (Nat.zero_lt_of_lt hmany)
      refine ⟨visits.dropLast, visits.getLast hne, [],
        (List.dropLast_append_getLast hne).symm, Or.inr ?_⟩
      rw [List.length_dropLast]
      omega
    · obtain ⟨before, after, rfl⟩ := List.append_of_mem hv
      exact ⟨before, v, after, rfl, Or.inl hdeep⟩

theorem check_ne_ok_iff {root : ComponentTree} :
    limits.check root ≠ .ok () ↔ AnyIn limits.Exceeds root.visits := by
  rw [ne_ok_iff, ← exists_firstIn_iff]
  simp only [check_eq_error_iff]
  constructor
  · rintro ⟨_, before, v, hfirst, -⟩
    exact ⟨before, v, hfirst⟩
  · rintro ⟨before, v, hfirst⟩
    exact ⟨_, before, v, hfirst, rfl⟩

theorem check_eq_ok_iff {root : ComponentTree} :
    limits.check root = .ok () ↔ root.size ≤ limits.maxNodes ∧
      ∀ v ∈ root.visits, v.depth ≤ limits.maxDepth := by
  rw [← not_iff_not, ← ne_eq, check_ne_ok_iff, anyIn_exceeds_iff, Tree.length_visits]
  simp only [not_and_or, not_forall, exists_prop, Nat.not_le]

/-- **The limits are those of two measures of the tree.**  A tree passes if it has no more nodes
than allowed, and none of its lines is longer than allowed.  Any other tree is refused for the
first node, in pre-order, that lies too deep or is one too many, with the path to it; one that is
both is reported as too deep. -/
theorem check_measures_tree (limits : Limits) (root : ComponentTree) :
    (limits.check root = .ok () ↔ root.size ≤ limits.maxNodes ∧
      ∀ line, root.Line line → line.length ≤ limits.maxDepth) ∧
    ∀ e, limits.check root = .error e ↔
      ∃ before v, FirstIn limits.Exceeds root.visits before v ∧ e = limits.excess v := by
  refine ⟨?_, fun e => check_eq_error_iff⟩
  rw [check_eq_ok_iff]
  refine and_congr_right fun _ => ?_
  simp only [← Tree.mem_lines_iff, List.forall_mem_map, Visit.line, Visit.depth,
    List.length_append, List.length_singleton]

/-- The title lies too deep and is one too many. -/
example : check ⟨1, 1⟩ (.node ⟨"row", "HStack", [], [], []⟩ [
      .node ⟨"title", "Text", [], [], []⟩ []]) =
    .error ⟨["row", "title"], .limitExceeded .depth 1⟩ := by
  rw [check_eq]
  rfl

end Limits

end Screenwright
