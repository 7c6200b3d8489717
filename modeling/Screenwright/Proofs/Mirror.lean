/-
A normalized tree is the tree that it was made from.

Normalization is a single pass.  It checks a component, counts it, notes how deep it lies if it
has children, notes where it leads, and goes on to what is below it.  `Survey` is what such a pass
keeps up to date, and `surveyed` is the pass.  The numbers and the references of a normalized tree
are read off the tree once it is finished; that is the same, because a pass over a tree meets what
the pre-order lists: `run_visit` carries the whole state along the tree, and the four parts of the
result are compared with the lists only at the end.

Two trees are compared by `Pairs`, node by node and with the depth of each node.  The order in
which a reader of the tree meets its nodes is that of a stack; `unstack_eq` says that it is the
pre-order.
-/
import Screenwright.Proofs.Literals.Normal

namespace Screenwright

open Steps

/-! ### Trees -/

namespace Tree

variable {α β γ : Type}

mutual

/-- The subtrees in pre-order, the tree itself first. -/
def subtrees : Tree α → List (Tree α)
  | node a ts => node a ts :: subtreesAll ts

/-- The subtrees of several trees, one tree after the other. -/
def subtreesAll : List (Tree α) → List (Tree α)
  | [] => []
  | t :: ts => subtrees t ++ subtreesAll ts

end

@[simp] theorem sizeAll_append (ts us : List (Tree α)) :
    sizeAll (ts ++ us) = sizeAll ts + sizeAll us := by
  induction ts with
  | nil => simp [sizeAll]
  | cons t ts ih => simp [sizeAll, ih, Nat.add_assoc]

@[simp] theorem preorderAll_append (ts us : List (Tree α)) :
    preorderAll (ts ++ us) = preorderAll ts ++ preorderAll us := by
  induction ts with
  | nil => simp [preorderAll]
  | cons t ts ih => simp [preorderAll, ih, List.append_assoc]

/-- The values as they come off a stack of trees, whose top is the head of the list: the topmost
tree gives its root, and its children take its place, the first of them on top. -/
def unstack : List (Tree α) → List α
  | [] => []
  | node a ts :: stack => a :: unstack (ts ++ stack)
termination_by stack => sizeAll stack
decreasing_by
  simp only [sizeAll_append, sizeAll, size]
  omega

/-- **A stack gives the values in pre-order.** -/
theorem unstack_eq (stack : List (Tree α)) : unstack stack = preorderAll stack := by
  fun_induction unstack stack with
  | case1 => rfl
  | case2 a ts stack ih => simp [ih, preorderAll, preorder]

/-! ### Pairs of trees -/

mutual

/-- The trees have the same shape, and each node of the one is related to the node of the other
that stands in its place, at the depth of both; the roots have the given depth. -/
inductive Pairs (r : Nat → α → β → Prop) : Nat → Tree α → Tree β → Prop where
  | node {depth : Nat} {a : α} {b : β} {ts : List (Tree α)} {us : List (Tree β)}
      (value : r depth a b) (children : PairsAll r (depth + 1) ts us) :
      Pairs r depth (node a ts) (node b us)

/-- `Pairs` for several trees. -/
inductive PairsAll (r : Nat → α → β → Prop) : Nat → List (Tree α) → List (Tree β) → Prop where
  | nil {depth : Nat} : PairsAll r depth [] []
  | cons {depth : Nat} {t : Tree α} {u : Tree β} {ts : List (Tree α)} {us : List (Tree β)}
      (head : Pairs r depth t u) (tail : PairsAll r depth ts us) :
      PairsAll r depth (t :: ts) (u :: us)

end

section Pairs

variable {r : Nat → α → β → Prop}

theorem PairsAll.length_eq {depth : Nat} {ts : List (Tree α)} :
    ∀ {us : List (Tree β)}, PairsAll r depth ts us → us.length = ts.length := by
  induction ts with
  | nil =>
      intro us h
      cases h
      rfl
  | cons t ts ih =>
      intro us h
      cases h with
      | cons _ htail => simp [ih htail]

mutual

/-- What the nodes have in common, the pre-orders have. -/
theorem Pairs.map_preorder {f : α → γ} {g : β → γ} (hr : ∀ depth a b, r depth a b → g b = f a) :
    ∀ {depth : Nat} (t : Tree α) {u : Tree β}, Pairs r depth t u →
      u.preorder.map g = t.preorder.map f
  | _, .node a ts, _, .node hvalue hchildren => by
    simp [preorder, hr _ _ _ hvalue, PairsAll.map_preorderAll hr ts hchildren]

/-- `Pairs.map_preorder` for several trees. -/
theorem PairsAll.map_preorderAll {f : α → γ} {g : β → γ}
    (hr : ∀ depth a b, r depth a b → g b = f a) :
    ∀ {depth : Nat} (ts : List (Tree α)) {us : List (Tree β)}, PairsAll r depth ts us →
      (preorderAll us).map g = (preorderAll ts).map f
  | _, [], _, .nil => rfl
  | _, t :: ts, _, .cons hhead htail => by
    simp [preorderAll, Pairs.map_preorder hr t hhead, PairsAll.map_preorderAll hr ts htail]

end

/-- Trees of the same shape have the same size. -/
theorem Pairs.size_eq {depth : Nat} {t : Tree α} {u : Tree β} (h : Pairs r depth t u) :
    u.size = t.size := by
  have hmap := h.map_preorder (f := fun _ => ()) (g := fun _ => ()) (fun _ _ _ _ => rfl)
  have hlength := congrArg List.length hmap
  simpa [length_preorder] using hlength

end Pairs

section Traverse

variable {ε σ : Type} {f : Visit α → StateT σ (Except ε) β} {r : Nat → α → β → Prop}

mutual

/-- A traversal pairs the nodes of a tree with what it makes of them. -/
theorem pairs_of_traverseBelow
    (hf : ∀ v s b s', (f v).run s = .ok (b, s') → r v.depth v.value b) (above : List α) :
    ∀ (t : Tree α) (s : σ) (u : Tree β) (s' : σ),
      (traverseBelow f above t).run s = .ok (u, s') → Pairs r (above.length + 1) t u
  | node a ts, s, u, s', h => by
    obtain ⟨b, s₁, us, hb, hus, rfl⟩ := exists_of_traverseBelow h
    have hall := pairs_of_traverseAll hf (above ++ [a]) ts s₁ us s' hus
    rw [List.length_append, List.length_singleton] at hall
    exact .node (hf _ s b s₁ hb) hall

/-- `pairs_of_traverseBelow` for several trees. -/
theorem pairs_of_traverseAll
    (hf : ∀ v s b s', (f v).run s = .ok (b, s') → r v.depth v.value b) (above : List α) :
    ∀ (ts : List (Tree α)) (s : σ) (us : List (Tree β)) (s' : σ),
      (traverseAll f above ts).run s = .ok (us, s') → PairsAll r (above.length + 1) ts us
  | [], s, us, s', h => by
    cases h
    exact .nil
  | t :: ts, s, us, s', h => by
    obtain ⟨u, s₁, us₁, hu, hus, rfl⟩ := exists_of_traverseAll h
    exact .cons (pairs_of_traverseBelow hf above t s u s₁ hu)
      (pairs_of_traverseAll hf above ts s₁ us₁ s' hus)

end

end Traverse

end Tree

/-! ### One node -/

/-- What a component becomes at a depth. -/
structure Component.Becomes (catalog : Catalog) (depth : Nat) (c : Component) (e : Element) :
    Prop where
  id : e.id = c.id
  type : e.type = c.type
  bindings : e.bindings = c.bindings
  modifiers : e.modifiers = c.modifiers
  /-- The schema of the type gives the properties and the kind. -/
  schema : ∃ schema, catalog.schema c.type = .ok schema ∧
    schema.validate c.props = .ok e.props ∧ schema.info.kind = e.kind
  depth : e.depth = depth

theorem Component.becomes_of_checkAlone {catalog : Catalog} {v : Visit Component} {e : Element}
    (h : checkAlone catalog v = .ok e) : v.value.Becomes catalog v.depth e := by
  obtain ⟨schema, hschema, h⟩ := bind_eq_ok.mp h
  obtain ⟨props, hprops, h⟩ := bind_eq_ok.mp h
  split at h
  · obtain ⟨_, -, h⟩ := bind_eq_ok.mp h
    obtain ⟨_, -, h⟩ := bind_eq_ok.mp h
    obtain ⟨_, -, h⟩ := bind_eq_ok.mp h
    cases h
    exact ⟨rfl, rfl, rfl, rfl,
      ⟨schema, mapError_eq_ok.mp hschema, mapError_eq_ok.mp hprops, rfl⟩, rfl⟩
  · cases h

/-! ### The pass -/

/-- What a pass over a tree keeps up to date. -/
structure Survey where
  seen : Component.Seen
  references : List ScreenReference
  nodeCount : Nat
  maxDepth : Nat

namespace Survey

/-- Before the first node. -/
def none : Survey := ⟨[], [], 0, 0⟩

/-- The survey after one more node. -/
def note (s : Survey) (seen : Component.Seen) (v : Visit Component) (e : Element) : Survey where
  seen := seen
  references := s.references ++ e.references
  nodeCount := s.nodeCount + 1
  maxDepth := if v.width = 0 then s.maxDepth else max s.maxDepth v.depth

/-- Checks a node against what has been met, and takes note of it. -/
def visit (catalog : Catalog) (v : Visit Component) :
    StateT Survey (Except NormalizeError) Element := fun s =>
  ((Component.check catalog v).run s.seen).map fun (e, seen) => (e, s.note seen v e)

/-- The survey after the nodes of a list. -/
def after (s : Survey) (seen : Component.Seen) (visits : List (Visit Element)) : Survey where
  seen := seen
  references := s.references ++ visits.flatMap fun v => v.value.references
  nodeCount := s.nodeCount + visits.length
  maxDepth := (visits.filter fun v => v.width ≠ 0).foldl (fun deepest v => max deepest v.depth)
    s.maxDepth

end Survey

/-- Checks a component tree against a catalog, and takes note of everything on the way. -/
def surveyed (root : ComponentTree) (catalog : Catalog) (limits : Limits) :
    Except NormalizeError NormalTree := do
  limits.check root
  let (elements, s) ← (root.traverse (Survey.visit catalog)).run .none
  return ⟨elements, s.nodeCount, s.maxDepth, s.references⟩

namespace Survey

variable {catalog : Catalog}

theorem run_eq_map (v : Visit Component) (s : Survey) :
    (visit catalog v).run s =
      ((Component.check catalog v).run s.seen).map fun (e, seen) => (e, s.note seen v e) := rfl

theorem note_seen (s : Survey) (seen : Component.Seen) (v : Visit Component) (e : Element) :
    (s.note seen v e).seen = seen := rfl

theorem after_seen (s : Survey) (seen : Component.Seen) (visits : List (Visit Element)) :
    (s.after seen visits).seen = seen := rfl

theorem after_append (s : Survey) (seen seen' : Component.Seen) (vs ws : List (Visit Element)) :
    (s.after seen vs).after seen' ws = s.after seen' (vs ++ ws) := by
  simp [after, Nat.add_assoc]

theorem note_eq_after (s : Survey) (seen : Component.Seen) {v : Visit Component} {e : Element}
    {above : List Element} (habove : above.length = v.above.length) :
    s.note seen v e = s.after seen [⟨above, e, v.width⟩] := by
  by_cases hwidth : v.width = 0
  · simp [note, after, hwidth]
  · simp [note, after, hwidth, Visit.depth, habove]

mutual

/-- **The pass comes to the tree that the checks alone come to**, and its survey is that of the
nodes of this tree. -/
theorem run_visit (above : List Component) (above' : List Element)
    (habove : above'.length = above.length) :
    ∀ (t : ComponentTree) (s : Survey), (t.traverseBelow (visit catalog) above).run s =
      ((t.traverseBelow (Component.check catalog) above).run s.seen).map fun (u, seen) =>
        (u, s.after seen (u.visitsBelow above'))
  | .node c ts, s => by
    rw [Tree.traverseBelow, Tree.traverseBelow, StateT.run_bind, StateT.run_bind, run_eq_map]
    cases hcheck : (Component.check catalog ⟨above, c, ts.length⟩).run s.seen with
    | error e => rfl
    | ok result =>
        obtain ⟨e, seen⟩ := result
        have hlength : (above' ++ [e]).length = (above ++ [c]).length := by simp [habove]
        simp only [Except.map, ok_bind, StateT.run_bind, run_visits _ _ hlength ts, note_seen]
        cases hrest : (Tree.traverseAll (Component.check catalog) (above ++ [c]) ts).run seen with
        | error e => rfl
        | ok result =>
            obtain ⟨us, seen'⟩ := result
            have hwidth : us.length = ts.length :=
              (Tree.pairs_of_traverseAll (r := fun _ _ _ => True) (fun _ _ _ _ _ => trivial)
                _ ts seen us seen' hrest).length_eq
            have hnote : s.note seen ⟨above, c, ts.length⟩ e =
                s.after seen [⟨above', e, us.length⟩] := by
              rw [hwidth]
              exact note_eq_after s seen habove
            simp only [ok_bind, hnote, after_append, StateT.run_pure]
            rfl

/-- `run_visit` for several trees. -/
theorem run_visits (above : List Component) (above' : List Element)
    (habove : above'.length = above.length) :
    ∀ (ts : List ComponentTree) (s : Survey),
      (Tree.traverseAll (visit catalog) above ts).run s =
        ((Tree.traverseAll (Component.check catalog) above ts).run s.seen).map fun (us, seen) =>
          (us, s.after seen (Tree.visitsAll above' us))
  | [], s => by
    simp [Tree.traverseAll, Tree.visitsAll, after, Except.map, pure_eq_ok]
  | t :: ts, s => by
    rw [Tree.traverseAll, Tree.traverseAll, StateT.run_bind, StateT.run_bind,
      run_visit above above' habove t s]
    cases hfirst : (Tree.traverseBelow (Component.check catalog) above t).run s.seen with
    | error e => rfl
    | ok result =>
        obtain ⟨u, seen⟩ := result
        simp only [Except.map, ok_bind, StateT.run_bind, run_visits above above' habove ts,
          after_seen]
        cases hrest : (Tree.traverseAll (Component.check catalog) above ts).run seen with
        | error e => rfl
        | ok result =>
            obtain ⟨us, seen'⟩ := result
            simp only [ok_bind, after_append, StateT.run_pure]
            rfl

end

end Survey

/-- **What the pass takes note of is what the finished tree says.** -/
theorem surveyed_eq_normalize (root : ComponentTree) (catalog : Catalog) (limits : Limits) :
    surveyed root catalog limits = normalize root catalog limits := by
  unfold surveyed normalize
  cases limits.check root with
  | error e => rfl
  | ok =>
      rw [ok_bind, ok_bind, Tree.traverse, Tree.traverse, Survey.run_visit [] [] rfl root .none]
      show ((root.traverseBelow (Component.check catalog) []).run []).map _ >>= _ = _
      cases (root.traverseBelow (Component.check catalog) []).run [] with
      | error e => rfl
      | ok result =>
          obtain ⟨u, seen⟩ := result
          have hvalues : (u.visitsBelow []).map Visit.value = u.preorder :=
            Tree.map_value_visitsBelow [] u
          have hlength : (u.visitsBelow []).length = u.size := by
            rw [← Tree.length_preorder, ← hvalues, List.length_map]
          simp only [Except.map, ok_bind, Survey.after, Survey.none, NormalTree.ofRoot,
            NormalTree.containerDepth, Tree.visits, ← hvalues, hlength, List.flatMap_map]
          simp

/-! ### The deepest node with children -/

namespace Tree

mutual

/-- The depths that a walk finds are those that the elements have been given. -/
theorem map_depth_visitsBelow {catalog : Catalog} :
    ∀ (above : List Element) (t : ComponentTree) {u : Tree Element},
      Pairs (Component.Becomes catalog) (above.length + 1) t u →
      (u.visitsBelow above).map (fun v => (v.width, v.depth)) =
        u.subtrees.map fun w => (w.children.length, w.value.depth)
  | above, .node c ts, .node e us, .node hvalue hchildren => by
    have hlength : (above ++ [e]).length = above.length + 1 := by simp
    rw [← hlength] at hchildren
    simp only [visitsBelow, subtrees, List.map_cons, map_depth_visitsAll _ ts hchildren]
    simp [Visit.depth, children, value, hvalue.depth]

/-- `map_depth_visitsBelow` for several trees. -/
theorem map_depth_visitsAll {catalog : Catalog} :
    ∀ (above : List Element) (ts : List ComponentTree) {us : List (Tree Element)},
      PairsAll (Component.Becomes catalog) (above.length + 1) ts us →
      (visitsAll above us).map (fun v => (v.width, v.depth)) =
        (subtreesAll us).map fun w => (w.children.length, w.value.depth)
  | _, [], [], .nil => rfl
  | above, t :: ts, u :: us, .cons hhead htail => by
    simp [visitsAll, subtreesAll, map_depth_visitsBelow above t hhead,
      map_depth_visitsAll above ts htail]

end

end Tree

/-- The greatest of some numbers and one more is at least each of them, and is one of them. -/
theorem foldl_max_spec (ns : List Nat) : ∀ m : Nat,
    (m ≤ ns.foldl max m ∧ ∀ n ∈ ns, n ≤ ns.foldl max m) ∧
      (ns.foldl max m = m ∨ ns.foldl max m ∈ ns) := by
  induction ns with
  | nil => simp
  | cons n ns ih =>
      intro m
      obtain ⟨⟨hstart, hall⟩, hone⟩ := ih (max m n)
      rw [List.foldl_cons]
      refine ⟨⟨by omega, ?_⟩, ?_⟩
      · intro k hk
        rcases List.mem_cons.mp hk with rfl | hk
        · omega
        · exact hall k hk
      · rcases hone with hone | hone
        · rw [hone, List.mem_cons]
          omega
        · exact Or.inr (List.mem_cons_of_mem _ hone)

namespace NormalTree

/-- The depths of the elements that have children. -/
def branchDepths (t : NormalTree) : List Nat :=
  (t.root.subtrees.filter fun u => u.children.length ≠ 0).map fun u => u.value.depth

/-- The elements as they come off a stack that begins with the root. -/
def unstacked (t : NormalTree) : List Element :=
  Tree.unstack [t.root]

/-- A normalized tree and the tree that it was made from. -/
structure Mirrors (t : NormalTree) (catalog : Catalog) (root : ComponentTree) : Prop where
  /-- Node by node, from depth one. -/
  pairs : Tree.Pairs (Component.Becomes catalog) 1 root t.root
  ids : (t.root.preorder.map Element.id).Nodup
  nodeCount : t.nodeCount = root.size
  /-- No element with children is deeper. -/
  depth_le : ∀ depth ∈ t.branchDepths, depth ≤ t.maxDepth
  /-- One is as deep, if there is one. -/
  depth_mem : t.maxDepth ∈ t.branchDepths ∨ t.branchDepths = [] ∧ t.maxDepth = 0
  unstacked : t.unstacked = t.root.preorder
  references : t.references = t.unstacked.flatMap Element.references

theorem maxDepth_eq_foldl {catalog : Catalog} {root : ComponentTree} {u : Tree Element}
    (h : Tree.Pairs (Component.Becomes catalog) 1 root u) :
    (ofRoot u).maxDepth = (ofRoot u).branchDepths.foldl max 0 := by
  have hmap := Tree.map_depth_visitsBelow [] root h
  have hfilter := congrArg (fun ps => (ps.filter fun p => p.1 ≠ 0).map Prod.snd) hmap
  simp only [List.filter_map, List.map_map] at hfilter
  show (u.visits.filter _).foldl _ 0 = _
  rw [← List.foldl_map (f := Visit.depth) (g := max)]
  exact congrArg (List.foldl max 0) hfilter

end NormalTree

/-- **A normalized tree mirrors the tree that it was made from**, and the pass that takes note of
everything on the way comes to the same. -/
theorem normalize_mirrors (root : ComponentTree) (catalog : Catalog) (limits : Limits)
    (t : NormalTree) (h : normalize root catalog limits = .ok t) :
    t.Mirrors catalog root ∧ surveyed root catalog limits = .ok t := by
  obtain ⟨seen, hrun, htree⟩ := root_of_normalize h
  have hpairs : Tree.Pairs (Component.Becomes catalog) 1 root t.root :=
    Tree.pairs_of_traverseBelow (fun v s e s' he =>
      Component.becomes_of_checkAlone (Component.checkAlone_of_check he)) [] root [] t.root seen hrun
  have hdepth : t.maxDepth = t.branchDepths.foldl max 0 := by
    rw [htree]
    exact NormalTree.maxDepth_eq_foldl hpairs
  have hunstacked : t.unstacked = t.root.preorder := by
    simp [NormalTree.unstacked, Tree.unstack_eq, Tree.preorderAll]
  obtain ⟨⟨-, hle⟩, hmem⟩ := foldl_max_spec t.branchDepths 0
  rw [← hdepth] at hle hmem
  refine ⟨⟨hpairs, ?_, ?_, hle, ?_, hunstacked, ?_⟩, ?_⟩
  · rw [hpairs.map_preorder (fun _ _ _ hbecomes => hbecomes.id)]
    exact nodup_of_normalize h
  · rw [htree]
    exact hpairs.size_eq
  · rcases hmem with hzero | hmem
    · by_cases hnil : t.branchDepths = []
      · exact Or.inr ⟨hnil, hzero⟩
      · obtain ⟨depth, hdepth⟩ := List.exists_mem_of_ne_nil _ hnil
        have hdeep := hle depth hdepth
        rw [hzero, Nat.le_zero] at hdeep
        rw [hzero, ← hdeep]
        exact Or.inl hdepth
    · exact Or.inl hmem
  · rw [hunstacked]
    exact references_of_normalize h
  · rw [surveyed_eq_normalize]
    exact h

/-- A tree of three levels, in which a button leads to another screen. -/
def ComponentTree.nested : ComponentTree :=
  .node ⟨"root", "VStack", [], [], []⟩ [
    .node ⟨"row", "HStack", [], [], []⟩ [
      .node ⟨"open", "Button",
        [("title", .string "Open"),
          ("action", .object [("target", .string "detail"), ("type", .string "navigate")])],
        [], []⟩ []],
    .node ⟨"title", "Text", [("content", .string "Hello")], [], []⟩ []]

theorem mirrors_of_nested :
    ∃ t, normalize ComponentTree.nested Catalog.standard .standard = .ok t ∧
      t.Mirrors Catalog.standard ComponentTree.nested ∧ t.nodeCount = 4 ∧ t.maxDepth = 2 ∧
      t.unstacked.map Element.id = ["root", "row", "open", "title"] ∧
      t.references = [⟨"open", "detail", .navigate⟩] := by
  have hrun : (normalize ComponentTree.nested Catalog.standard .standard).toOption.map
      (fun t => (t.maxDepth, t.root.preorder.map Element.id, t.references)) =
        some (2, ["root", "row", "open", "title"], [⟨"open", "detail", .navigate⟩]) := by
    decide +kernel
  cases h : normalize ComponentTree.nested Catalog.standard .standard with
  | error e =>
      rw [h] at hrun
      cases hrun
  | ok t =>
      obtain ⟨hmirrors, -⟩ := normalize_mirrors _ _ _ t h
      have heq := eq_of_toOption_map h hrun
      simp only [Prod.mk.injEq] at heq
      obtain ⟨hdepth, hids, hreferences⟩ := heq
      refine ⟨t, rfl, hmirrors, hmirrors.nodeCount, hdepth, ?_, hreferences⟩
      rw [hmirrors.unstacked]
      exact hids

end Screenwright
