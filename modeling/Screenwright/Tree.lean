/-
Ordered trees.

A traversal meets the nodes in pre-order: a node before its children, the children from
left to right.  `visits` lists what it meets, `traverse` runs an effect at every node,
and `preorder_traverse` says that the two agree, so whatever a traversal does can be
read off a list.
-/

namespace Screenwright

/-- A tree of values. -/
inductive Tree (α : Type) where
  | node (value : α) (children : List (Tree α))

/-- A node as a traversal meets it. -/
structure Visit (α : Type) where
  /-- The nodes above it, root first. -/
  above : List α
  value : α
  /-- How many children it has. -/
  width : Nat
deriving DecidableEq, Repr

/-- The depth of a node, one for the root. -/
def Visit.depth {α : Type} (v : Visit α) : Nat :=
  v.above.length + 1

/-- The nodes from the root to the node itself. -/
def Visit.line {α : Type} (v : Visit α) : List α :=
  v.above ++ [v.value]

namespace Tree

variable {α β γ : Type}

/-- The value at the root. -/
def value : Tree α → α
  | node a _ => a

/-- The subtrees below the root. -/
def children : Tree α → List (Tree α)
  | node _ ts => ts

mutual

/-- The values in pre-order. -/
def preorder : Tree α → List α
  | node a ts => a :: preorderAll ts

/-- The values of several trees, one tree after the other. -/
def preorderAll : List (Tree α) → List α
  | [] => []
  | t :: ts => preorder t ++ preorderAll ts

end

mutual

/-- The number of nodes. -/
def size : Tree α → Nat
  | node _ ts => 1 + sizeAll ts

/-- The number of nodes of several trees. -/
def sizeAll : List (Tree α) → Nat
  | [] => 0
  | t :: ts => size t + sizeAll ts

end

mutual

/-- The nodes in pre-order below the given ones. -/
def visitsBelow (above : List α) : Tree α → List (Visit α)
  | node a ts => ⟨above, a, ts.length⟩ :: visitsAll (above ++ [a]) ts

/-- The nodes of several trees below the given ones. -/
def visitsAll (above : List α) : List (Tree α) → List (Visit α)
  | [] => []
  | t :: ts => visitsBelow above t ++ visitsAll above ts

end

/-- The nodes in pre-order. -/
def visits (t : Tree α) : List (Visit α) :=
  visitsBelow [] t

mutual

/-- Runs `f` at every node, in pre-order, below the given nodes. -/
def traverseBelow {m : Type → Type} [Monad m] (f : Visit α → m β) (above : List α) :
    Tree α → m (Tree β)
  | node a ts => do
    let b ← f ⟨above, a, ts.length⟩
    let us ← traverseAll f (above ++ [a]) ts
    return node b us

/-- Runs `f` at every node of several trees, one tree after the other. -/
def traverseAll {m : Type → Type} [Monad m] (f : Visit α → m β) (above : List α) :
    List (Tree α) → m (List (Tree β))
  | [] => return []
  | t :: ts => do
    let u ← traverseBelow f above t
    let us ← traverseAll f above ts
    return u :: us

end

/-- Runs `f` at every node in pre-order. -/
def traverse {m : Type → Type} [Monad m] (f : Visit α → m β) (t : Tree α) : m (Tree β) :=
  traverseBelow f [] t

mutual

/-- The tree with `f` applied to every value. -/
def map (f : α → β) : Tree α → Tree β
  | node a ts => node (f a) (mapAll f ts)

/-- `map` for several trees. -/
def mapAll (f : α → β) : List (Tree α) → List (Tree β)
  | [] => []
  | t :: ts => map f t :: mapAll f ts

end

mutual

/-- Joins two trees node by node, as far as they have the same shape. -/
def zipWith (f : α → β → γ) : Tree α → Tree β → Tree γ
  | node a ts, node b us => node (f a b) (zipAll f ts us)

/-- `zipWith` for several trees. -/
def zipAll (f : α → β → γ) : List (Tree α) → List (Tree β) → List (Tree γ)
  | t :: ts, u :: us => zipWith f t u :: zipAll f ts us
  | _, _ => []

end

/-! ### What a traversal meets -/

mutual

theorem length_preorder : ∀ t : Tree α, t.preorder.length = t.size
  | node _ ts => by simp [preorder, size, length_preorderAll ts, Nat.add_comm]

theorem length_preorderAll : ∀ ts : List (Tree α), (preorderAll ts).length = sizeAll ts
  | [] => rfl
  | t :: ts => by simp [preorderAll, sizeAll, length_preorder t, length_preorderAll ts]

end

mutual

theorem map_value_visitsBelow (above : List α) :
    ∀ t : Tree α, (visitsBelow above t).map Visit.value = t.preorder
  | node a ts => by simp [visitsBelow, preorder, map_value_visitsAll (above ++ [a]) ts]

theorem map_value_visitsAll (above : List α) :
    ∀ ts : List (Tree α), (visitsAll above ts).map Visit.value = preorderAll ts
  | [] => rfl
  | t :: ts => by
    simp [visitsAll, preorderAll, map_value_visitsBelow above t, map_value_visitsAll above ts]

end

mutual

/-- A traversal does at each node, in pre-order, what `f` does there, and nothing else. -/
theorem preorder_traverseBelow {m : Type → Type} [Monad m] [LawfulMonad m]
    (f : Visit α → m β) (above : List α) :
    ∀ t : Tree α, preorder <$> traverseBelow f above t = (visitsBelow above t).mapM f
  | node a ts => by
    simp [traverseBelow, visitsBelow, preorder, List.mapM_cons,
      ← preorder_traverseAll f (above ++ [a]) ts]

/-- `preorder_traverseBelow` for several trees. -/
theorem preorder_traverseAll {m : Type → Type} [Monad m] [LawfulMonad m]
    (f : Visit α → m β) (above : List α) :
    ∀ ts : List (Tree α), preorderAll <$> traverseAll f above ts = (visitsAll above ts).mapM f
  | [] => by simp [traverseAll, visitsAll, preorderAll]
  | t :: ts => by
    simp [traverseAll, visitsAll, preorderAll, List.mapM_append,
      ← preorder_traverseBelow f above t, ← preorder_traverseAll f above ts]

end

end Tree

end Screenwright
