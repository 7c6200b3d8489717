/-
The cube root of a float.

The root is found exactly, bit by bit in the natural numbers, and rounded once.  With
`2^bits` units to one, the root of a finite float has more than fifty-three bits before
the last one, which then only says whether anything was left over.
-/
import Screenwright.Number.Binary

namespace Screenwright.Number

/-- The cube of a number. -/
def cube (n : Nat) : Nat := n * n * n

/-- The largest number whose cube is at most `n`, sought from `root` upwards by powers of
two below `2^bits`. -/
def rootFrom (n : Nat) : Nat → Nat → Nat
  | 0, root => root
  | bits + 1, root =>
    if cube (root + pow2 bits) ≤ n then rootFrom n bits (root + pow2 bits)
    else rootFrom n bits root

/-- The largest number whose cube is at most `n`. -/
def cubeRootFloor (n : Nat) : Nat :=
  rootFrom n (n.log2 / 3 + 1) 0

theorem rootFrom_bounds (n : Nat) : ∀ bits root, cube root ≤ n → n < cube (root + pow2 bits) →
    cube (rootFrom n bits root) ≤ n ∧ n < cube (rootFrom n bits root + 1) := by
  intro bits
  induction bits with
  | zero => exact fun root low high => ⟨low, high⟩
  | succ bits ih =>
    intro root low high
    unfold rootFrom
    split
    · next fits => exact ih _ fits (by rwa [Nat.add_assoc, ← pow2_succ])
    · next big => exact ih _ low (Nat.lt_of_not_le big)

theorem lt_cube_log2 (n : Nat) : n < cube (pow2 (n.log2 / 3 + 1)) := by
  rw [cube, ← pow2_add, ← pow2_add]
  exact Nat.lt_of_lt_of_le (lt_pow2_log2 n) (pow2_le_pow2 (by omega))

/-- **The root found is the cube root rounded down.** -/
theorem cubeRootFloor_bounds (n : Nat) :
    cube (cubeRootFloor n) ≤ n ∧ n < cube (cubeRootFloor n + 1) :=
  rootFrom_bounds n _ 0 (Nat.zero_le n) (by simpa using lt_cube_log2 n)

/-- How many bits of the root are found behind the point. -/
def rootBits : Nat := 420

/-- The float nearest to the cube root of a finite float. -/
def cubeRoot (x : Float) : Float :=
  let p := parts x
  let scaled := p.significand * pow2 (p.exponent + 3 * rootBits).toNat
  let root := cubeRootFloor scaled
  let rest := if cube root = scaled then 0 else 1
  let size := Float.ofNat (2 * root + rest) / Float.ofNat (pow2 (rootBits + 1))
  if !x.isFinite || p.significand = 0 then x else if p.negative then -size else size

end Screenwright.Number
