/-
Powers of two and of ten, the scales of binary and of decimal places.
-/

namespace Screenwright.Number

/-- Two to the power of `n`. -/
def pow2 (n : Nat) : Nat := Nat.pow 2 n

/-- Ten to the power of `n`. -/
def pow10 (n : Nat) : Nat := Nat.pow 10 n

theorem pow2_add (m n : Nat) : pow2 (m + n) = pow2 m * pow2 n :=
  Nat.pow_add 2 m n

theorem pow2_succ (n : Nat) : pow2 (n + 1) = pow2 n + pow2 n := by
  rw [pow2_add, show pow2 1 = 2 from rfl, Nat.mul_two]

theorem pow2_le_pow2 {m n : Nat} (h : m ≤ n) : pow2 m ≤ pow2 n :=
  Nat.pow_le_pow_right (by decide) h

/-- A number is below the power of two behind its leading bit. -/
theorem lt_pow2_log2 (n : Nat) : n < pow2 (n.log2 + 1) :=
  Nat.lt_log2_self

end Screenwright.Number
