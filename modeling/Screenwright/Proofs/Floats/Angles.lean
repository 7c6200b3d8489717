/-
The angle of a direction is finite.

A direction is brought to whole numbers, and as many bits of its angle are found as there are to be
found, so the angle is a fraction of half a turn whatever the direction is.  Only a slope that is
next to nothing is divided out, and it is small.
-/
import Screenwright.Number.Angle
import Screenwright.Proofs.Floats.Parts

namespace Screenwright.Number

open Float.Model (UnpackedFloat totalExponent)

/-- As many bits as are asked for follow what is there. -/
theorem anglePlaces_lt (places : Nat) : ∀ {acc n : Nat} (direction : Int × Nat), acc < pow2 n →
    anglePlaces acc places direction < pow2 (n + places) := by
  induction places with
  | zero => exact fun _ h => h
  | succ places ih =>
      rintro acc n ⟨x, y⟩ h
      have hnext : (if 0 < x then 2 * acc else 2 * acc + 1) < pow2 (n + 1) := by
        have hdouble := pow2_succ n
        split <;> omega
      have hrest := ih (doubled x y) hnext
      rwa [Nat.add_right_comm] at hrest

theorem within_angleSize (x : Int) (y : Nat) : Within 6 (angleSize x y) := by
  unfold angleSize
  have hplaces := anglePlaces_lt angleBits (x, y) (show 0 < pow2 0 by decide)
  rw [Nat.zero_add] at hplaces
  generalize anglePlaces 0 angleBits (x, y) = n at hplaces ⊢
  have hodd : 2 * n + 1 < pow2 (angleBits + 1) := by
    have hdouble := pow2_succ angleBits
    omega
  have hunits : halfTurnUnits < pow2 (angleBits + 2) := by decide
  have hlt : (2 * n + 1) * halfTurnUnits < pow2 323 :=
    calc (2 * n + 1) * halfTurnUnits
        < pow2 (angleBits + 1) * pow2 (angleBits + 2) := Nat.mul_lt_mul_of_lt_of_lt hodd hunits
      _ = pow2 323 := (pow2_add (angleBits + 1) (angleBits + 2)).symm
  have hnumerator : ∀ {m k : Nat}, m < pow2 k → k ≤ 900 → Within (k + 3) (Float.ofNat m) :=
    within_ofNat
  have hone : AtLeast 322 (Float.ofNat (pow2 (2 * angleBits + 1))).toModel.unpack := by
    decide +kernel
  exact (hnumerator hlt (by decide)).div hone (by decide) (by decide)

/-- A slope of at most `2^-64` is small when it is divided out. -/
theorem within_slope {x y : Float} (hx : x.isFinite = true) (hy : y.isFinite = true)
    (hpos : 0 < size x) (h : size y * 2 ^ (64 : ℤ) ≤ size x) : Within (-62) (y / x) := by
  rcases unpack_of_isFinite hx with ⟨s, hunpack⟩ | ⟨s, m, e, hm, hunpack⟩
  · exact absurd (size_zero hunpack) hpos.ne'
  · have hlength : size x < 2 ^ totalExponent m e := by
      have hlog : (m : ℚ) < 2 ^ (m.log2 + 1) := by exact_mod_cast Nat.lt_log2_self
      rw [(size_finite hunpack).1, totalExponent, zpow_add₀ two_ne_zero]
      exact mul_lt_mul_of_pos_right (by exact_mod_cast hlog) (zpow_pos two_pos e)
    have hsmall : Within (totalExponent m e - 64) y := by
      refine within_of_size hy ?_
      rw [zpow_sub₀ two_ne_zero, lt_div_iff₀ (zpow_pos two_pos _)]
      exact h.trans_lt hlength
    have hlarge : AtLeast (totalExponent m e) x.toModel.unpack := by
      rw [hunpack]
      exact .finite hm (Int.le_refl _)
    exact (hsmall.div hlarge (by omega) (by omega)).mono (by omega)

/-- **The angle of a direction with finite parts is finite.** -/
theorem within_angle {x y : Float} (hy : y.isFinite = true) (hx : x.isFinite = true) :
    Within 6 (angle y x) := by
  unfold angle
  dsimp only
  have hrise : size y = _ := size_eq_units (min_le_left (parts y).exponent (parts x).exponent)
  have hrun : size x = _ := size_eq_units (min_le_right (parts y).exponent (parts x).exponent)
  generalize min (parts y).exponent (parts x).exponent = low at hrise hrun ⊢
  generalize (parts y).significand * pow2 ((parts y).exponent - low).toNat = rise at hrise ⊢
  generalize (parts x).significand * pow2 ((parts x).exponent - low).toNat = run at hrun ⊢
  rw [hy, hx, if_neg (by simp)]
  split
  next hslope =>
    simp only [Bool.and_eq_true, decide_eq_true_eq] at hslope
    have hle : size y * 2 ^ (64 : ℤ) ≤ size x := by
      have hcast : (rise : ℚ) * 2 ^ (64 : ℤ) ≤ run := by
        rw [show (2 : ℚ) ^ (64 : ℤ) = (pow2 64 : Nat) from (cast_pow2 64).symm]
        exact_mod_cast hslope.2
      rw [hrise, hrun, mul_right_comm]
      gcongr
    split
    next hzero =>
      refine within_of_size hy ?_
      rw [hrun, hzero, Nat.cast_zero, zero_mul] at hle
      linarith
    next hne =>
      refine (within_slope hx hy ?_ hle).mono (by decide)
      rw [hrun]
      positivity
  · split
    · exact (within_angleSize _ _).neg (by decide) (by decide)
    · exact within_angleSize _ _

end Screenwright.Number
