/-
Roots and powers of floats that are not too large are finite.

Roots and powers are found in the natural numbers, in units of a power of two, and only their
quotient by the number of units to one is a float.  So a bound on what is found in the natural
numbers is a bound on the float.
-/
import Screenwright.Number.CubeRoot
import Screenwright.Number.RootPower
import Screenwright.Proofs.Floats.Order
import Screenwright.Proofs.Floats.Sizes

namespace Screenwright.Number

open Float.Model (UnpackedFloat totalExponent)

/-! ### Square roots -/

section SquareRoots

open Float.Model.UnpackedFloat

variable {j k : Int} {f g : UnpackedFloat} {x : Float}

theorem notNegative_sqrt (f : UnpackedFloat) : NotNegative (UnpackedFloat.sqrt .binary64 f) := by
  cases f with
  | notANumber => trivial
  | infinity s => cases s <;> trivial
  | zero s => trivial
  | finite s m e hm =>
      cases s with
      | negative => trivial
      | positive => exact notNegative_roundWithAccuracy _ _ _

theorem not_lt_zero_sqrt (x : Float) : ¬ Float.sqrt x < 0.0 := by
  rw [not_lt_zero_iff]
  exact notNegative_unpack_pack (notNegative_sqrt _)

theorem notNegative_square (f : UnpackedFloat) : NotNegative (mul .binary64 f f) := by
  cases f with
  | notANumber => trivial
  | infinity s => cases s <;> trivial
  | zero s => trivial
  | finite s m e hm => cases s <;> exact notNegative_roundWithAccuracy _ _ _

theorem notNegative_add (hf : NotNegative f) (hg : NotNegative g) :
    NotNegative (add .binary64 f g) := by
  cases f with
  | notANumber => cases g <;> trivial
  | infinity s =>
      cases s with
      | negative => exact absurd hf id
      | positive => cases g with
          | infinity s' => cases s' <;> trivial
          | _ => trivial
  | zero s => cases g with
      | infinity s' => exact hg
      | zero s' => cases s <;> cases s' <;> trivial
      | _ => exact hg
  | finite s m e hm =>
      cases s with
      | negative => exact absurd hf id
      | positive => cases g with
          | infinity s' => exact hg
          | finite s' m' e' hm' =>
              cases s' with
              | negative => exact absurd hg id
              | positive => exact notNegative_normalize (Int.add_nonneg (Int.natCast_nonneg _)
                  (Int.natCast_nonneg _)) _
          | _ => trivial

/-- The root of what is below `2^k` is below the power of two with half the exponent. -/
theorem below_sqrt (h : Below k f) (hsign : NotNegative f) (hjk : k + 1 ≤ 2 * j)
    (hj : -1074 ≤ j) : Below (j + 1) (UnpackedFloat.sqrt .binary64 f) := by
  cases h with
  | zero s => exact .zero s
  | @finite s m e hm htotal =>
      cases s with
      | negative => exact absurd hsign id
      | positive =>
          refine below_roundWithAccuracy ?_ hj _ _
          simp only [targetExponent_eq]
          generalize htarget : min (e.ediv 2) _ = t
          have heven : 2 * t ≤ e := by
            have hdiv : e.ediv 2 * 2 ≤ e := Int.ediv_mul_le e (by decide)
            omega
          have hshift := log2_shift_le m (e - 2 * t).toNat
          generalize m <<< (e - 2 * t).toNat = n at hshift ⊢
          have hroot : 2 * n.sqrt.log2 ≤ n.log2 := by
            rcases Nat.eq_zero_or_pos n.sqrt with hzero | hpos
            · rw [hzero]
              exact Nat.zero_le _
            · rw [Nat.le_log2 (by rintro rfl; exact absurd hpos (by decide)), Nat.two_mul,
                Nat.pow_add]
              exact Nat.le_trans (Nat.mul_le_mul (Nat.log2_self_le hpos.ne')
                (Nat.log2_self_le hpos.ne')) (Nat.sqrt_le n)
          unfold totalExponent at *
          omega

theorem Within.sqrt (h : Within k x) (hsign : ¬ x < 0.0) (hjk : k + 1 ≤ 2 * j) (hlow : -1022 ≤ j)
    (hhigh : j ≤ 970) : Within (j + 1) (Float.sqrt x) :=
  below_unpack_pack (below_sqrt h (not_lt_zero_iff.mp hsign) hjk (by omega)) (by omega) (by omega)

/-- The root of a sum of two squares. -/
theorem within_hypotenuse {y : Float} (hx : Within k x) (hy : Within k y) (hlow : -500 ≤ k)
    (hhigh : k ≤ 480) : Within (k + 3) (Float.sqrt (x * x + y * y)) := by
  have hsum : Within (k + k + 3) (x * x + y * y) :=
    ((hx.mul hx (by omega) (by omega)).add (hy.mul hy (by omega) (by omega)) (by omega)
      (by omega)).mono (by omega)
  have hsign : ¬ x * x + y * y < 0.0 := not_lt_zero_iff.mpr (notNegative_unpack_pack
    (notNegative_add (notNegative_unpack_pack (notNegative_square _))
      (notNegative_unpack_pack (notNegative_square _))))
  exact (hsum.sqrt (j := k + 2) hsign (by omega) (by omega) (by omega)).mono (by omega)

end SquareRoots

/-! ### Cube roots -/

theorem cube_le_cube {m n : Nat} (h : m ≤ n) : cube m ≤ cube n :=
  Nat.mul_le_mul (Nat.mul_le_mul h h) h

/-- A number of units of less than the cube of `2^(j + rootBits)` has a root below that. -/
theorem cubeRootFloor_lt {n j : Nat} (h : n < pow2 (3 * j + 3 * rootBits)) :
    cubeRootFloor n < pow2 (j + rootBits) := by
  refine Nat.lt_of_not_le fun hle => Nat.not_lt_of_le ?_ h
  calc pow2 (3 * j + 3 * rootBits)
      = pow2 (j + rootBits + (j + rootBits) + (j + rootBits)) := congrArg pow2 (by omega)
    _ = cube (pow2 (j + rootBits)) := by rw [cube, ← pow2_add, ← pow2_add]
    _ ≤ cube (cubeRootFloor n) := cube_le_cube hle
    _ ≤ n := (cubeRootFloor_bounds n).1

/-- What is below `2^k` has less than `2^(k + bits)` units of `2^-bits`. -/
theorem units_lt {m k bits : Nat} {e : Int} (h : totalExponent m e ≤ k) (hbits : -e ≤ bits) :
    m * pow2 (e + bits).toNat < pow2 (k + bits) := by
  unfold totalExponent at h
  calc m * pow2 (e + bits).toNat
      < pow2 (m.log2 + 1) * pow2 (e + bits).toNat :=
        Nat.mul_lt_mul_of_pos_right (lt_pow2_log2 m) (Nat.two_pow_pos _)
    _ = pow2 (m.log2 + 1 + (e + bits).toNat) := (pow2_add _ _).symm
    _ ≤ pow2 (k + bits) := pow2_le_pow2 (by omega)

/-- A quotient by `2^(rootBits + 1)` is that much smaller. -/
theorem within_rootQuotient {n k : Nat} (h : n < 2 ^ (k + rootBits)) (hk : k ≤ 400) :
    Within (k + 3) (Float.ofNat n / Float.ofNat (pow2 (rootBits + 1))) := by
  have hone : AtLeast 422 (Float.ofNat (pow2 (rootBits + 1))).toModel.unpack := by
    decide +kernel
  refine Within.mono ((within_ofNat h ?_).div hone ?_ ?_) ?_
  all_goals
    unfold rootBits
    omega

theorem within_cubeRoot {j : Nat} {x : Float} (h : Within (3 * j) x) (hj : j ≤ 100) :
    Within (j + 4) (cubeRoot x) := by
  have hfinite := h.isFinite
  unfold cubeRoot
  dsimp only
  cases hx : x.toModel.unpack with
  | notANumber =>
      rw [Within, hx] at h
      cases h
  | infinity s =>
      rw [Within, hx] at h
      cases h
  | zero s =>
      rw [parts_zero hx, if_pos (by simp), Within, hx]
      exact .zero s
  | finite s m e hm =>
      obtain ⟨hparts, hcanonical⟩ := parts_finite hx
      rw [Within, hx] at h
      cases h with | finite _ htotal =>
      have hbits : -e ≤ 1074 := Int.neg_le_of_neg_le hcanonical.low
      have hscaled : m * pow2 (e + 3 * rootBits).toNat < pow2 (3 * j + 3 * rootBits) :=
        units_lt htotal (Int.le_trans hbits (by decide))
      have hroot := cubeRootFloor_lt hscaled
      rw [hparts]
      generalize cubeRootFloor (m * pow2 (e + 3 * rootBits).toNat) = root at *
      dsimp only
      rw [if_neg (by simp [hfinite, Nat.ne_of_gt hm])]
      have hsize : ∀ rest ≤ 1, Within (j + 4)
          (Float.ofNat (2 * root + rest) / Float.ofNat (pow2 (rootBits + 1))) := by
        intro rest hrest
        have hdouble : 2 ^ (j + 1 + rootBits) = pow2 (j + rootBits) + pow2 (j + rootBits) := by
          rw [Nat.add_right_comm]
          exact pow2_succ _
        exact (within_rootQuotient (k := j + 1) (by omega) (by omega)).mono (by omega)
      generalize hrest : (if cube root = _ then 0 else 1) = rest
      have hle : rest ≤ 1 := by
        subst hrest
        split <;> decide
      split
      · exact (hsize rest hle).neg (by omega) (by omega)
      · exact hsize rest hle

/-! ### Powers -/

section Powers

variable {a b i j : Nat}

theorem scaledProduct_le (ha : a ≤ pow2 (powerBits + i)) (hb : b ≤ pow2 (powerBits + j)) :
    scaledProduct a b ≤ pow2 (powerBits + (i + j)) := by
  unfold scaledProduct
  refine Nat.div_le_of_le_mul ?_
  calc a * b ≤ pow2 (powerBits + i) * pow2 (powerBits + j) := Nat.mul_le_mul ha hb
    _ = pow2 (powerBits + i + (powerBits + j)) := (pow2_add _ _).symm
    _ = pow2 (powerBits + (powerBits + (i + j))) := congrArg pow2 (by omega)
    _ = pow2 powerBits * pow2 (powerBits + (i + j)) := pow2_add _ _

/-- The root of a number above one is below the number. -/
theorem scaledRoot_le (ha : a ≤ pow2 (powerBits + j)) : scaledRoot a ≤ pow2 (powerBits + j) := by
  unfold scaledRoot
  calc (a * pow2 powerBits).sqrt
      ≤ (pow2 (powerBits + j) * pow2 (powerBits + j)).sqrt :=
        Nat.sqrt_le_sqrt (Nat.mul_le_mul ha (pow2_le_pow2 (Nat.le_add_right _ _)))
    _ = pow2 (powerBits + j) := Nat.sqrt_eq _

theorem wholePower_le (ha : a ≤ pow2 (powerBits + j)) (n : Nat) :
    wholePower a n ≤ pow2 (powerBits + n * j) := by
  induction n with
  | zero => rw [Nat.zero_mul]; exact Nat.le_refl _
  | succ n ih =>
      rw [Nat.succ_mul]
      exact scaledProduct_le ih ha

/-- Every place of the exponent makes the power at most a root larger. -/
theorem rootPower_le (exponent places : Nat) : ∀ {root acc i : Nat},
    root ≤ pow2 (powerBits + j) → acc ≤ pow2 (powerBits + i) →
      rootPower exponent places root acc ≤ pow2 (powerBits + (i + places * j)) := by
  induction places with
  | zero =>
      intro root acc i _ hacc
      rw [Nat.zero_mul]
      exact hacc
  | succ places ih =>
      intro root acc i hroot hacc
      have hnext : (if exponent / pow2 places % 2 = 1 then scaledProduct acc (scaledRoot root)
          else acc) ≤ pow2 (powerBits + (i + j)) := by
        split
        · exact scaledProduct_le hacc (scaledRoot_le hroot)
        · exact Nat.le_trans hacc (pow2_le_pow2 (by omega))
      rw [Nat.succ_mul, Nat.add_comm (places * j), ← Nat.add_assoc i]
      exact ih (scaledRoot_le hroot) hnext

theorem unitsOf_le {x : Float} (h : Within j x) : unitsOf x ≤ pow2 (powerBits + j) := by
  unfold unitsOf
  dsimp only
  cases hx : x.toModel.unpack with
  | notANumber =>
      rw [Within, hx] at h
      cases h
  | infinity s =>
      rw [Within, hx] at h
      cases h
  | zero s =>
      rw [parts_zero hx, Nat.zero_mul, Nat.zero_div]
      exact Nat.zero_le _
  | finite s m e hm =>
      rw [Within, hx] at h
      cases h with | finite _ htotal =>
      rw [(parts_finite hx).1]
      dsimp only
      refine Nat.le_of_lt ?_
      by_cases hshift : 0 ≤ e + powerBits
      · rw [show (-(e + powerBits)).toNat = 0 by omega, show pow2 0 = 1 from rfl, Nat.div_one,
          Nat.add_comm powerBits]
        exact units_lt htotal (by omega)
      · rw [show (e + powerBits).toNat = 0 by omega, show pow2 0 = 1 from rfl, Nat.mul_one]
        refine Nat.div_lt_of_lt_mul ?_
        rw [← pow2_add]
        unfold totalExponent at htotal
        exact Nat.lt_of_lt_of_le (lt_pow2_log2 m) (pow2_le_pow2 (by omega))

end Powers

/-- A power of a float is finite if the exponent has few places and a small whole part. -/
theorem within_raise {x y : Float} {j k places whole : Nat} (h : Within j x)
    (hplaces : (-(parts y).exponent).toNat = places)
    (hwhole : (parts y).significand * pow2 (parts y).exponent.toNat / pow2 places = whole)
    (hsize : (whole + places) * j = k) (hk : k ≤ 700) : Within (k + 5) (raise x y) := by
  unfold raise
  dsimp only
  rw [if_pos h.isFinite, hplaces, hwhole]
  have hbase := unitsOf_le h
  have hpower := rootPower_le ((parts y).significand * pow2 (parts y).exponent.toNat) places hbase
    (wholePower_le hbase whole)
  rw [← Nat.add_mul, hsize] at hpower
  generalize rootPower _ _ _ _ = n at hpower ⊢
  have hlt : 2 * n + 1 < 2 ^ (powerBits + k + 2) := by
    have hdouble : 2 ^ (powerBits + k + 2) = pow2 (powerBits + k + 1) + pow2 (powerBits + k + 1) :=
      pow2_succ _
    have hhalf := pow2_succ (powerBits + k)
    have hpos : 0 < pow2 (powerBits + k) := Nat.two_pow_pos _
    omega
  have hone : AtLeast 130 (Float.ofNat (pow2 (powerBits + 1))).toModel.unpack := by
    decide +kernel
  have hbits : powerBits = 128 := rfl
  exact Within.mono ((within_ofNat hlt (by omega)).div hone (by omega) (by omega)) (by omega)

end Screenwright.Number
