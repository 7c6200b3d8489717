/-
The remainder of two floats is exact.

What is left over of one size when another one is taken away as often as fits is a multiple of the
smaller unit of the two and less than either significand can count, so it is a float and nothing is
rounded.
-/
import Screenwright.Proofs.Floats.Parts

namespace Screenwright.Number

open Float.Model (UnpackedFloat)
open Float.Model.UnpackedFloat

section Remainder

variable {x y : Float}

theorem beq_zero_eq_false (h : 0 < size y) : (y == 0.0) = false := by
  have hbeq : (y == 0.0) = true ↔ y.toModel.unpack.compare (.zero .positive) = some .eq := by
    show (y.toModel.unpack.compare (0.0 : Float).toModel.unpack == some .eq) = true ↔ _
    rw [unpack_ofZero]
    simp
  rw [Bool.eq_false_iff, ne_eq, hbeq]
  cases hy : y.toModel.unpack with
  | notANumber => simp [UnpackedFloat.compare]
  | infinity s => cases s <;> simp [UnpackedFloat.compare]
  | zero s => exact absurd (size_zero hy) h.ne'
  | finite s m e hm => cases s <;> simp [UnpackedFloat.compare]

/-- **The remainder has the sign of the first float and what is left over of its size.** -/
theorem remainder_spec (hx : x.isFinite = true) (hy : y.isFinite = true) (hpos : 0 < size y) :
    (remainder x y).isFinite = true ∧
      (parts (remainder x y)).negative = (parts x).negative ∧ size (remainder x y) < size y ∧
      ∃ k : Nat, size x = k * size y + size (remainder x y) := by
  obtain ⟨hnan, hinf⟩ := isFinite_iff.mp hx
  obtain ⟨hnan', hinf'⟩ := isFinite_iff.mp hy
  obtain ⟨hlt, hlow, hhigh⟩ := parts_within hx
  obtain ⟨hlt', hlow', hhigh'⟩ := parts_within hy
  -- both significands in units of the smaller exponent
  obtain ⟨low, hmin⟩ : ∃ low, low = min (parts x).exponent (parts y).exponent := ⟨_, rfl⟩
  obtain ⟨i, hi⟩ : ∃ i : Nat, (parts x).exponent - low = i := Int.eq_ofNat_of_zero_le (by omega)
  obtain ⟨j, hj⟩ : ∃ j : Nat, (parts y).exponent - low = j := Int.eq_ofNat_of_zero_le (by omega)
  obtain ⟨left, hleft⟩ : ∃ left, left = (parts x).significand * pow2 i := ⟨_, rfl⟩
  obtain ⟨step, hstep⟩ : ∃ step, step = (parts y).significand * pow2 j := ⟨_, rfl⟩
  have hsize : size x = left * 2 ^ low := by
    have hunits := size_eq_units (show low ≤ (parts x).exponent by omega)
    rwa [hi, Int.toNat_natCast, ← hleft] at hunits
  have hsize' : size y = step * 2 ^ low := by
    have hunits := size_eq_units (show low ≤ (parts y).exponent by omega)
    rwa [hj, Int.toNat_natCast, ← hstep] at hunits
  have hremainder : remainder x y = ofParts ⟨(parts x).negative, left % step, low⟩ := by
    unfold remainder
    rw [hnan, hnan', hinf, hinf', beq_zero_eq_false hpos, hleft, hstep]
    simp only [Bool.or_self, Bool.false_eq_true, if_false, ← hmin, hi, hj, Int.toNat_natCast]
  have hstep_pos : 0 < step := by
    refine Nat.pos_of_ne_zero fun hzero => hpos.ne' ?_
    rw [hsize', hzero, Nat.cast_zero, zero_mul]
  have hdigits : left % step < 2 ^ 53 := by
    rcases (show i = 0 ∨ j = 0 by omega) with rfl | rfl
    · refine Nat.lt_of_le_of_lt (Nat.mod_le _ _) ?_
      rw [hleft]
      exact lt_of_eq_of_lt (Nat.mul_one _) hlt
    · refine Nat.lt_trans (Nat.mod_lt _ hstep_pos) ?_
      rw [hstep]
      exact lt_of_eq_of_lt (Nat.mul_one _) hlt'
  obtain ⟨hfinite, hsign, hrest⟩ := ofParts_spec (p := ⟨(parts x).negative, left % step, low⟩)
    hdigits (by dsimp only; omega) (by dsimp only; omega)
  rw [hremainder]
  refine ⟨hfinite, hsign, ?_, left / step, ?_⟩
  · rw [hrest, hsize']
    exact mul_lt_mul_of_pos_right (Nat.cast_lt.mpr (Nat.mod_lt _ hstep_pos))
      (zpow_pos two_pos low)
  · have hsplit : (left : ℚ) = (left / step : Nat) * step + (left % step : Nat) := by
      exact_mod_cast (Nat.div_add_mod' left step).symm
    rw [hrest, hsize, hsize', hsplit]
    ring

example : (remainder (-725.5) 360.0).toBits = (-5.5 : Float).toBits := rfl

end Remainder

end Screenwright.Number
