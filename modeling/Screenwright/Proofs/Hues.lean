/-
A hue is brought into one turn.

What is left of a hue when whole turns are taken away is exact.  Only a hue below zero is moved up
by a turn and rounded, and rounding may carry it to the full turn but not past it.
-/
import Screenwright.Design.Color
import Screenwright.Proofs.Floats.Remainders

namespace Screenwright.Color

open Number
open Float.Model (UnpackedFloat)

section Hue

variable {h : Float}

theorem size_turn : size 360.0 = 360 := by
  have hparts : parts 360.0 = ⟨false, 360 * pow2 44, -44⟩ := by decide +kernel
  rw [size, hparts, Nat.cast_mul, cast_pow2]
  norm_num

/-- What is left of a hue has its sign and differs from it by whole turns. -/
theorem remainder_turn (hfinite : h.isFinite = true) : (remainder h 360.0).isFinite = true ∧
    (parts (remainder h 360.0)).negative = (parts h).negative ∧ size (remainder h 360.0) < 360 ∧
      ∃ k : Nat, size h = k * 360 + size (remainder h 360.0) := by
  have hspec := remainder_spec hfinite (y := 360.0) (by decide +kernel)
    (by rw [size_turn]; norm_num)
  rwa [size_turn] at hspec

theorem wrapHue_eq (h : Float) : wrapHue h =
    if remainder h 360.0 < 0.0 then remainder h 360.0 + 360.0 else remainder h 360.0 := by
  rfl

/-- A hue below zero that is moved up by a turn. -/
theorem add_turn {w : Float} (hfinite : w.isFinite = true) (hneg : w < 0.0) (hlt : size w < 360) :
    ∃ r, amount? (w + 360.0) = some r ∧ 0 ≤ r ∧ r ≤ 360 := by
  have hsign := (lt_zero_iff hfinite).mp hneg
  have hamount : amount? w = some (-size w) := by
    rw [amount_eq_size hfinite, if_pos hsign.1]
  have hturn : amount? (-360.0) = some (-360) := by
    have hparts : (parts (-360.0)).negative = true ∧ size (-360.0) = size 360.0 := by
      have hparts : parts (-360.0) = ⟨true, (parts 360.0).significand, (parts 360.0).exponent⟩ := by
        decide +kernel
      rw [size, hparts]
      exact ⟨rfl, rfl⟩
    rw [amount_eq_size (by decide +kernel), if_pos hparts.1, hparts.2, size_turn]
  have hwithin : Within 9 w := within_of_size hfinite (hlt.trans (by norm_num))
  have hwithin' : Within 9 (-360.0) := by decide +kernel
  -- a sum is the difference from the opposite
  have hsum : (w + 360.0).toModel.unpack = (w - (-360.0)).toModel.unpack := by
    show _ = (Float.Model.pack (.sub .binary64 w.toModel.unpack _)).unpack
    rw [sub_eq_add_neg]
    rfl
  obtain ⟨r, hr, hnear⟩ := rounds_sub_of_within hwithin hwithin' (by decide) (by decide) hamount
    hturn
  have hzero := hnear 0 0 (by decide)
  have hfull := hnear 360 0 (by decide)
  have hpos := hsign.2
  refine ⟨r, by rw [amount?, hsum]; exact hr, ?_⟩
  norm_num at hzero hfull
  rw [abs_of_neg (show -360 + size w < 0 by linarith), abs_le] at hzero
  rw [abs_of_pos hpos, abs_le] at hfull
  constructor <;> linarith

/-- **A finite hue is brought to a size of at most one turn, and not below zero.** -/
theorem wrapHue_spec (hfinite : h.isFinite = true) : (wrapHue h).isFinite = true ∧
    ¬ wrapHue h < 0.0 ∧ size (wrapHue h) ≤ 360 := by
  obtain ⟨hrest, -, hlt, -⟩ := remainder_turn hfinite
  rw [wrapHue_eq]
  split
  next hneg =>
    obtain ⟨r, hr, hlow, hhigh⟩ := add_turn hrest hneg hlt
    have hfinite' := isFinite_of_amount hr
    refine ⟨hfinite', fun hbelow => ?_, ?_⟩
    · obtain ⟨hsign, hpos⟩ := (lt_zero_iff hfinite').mp hbelow
      rw [amount_eq_size hfinite', if_pos hsign] at hr
      cases hr
      linarith
    · rwa [← abs_amount hr, abs_of_nonneg hlow]
  next hneg => exact ⟨hrest, hneg, hlt.le⟩

/-- What is no number stays so. -/
theorem isFinite_wrapHue (h : Float) : (wrapHue h).isFinite = h.isFinite := by
  cases hfinite : h.isFinite with
  | true => exact (wrapHue_spec hfinite).1
  | false =>
      have hrest : remainder h 360.0 = 0.0 / 0.0 := by
        unfold remainder
        refine if_pos ?_
        by_contra hboth
        simp only [Bool.or_eq_true, not_or, Bool.not_eq_true] at hboth
        rw [isFinite_iff.mpr ⟨hboth.1.1.1, hboth.1.2⟩] at hfinite
        cases hfinite
      rw [wrapHue_eq, hrest]
      decide +kernel

/-- A hue inside one turn stays as it is. -/
theorem wrapHue_of_lt (hfinite : h.isFinite = true) (hsign : ¬ h < 0.0) (hlt : size h < 360) :
    (wrapHue h).isFinite = true ∧ (parts (wrapHue h)).negative = (parts h).negative ∧
      size (wrapHue h) = size h := by
  obtain ⟨hrest, hsame, -, k, hsplit⟩ := remainder_turn hfinite
  have hsize : size (remainder h 360.0) = size h := by
    rcases Nat.eq_zero_or_pos k with rfl | hpos
    · rw [hsplit, Nat.cast_zero, zero_mul, zero_add]
    · have hk : (1 : ℚ) ≤ k := by exact_mod_cast hpos
      have hnonneg := size_nonneg (remainder h 360.0)
      linarith
  have hneg : ¬ remainder h 360.0 < 0.0 := by
    rwa [lt_zero_iff hrest, hsame, hsize, ← lt_zero_iff hfinite]
  rw [wrapHue_eq, if_neg hneg]
  exact ⟨hrest, hsame, hsize⟩

end Hue

end Screenwright.Color
