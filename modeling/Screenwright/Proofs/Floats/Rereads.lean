/-
A printed float is read as one that is printed the same.

A float is printed as the number of units of the last place that is nearest to it.  What is read is
the float nearest to that number, so it is no farther from it than the float that was printed, and
the nearest number of units is the same for both.  A value in the middle of two numbers of units
goes to the even one, and that is the same one from either side.
-/
import Screenwright.Proofs.Floats.Printed
import Screenwright.Proofs.Floats.Quotients

namespace Screenwright.Number

open Float.Model (UnpackedFloat)
open Float.Model.UnpackedFloat

/-! ### Nearest whole numbers -/

/-- The whole number is nearest to the value, and even if it is no nearer than another one. -/
def RoundsTo (v : ℚ) (n : Nat) : Prop :=
  |(n : ℚ) - v| ≤ 1 / 2 ∧ (|(n : ℚ) - v| = 1 / 2 → n % 2 = 0)

section RoundsTo

variable {v : ℚ} {m n : Nat}

theorem roundsTo_roundDiv (num : Nat) {den : Nat} (hden : 0 < den) :
    RoundsTo (num / den) (roundDiv num den) := by
  have hpos : (0 : ℚ) < den := Nat.cast_pos.mpr hden
  have hrest : (0 : ℚ) ≤ ((num % den : Nat) : ℚ) / den := by positivity
  have htwice : 2 * (((num % den : Nat) : ℚ) / den) = ((2 * (num % den) : Nat) : ℚ) / den := by
    push_cast
    ring
  rw [div_split num hden]
  unfold roundDiv
  dsimp only
  split
  next hlow =>
    have hhalf : 2 * (((num % den : Nat) : ℚ) / den) < 1 := by
      rw [htwice, div_lt_one hpos]
      exact_mod_cast hlow
    have hnear : |((num / den : Nat) : ℚ) - ((num / den : Nat) + ((num % den : Nat) : ℚ) / den)| <
        1 / 2 := by
      rw [abs_lt]
      constructor <;> linarith
    exact ⟨hnear.le, fun heq => absurd heq hnear.ne⟩
  next hlow =>
  split
  next hhigh =>
    have hbelow : ((num % den : Nat) : ℚ) / den < 1 :=
      (div_lt_one hpos).mpr (Nat.cast_lt.mpr (Nat.mod_lt num hden))
    have hhalf : 1 < 2 * (((num % den : Nat) : ℚ) / den) := by
      rw [htwice, one_lt_div hpos]
      exact_mod_cast hhigh
    have hnear : |((num / den + 1 : Nat) : ℚ) -
        ((num / den : Nat) + ((num % den : Nat) : ℚ) / den)| < 1 / 2 := by
      push_cast
      rw [abs_lt]
      constructor <;> linarith
    exact ⟨hnear.le, fun heq => absurd heq hnear.ne⟩
  next hhigh =>
    have hhalf : 2 * (((num % den : Nat) : ℚ) / den) = 1 := by
      rw [htwice, div_eq_one_iff_eq hpos.ne']
      exact_mod_cast (show 2 * (num % den) = den by omega)
    refine ⟨?_, fun _ => Tie.settle_even _⟩
    unfold Tie.settle
    dsimp only
    rw [abs_le]
    split
    · constructor <;> linarith
    · push_cast
      constructor <;> linarith

theorem RoundsTo.not_lt (hm : RoundsTo v m) (hn : RoundsTo v n) : ¬ m < n := by
  intro hlt
  obtain ⟨⟨hm_low, hm_high⟩, hm_even⟩ := And.imp_left abs_le.mp hm
  obtain ⟨⟨hn_low, hn_high⟩, hn_even⟩ := And.imp_left abs_le.mp hn
  -- the value is in the middle of the two, and only one of them is even
  have hstep : (m : ℚ) + 1 ≤ n := by exact_mod_cast hlt
  have hm' := hm_even (by rw [abs_of_nonpos (by linarith)]; linarith)
  have hn' := hn_even (by rw [abs_of_nonneg (by linarith)]; linarith)
  have hnext : n ≤ m + 1 := by exact_mod_cast (show (n : ℚ) ≤ m + 1 by linarith)
  omega

theorem RoundsTo.unique (hm : RoundsTo v m) (hn : RoundsTo v n) : m = n :=
  Nat.le_antisymm (Nat.not_lt.mp (hn.not_lt hm)) (Nat.not_lt.mp (hm.not_lt hn))

/-- Below an even number is what is below it by more than a half. -/
theorem RoundsTo.lt_iff (h : RoundsTo v n) {k : Nat} (heven : k % 2 = 0) :
    n < k ↔ v < k - 1 / 2 := by
  obtain ⟨⟨hlow, hhigh⟩, htie⟩ := And.imp_left abs_le.mp h
  constructor
  · intro hlt
    have hle : (n : ℚ) + 1 ≤ k := by exact_mod_cast hlt
    refine lt_of_le_of_ne (by linarith) fun heq => ?_
    -- the value would be in the middle, and the number below it odd
    have hnext : (n : ℚ) + 1 = k := by linarith
    have hnext' : n + 1 = k := by exact_mod_cast hnext
    have hodd := htie (by rw [abs_of_nonpos (by linarith)]; linarith)
    omega
  · intro hlt
    exact_mod_cast (show (n : ℚ) < k by linarith)

/-- What is no farther from the number has the same nearest number. -/
theorem RoundsTo.of_nearer {places : Nat} {a b : ℚ} (h : RoundsTo (a * 10 ^ places) n)
    (hnear : |b - n / 10 ^ places| ≤ |a - n / 10 ^ places|) : RoundsTo (b * 10 ^ places) n := by
  have hscale : ∀ c : ℚ, |(n : ℚ) - c * 10 ^ places| = |c - n / 10 ^ places| * 10 ^ places := by
    intro c
    have hpos : (0 : ℚ) < 10 ^ places := by positivity
    rw [abs_sub_comm, ← abs_of_pos hpos, ← abs_mul, abs_of_pos hpos, sub_mul,
      div_mul_cancel₀ _ hpos.ne']
  have hle : |(n : ℚ) - b * 10 ^ places| ≤ |(n : ℚ) - a * 10 ^ places| := by
    rw [hscale, hscale]
    gcongr
  exact ⟨hle.trans h.1, fun heq => h.2 (le_antisymm h.1 (heq ▸ hle))⟩

end RoundsTo

/-! ### Units of the last place -/

section Units

variable {x y : Float} {places : Nat}

/-- The two powers by which the exponent of a float enters what is printed. -/
theorem cast_pow2_div (e : ℤ) :
    ((pow2 e.toNat : Nat) : ℚ) / (pow2 (-e).toNat : Nat) = 2 ^ e := by
  rw [cast_pow2, cast_pow2, ← zpow_sub₀ two_ne_zero]
  congr 1
  omega

/-- A float is printed as the number of units that is nearest to it. -/
theorem roundsTo_fixedUnits (places : Nat) (x : Float) :
    RoundsTo (size x * 10 ^ places) (fixedUnits places x) := by
  have hden : 0 < pow2 (-(parts x).exponent).toNat := Nat.two_pow_pos _
  have hround := roundsTo_roundDiv
    ((parts x).significand * pow10 places * pow2 (parts x).exponent.toNat) hden
  rw [Nat.cast_mul, mul_div_assoc, cast_pow2_div, Nat.cast_mul, cast_pow10,
    mul_right_comm] at hround
  exact hround

theorem fixedUnits_congr (h : size x = size y) : fixedUnits places x = fixedUnits places y :=
  (roundsTo_fixedUnits places x).unique (h ▸ roundsTo_fixedUnits places y)

/-- Which floats are printed with fewer units than an even number. -/
theorem fixedUnits_lt_iff (places : Nat) (x : Float) {k : Nat} (heven : k % 2 = 0) :
    fixedUnits places x < k ↔ size x < (k - 1 / 2) / 10 ^ places := by
  rw [(roundsTo_fixedUnits places x).lt_iff heven, lt_div_iff₀ (by positivity)]

/-- A finite float is printed with no more units than the largest one. -/
theorem fixedUnits_le_largest (h : x.isFinite = true) :
    fixedUnits places x ≤ largest * pow10 places := by
  obtain ⟨hlt, -, hhigh⟩ := parts_within h
  refine roundDiv_le (Nat.two_pow_pos _) ?_
  calc (parts x).significand * pow10 places * pow2 (parts x).exponent.toNat
      ≤ (2 ^ 53 - 1) * pow10 places * pow2 971 :=
        Nat.mul_le_mul (Nat.mul_le_mul_right _ (Nat.le_sub_one_of_lt hlt))
          (pow2_le_pow2 (by omega))
    _ = largest * pow10 places := Nat.mul_right_comm _ _ _
    _ ≤ largest * pow10 places * pow2 (-(parts x).exponent).toNat :=
        Nat.le_mul_of_pos_right _ (Nat.two_pow_pos _)

theorem fixed_of_isFinite (h : x.isFinite = true) : fixed places x = String.ofList
    (if (parts x).negative then '-' :: placed places (fixedUnits places x)
      else placed places (fixedUnits places x)) := by
  obtain ⟨hnan, hinf⟩ := isFinite_iff.mp h
  rw [fixed, hnan, hinf, if_neg Bool.false_ne_true, if_neg Bool.false_ne_true]
  rfl

example : fixed 2 0.125 = "0.12" := rfl

/-- Finite floats with the same sign and the same number of units are printed the same. -/
theorem fixed_congr (hx : x.isFinite = true) (hy : y.isFinite = true)
    (hsign : (parts x).negative = (parts y).negative)
    (hunits : fixedUnits places x = fixedUnits places y) : fixed places x = fixed places y := by
  rw [fixed_of_isFinite hx, fixed_of_isFinite hy, hsign, hunits]

/-! ### What is read -/

theorem ofDecimal_zero (e : Int) : ofDecimal 0 e = 0.0 := by
  simp [ofDecimal]

/-- A number of units is read as a float that is printed with that number. -/
theorem fixedUnits_ofDecimal (hlow : 1 ≤ places) (hhigh : places ≤ 3) (h : x.isFinite = true) :
    (ofDecimal (fixedUnits places x) (-places)).isFinite = true ∧
      (parts (ofDecimal (fixedUnits places x) (-places))).negative = false ∧
      fixedUnits places (ofDecimal (fixedUnits places x) (-places)) = fixedUnits places x := by
  rcases Nat.eq_zero_or_pos (fixedUnits places x) with hzero | hpos
  · rw [hzero, ofDecimal_zero]
    exact ⟨rfl, rfl, fixedUnits_eq_zero rfl⟩
  obtain ⟨m, e, hm, hread, hnear⟩ := exists_ofDecimal_nears hlow hhigh hpos
    (fixedUnits_le_largest h)
  refine ⟨isFinite_of_finite hread, ?_, ?_⟩
  · rw [(parts_finite hread).1]
    rfl
  · -- the printed float is one of those that are no nearer than the one that is read
    obtain ⟨j, i, hj, hsize⟩ := exists_of_amount (amount_eq_size h)
    have hdistance := hnear |j| i (by rwa [abs_abs])
    have habs : |(j * 2 ^ i : ℚ)| = (|j| : ℤ) * 2 ^ i := by
      rw [abs_mul, abs_of_pos (zpow_pos two_pos i : (0 : ℚ) < 2 ^ i), Int.cast_abs]
    rw [← habs, ← hsize, abs_amount (amount_eq_size h), ← (size_finite hread).1] at hdistance
    exact (roundsTo_fixedUnits places _).unique
      ((roundsTo_fixedUnits places x).of_nearer hdistance)

variable (places)

/-- What is read of a printed float has its sign and its number of units. -/
theorem reread_spec (hlow : 1 ≤ places) (hhigh : places ≤ 3) (hfinite : x.isFinite = true)
    (h : ¬ x < 0.0) : (reread places x).isFinite = true ∧ ¬ reread places x < 0.0 ∧
      (parts (reread places x)).negative = (parts x).negative ∧
      fixedUnits places (reread places x) = fixedUnits places x := by
  obtain ⟨hnan, hinf⟩ := isFinite_iff.mp hfinite
  unfold reread
  rw [hnan, hinf, if_neg Bool.false_ne_true, if_neg Bool.false_ne_true]
  split
  next hnegative =>
    -- only a zero has a minus sign
    rw [fixedUnits_eq_zero (significand_eq_zero h hfinite hnegative), ofDecimal_zero, hnegative]
    exact ⟨rfl, by decide, rfl, fixedUnits_eq_zero rfl⟩
  next hnegative =>
    obtain ⟨hfinite', hsign, hunits⟩ := fixedUnits_ofDecimal hlow hhigh hfinite
    rw [Bool.eq_false_iff.mpr hnegative]
    refine ⟨hfinite', fun hbelow => ?_, hsign, hunits⟩
    rw [lt_zero_iff hfinite', hsign] at hbelow
    cases hbelow.1

/-- A float that is printed with some units has no minus sign, and what is read is their number. -/
theorem reread_of_pos (hfinite : x.isFinite = true) (h : ¬ x < 0.0)
    (hpos : 0 < fixedUnits places x) : (parts x).negative = false ∧
      reread places x = ofDecimal (fixedUnits places x) (-places) := by
  have hnegative : (parts x).negative = false := by
    rw [Bool.eq_false_iff]
    exact fun hneg => hpos.ne' (fixedUnits_eq_zero (significand_eq_zero h hfinite hneg))
  obtain ⟨hnan, hinf⟩ := isFinite_iff.mp hfinite
  unfold reread
  rw [hnan, hinf, hnegative]
  exact ⟨rfl, rfl⟩

/-- **What is read of a printed float is printed the same.** -/
theorem fixed_reread (hlow : 1 ≤ places) (hhigh : places ≤ 3) (hfinite : x.isFinite = true)
    (h : ¬ x < 0.0) : fixed places (reread places x) = fixed places x := by
  obtain ⟨hfinite', -, hsign, hunits⟩ := reread_spec places hlow hhigh hfinite h
  exact fixed_congr hfinite' hfinite hsign hunits

end Units

end Screenwright.Number
