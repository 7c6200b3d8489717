/-
A decimal text is read as the float that is nearest to it.

The quotient of two whole numbers is computed to at least 53 digits, and what is left over of the
division says on which side of the middle the rest lies.  So rounding it gives the nearest number of
53 digits, and that is a float as long as it is no larger than the largest one.
-/
import Screenwright.Proofs.Floats.Parts

namespace Screenwright.Number

open Float.Model (UnpackedFloat Format totalExponent)
open Float.Model.UnpackedFloat

/-! ### Rounding -/

theorem div_split (num : Nat) {den : Nat} (hden : 0 < den) :
    (num / den : ℚ) = (num / den : Nat) + ((num % den : Nat) : ℚ) / den := by
  have hne : (den : ℚ) ≠ 0 := Nat.cast_ne_zero.mpr hden.ne'
  have hsplit : (num : ℚ) = den * (num / den : Nat) + (num % den : Nat) := by
    exact_mod_cast (Nat.div_add_mod num den).symm
  rw [eq_comm, eq_div_iff hne, add_mul, div_mul_cancel₀ _ hne, hsplit, mul_comm]

/-- Digits and what is left over of a division stand for the quotient. -/
theorem approximates_fraction (num : Nat) {den : Nat} (hden : 0 < den) :
    Approximates (.ofMantissaAndAccuracy (num / den) (accuracyOfFraction (num % den) den))
      (num / den : ℚ) := by
  have hpos : (0 : ℚ) < den := Nat.cast_pos.mpr hden
  have hbelow : ((num % den : Nat) : ℚ) / den < 1 :=
    (div_lt_one hpos).mpr (Nat.cast_lt.mpr (Nat.mod_lt num hden))
  have htwice : 2 * (((num % den : Nat) : ℚ) / den) = ((2 * (num % den) : Nat) : ℚ) / den := by
    push_cast
    ring
  rw [div_split num hden]
  unfold accuracyOfFraction
  split
  next hzero => simp [Approximates, ExtendedMantissa.ofMantissaAndAccuracy, hzero]
  next hrest =>
    have habove : (0 : ℚ) < ((num % den : Nat) : ℚ) / den :=
      div_pos (Nat.cast_pos.mpr (Nat.pos_of_ne_zero hrest)) hpos
    cases hcompare : compare (2 * (num % den)) den with
    | lt =>
        have hhalf : 2 * (((num % den : Nat) : ℚ) / den) < 1 := by
          rw [htwice, div_lt_one hpos]
          exact_mod_cast Nat.compare_eq_lt.mp hcompare
        simp only [Approximates, ExtendedMantissa.ofMantissaAndAccuracy, if_true]
        constructor <;> simp <;> linarith
    | eq =>
        have hhalf : 2 * (((num % den : Nat) : ℚ) / den) = 1 := by
          rw [htwice, div_eq_one_iff_eq hpos.ne']
          exact_mod_cast Nat.compare_eq_eq.mp hcompare
        simp [Approximates, ExtendedMantissa.ofMantissaAndAccuracy]
        linarith
    | gt =>
        have hhalf : 1 < 2 * (((num % den : Nat) : ℚ) / den) := by
          rw [htwice, one_lt_div hpos]
          exact_mod_cast Nat.compare_eq_gt.mp hcompare
        simp only [Approximates, ExtendedMantissa.ofMantissaAndAccuracy, if_true]
        constructor <;> simp <;> linarith

/-- The value is as near to `v` as a number of 53 digits can be. -/
def Nears (v : ℚ) (m : Nat) (e : ℤ) : Prop :=
  ∀ j i : ℤ, |j| < 2 ^ 53 → |(m * 2 ^ e : ℚ) - v| ≤ |(j * 2 ^ i : ℚ) - v|

theorem Approximates.le {em : ExtendedMantissa} {v : ℚ} (h : Approximates em v) :
    (em.mantissa : ℚ) ≤ v := by
  obtain ⟨m, r, s⟩ := em
  unfold Approximates at h
  cases r <;> cases s <;> simp at h <;> linarith

/-- Enough digits that stand for a number give, with the last one rounded, the nearest one. -/
theorem Approximates.nears {em : ExtendedMantissa} {v : ℚ} (h : Approximates em v)
    (hlong : 2 ^ 52 ≤ em.mantissa) (e : ℤ) : Nears (v * 2 ^ e) em.roundedMantissa e := by
  have hlarge : 2 ^ 52 ≤ v := le_trans (by exact_mod_cast hlong) h.le
  exact fun j i hj => abs_mul_sub_le_of_half h.abs_sub_le hlarge hj

/-- Of digits that stand for a number at least 53 are enough for the nearest number of 53 digits. -/
theorem exists_roundWithAccuracy_nears {m : Nat} {e : ℤ} {accuracy : Accuracy} {v : ℚ}
    (h : Approximates (.ofMantissaAndAccuracy m accuracy) v) (hlong : 52 ≤ m.log2)
    (hnormal : -1021 ≤ totalExponent m e) (s : Sign) :
    ∃ m' e' hm, roundWithAccuracy .binary64 s m e accuracy = .finite s m' e' hm ∧
      2 ^ 52 ≤ m' ∧ m' < 2 ^ 53 ∧ -1074 ≤ e' ∧ Nears (v * 2 ^ e) m' e' := by
  obtain ⟨n, hn⟩ : ∃ n, m.log2 = 52 + n := Nat.exists_eq_add_of_le hlong
  have hm : m ≠ 0 := by
    rintro rfl
    exact absurd hlong (by decide)
  have hleast : -1074 ≤ e + n := by
    unfold totalExponent at hnormal
    omega
  have hfirst := shiftToTargetExponent_eq accuracy (m := m) (e := e) (k := n) (by
    unfold totalExponent
    omega)
  obtain ⟨hlow, hhigh⟩ : 2 ^ 52 ≤ m / 2 ^ n ∧ m / 2 ^ n < 2 ^ 53 := by
    rw [Nat.le_div_iff_mul_le (Nat.two_pow_pos n), Nat.div_lt_iff_lt_mul (Nat.two_pow_pos n),
      ← Nat.pow_add, ← Nat.pow_add, Nat.add_right_comm 52 1, ← hn]
    exact ⟨Nat.log2_self_le hm, Nat.lt_log2_self⟩
  -- the digits that are kept stand for the number in units of the last one of them
  have hshifted := h.shiftRight n
  have hmantissa : (ExtendedMantissa.ofMantissaAndAccuracy m accuracy >>> n).mantissa =
      m / 2 ^ n := by
    rw [mantissa_shiftRight, mantissa_ofMantissaAndAccuracy]
  generalize ExtendedMantissa.ofMantissaAndAccuracy m accuracy >>> n = em at *
  have hnear : Nears (v * 2 ^ e) em.roundedMantissa (e + n) := by
    have hscale : v * 2 ^ e = v / 2 ^ n * 2 ^ (e + n) := by
      rw [zpow_add₀ two_ne_zero, zpow_natCast]
      field_simp
    rw [hscale]
    exact hshifted.nears (hmantissa ▸ hlow) _
  have hdown := mantissa_le_roundedMantissa em
  have hup := roundedMantissa_le em
  rw [hmantissa] at hdown hup
  rcases Nat.lt_or_eq_of_le (show em.roundedMantissa ≤ 2 ^ 53 by omega) with hplain | hcarried
  · have hlog := log2_eq_of_leading (by omega) hplain
    have hsecond := shiftToTargetExponent_eq .exact (m := em.roundedMantissa) (e := e + n)
      (k := 0) (by
        unfold totalExponent
        omega)
    rw [Int.natCast_zero, Int.add_zero] at hsecond
    exact ⟨em.roundedMantissa, e + n, by omega, roundWithAccuracy_eq s hfirst hsecond (by
      rw [mantissa_shiftRight, mantissa_ofMantissaAndAccuracy]
      omega), by omega, hplain, hleast, hnear⟩
  · have hsecond := shiftToTargetExponent_eq .exact (m := em.roundedMantissa) (e := e + n)
      (k := 1) (by
        have hlog : (2 ^ 53).log2 = 53 := Nat.log2_two_pow
        rw [hcarried]
        unfold totalExponent
        omega)
    have hhalf : (ExtendedMantissa.ofMantissaAndAccuracy em.roundedMantissa .exact >>> 1).mantissa =
        2 ^ 52 := by
      rw [mantissa_shiftRight, mantissa_ofMantissaAndAccuracy, hcarried]
      rfl
    refine ⟨2 ^ 52, e + n + 1, by decide, ?_, le_rfl, by decide, by omega, ?_⟩
    · rw [roundWithAccuracy_eq s hfirst hsecond (by rw [hhalf]; decide)]
      simp only [hhalf]
      rfl
    · have hcarry : ((2 ^ 52 : Nat) : ℚ) * 2 ^ (e + n + 1) = em.roundedMantissa * 2 ^ (e + n) := by
        rw [hcarried, zpow_add_one₀ two_ne_zero]
        push_cast
        ring
      unfold Nears at *
      rwa [hcarry]

/-! ### Quotients -/

theorem cast_pow10 (n : Nat) : ((pow10 n : Nat) : ℚ) = 10 ^ n := by
  rw [pow10, Nat.pow_eq, Nat.cast_pow, Nat.cast_ofNat]

/-- The largest float. -/
def largest : Nat := (2 ^ 53 - 1) * pow2 971

/-- What is no larger than the largest float is not rounded past it. -/
theorem Nears.exponent_le {v : ℚ} {m : Nat} {e : ℤ} (h : Nears v m e) (hlow : 2 ^ 52 ≤ m)
    (hv : v ≤ largest) : e ≤ 971 := by
  have hlargest : ((largest : Nat) : ℚ) = ((2 ^ 53 - 1 : ℤ) : ℚ) * 2 ^ (971 : ℤ) := by
    rw [largest, Nat.cast_mul, cast_pow2]
    rfl
  have hnear := h (2 ^ 53 - 1) 971 (by decide)
  rw [← hlargest, abs_of_nonneg (sub_nonneg.mpr hv)] at hnear
  have hle : (m * 2 ^ e : ℚ) ≤ largest :=
    (sub_le_sub_iff_right v).mp ((le_abs_self _).trans hnear)
  by_contra hlarge
  have hpow : (2 : ℚ) ^ (972 : ℤ) ≤ 2 ^ e := zpow_le_zpow_right₀ one_le_two (by omega)
  have hbig : (2 : ℚ) ^ 52 * 2 ^ (972 : ℤ) ≤ m * 2 ^ e :=
    mul_le_mul (by exact_mod_cast hlow) hpow (zpow_pos two_pos _).le (Nat.cast_nonneg _)
  have hpos : (0 : ℚ) < 2 ^ (971 : ℤ) := zpow_pos two_pos _
  rw [hlargest] at hle
  rw [show (972 : ℤ) = 971 + 1 from rfl, zpow_add_one₀ two_ne_zero] at hbig
  generalize (2 : ℚ) ^ (971 : ℤ) = u at *
  push_cast at hle
  linarith

/-- **A quotient that is no larger than the largest float is the number of 53 digits that is
nearest to the exact quotient.** -/
theorem exists_div_nears {m₁ m₂ : Nat} {e₁ e₂ : ℤ} (h₁ : 0 < m₁) (h₂ : 0 < m₂)
    (hnormal : -1021 ≤ totalExponent m₁ e₁ - totalExponent m₂ e₂)
    (hsmall : (m₁ * 2 ^ e₁ / (m₂ * 2 ^ e₂) : ℚ) ≤ largest) :
    ∃ m e hm, (Float.Model.pack (UnpackedFloat.div .binary64 (.finite .positive m₁ e₁ h₁)
        (.finite .positive m₂ e₂ h₂))).unpack = .finite .positive m e hm ∧
      Nears (m₁ * 2 ^ e₁ / (m₂ * 2 ^ e₂)) m e := by
  obtain ⟨t, ht⟩ : ∃ t, t = min (e₁ - e₂)
      (max (totalExponent m₁ e₁ - totalExponent m₂ e₂ - 53) (-1074)) := ⟨_, rfl⟩
  obtain ⟨k, hk⟩ : ∃ k : Nat, e₁ - e₂ - t = k := Int.eq_ofNat_of_zero_le (by omega)
  unfold totalExponent at hnormal ht
  -- the dividend is so long that the quotient has 53 digits
  have hlong : m₂.log2 + 53 ≤ m₁.log2 + k := by omega
  have hlog : m₁.log2 + k - (m₂.log2 + 1) ≤ (m₁ <<< k / m₂).log2 := by
    have hle : 2 ^ (m₁.log2 + k - (m₂.log2 + 1)) ≤ m₁ <<< k / m₂ := by
      rw [Nat.le_div_iff_mul_le h₂, Nat.shiftLeft_eq]
      calc 2 ^ (m₁.log2 + k - (m₂.log2 + 1)) * m₂
          ≤ 2 ^ (m₁.log2 + k - (m₂.log2 + 1)) * 2 ^ (m₂.log2 + 1) :=
            Nat.mul_le_mul_left _ (Nat.le_of_lt Nat.lt_log2_self)
        _ = 2 ^ m₁.log2 * 2 ^ k := by
            rw [← Nat.pow_add, Nat.sub_add_cancel (by omega), Nat.pow_add]
        _ ≤ m₁ * 2 ^ k := Nat.mul_le_mul_right _ (Nat.log2_self_le h₁.ne')
    have hpos := Nat.lt_of_lt_of_le (Nat.two_pow_pos _) hle
    exact (Nat.le_log2 hpos.ne').mpr hle
  have hvalue : ((m₁ <<< k : Nat) / m₂ : ℚ) * 2 ^ t = m₁ * 2 ^ e₁ / (m₂ * 2 ^ e₂) := by
    have hexponent : e₁ = k + t + e₂ := by omega
    rw [Nat.shiftLeft_eq, hexponent, zpow_add₀ two_ne_zero, zpow_add₀ two_ne_zero, zpow_natCast]
    push_cast
    field_simp
  obtain ⟨m, e, hm, hround, hlow, hhigh, hleast, hnear⟩ := exists_roundWithAccuracy_nears
    (approximates_fraction (m₁ <<< k) h₂) (e := t) (by omega)
    (by unfold totalExponent; omega) .positive
  rw [hvalue] at hnear
  have hdiv : UnpackedFloat.div .binary64 (.finite .positive m₁ e₁ h₁)
      (.finite .positive m₂ e₂ h₂) = .finite .positive m e hm := by
    rw [← hround]
    unfold UnpackedFloat.div divCore
    simp only [targetExponent_eq, totalExponent, ← ht, hk, Int.toNat_natCast]
    rfl
  refine ⟨m, e, hm, ?_, hnear⟩
  rw [hdiv]
  exact unpack_pack_normal hm hlow hhigh hleast (hnear.exponent_le hlow hsmall) .positive

/-! ### Decimals -/

section Decimals

variable {n places : Nat}

theorem spells_ten : Spells 10 49 (Float.ofBits 0x4024000000000000) :=
  ⟨by decide, by decide, by decide, by decide, by rfl⟩

theorem log2_pow10_le (hhigh : places ≤ 3) : (10 ^ places).log2 ≤ 9 :=
  log2_le_of_lt (Nat.lt_of_le_of_lt (Nat.pow_le_pow_right (by decide) hhigh) (by decide))

/-- A power of ten of few places is a float. -/
theorem exists_spells_powerOfTen (hlow : 1 ≤ places) (hhigh : places ≤ 3)
    (hbound : places < Float.exactlyRepresentablePowersOfTen.size) :
    ∃ k, Spells (10 ^ places) k Float.exactlyRepresentablePowersOfTen[places] := by
  obtain rfl | rfl | rfl : places = 1 ∨ places = 2 ∨ places = 3 := by omega
  · exact ⟨49, spells_ten⟩
  · exact ⟨46, spells_hundred⟩
  · exact ⟨43, spells_thousand⟩

theorem length_toDigits_le {k : Nat} (hk : 0 < k) (h : n < pow10 k) :
    (Nat.toDigits 10 n).length ≤ k :=
  (Nat.length_toDigits_le_iff (by decide) hk).mpr h

theorem ofDecimal_eq_ofScientific (hlow : 1 ≤ places) (hhigh : places ≤ 3) (hpos : 0 < n)
    (hsmall : n ≤ largest * pow10 places) :
    ofDecimal n (-places) = Float.ofScientific n true places := by
  have hbound : largest * pow10 places < pow10 312 :=
    Nat.lt_of_le_of_lt (Nat.mul_le_mul_left _ (Nat.pow_le_pow_right (by decide) hhigh))
      (by decide +kernel)
  have hlength := length_toDigits_le (by decide) (Nat.lt_of_le_of_lt hsmall hbound)
  unfold ofDecimal
  dsimp only
  rw [if_neg (by simp only [Bool.or_eq_true, decide_eq_true_eq]; omega), if_neg (by omega),
    if_pos (by omega), Int.natAbs_neg, Int.natAbs_natCast]

theorem ofScientific_neg (hlow : 1 ≤ places) (hhigh : places ≤ 3) (hpos : 0 < n) :
    UnpackedFloat.ofScientific .binary64 n (Int.negOfNat places) =
      UnpackedFloat.div .binary64 (.finite .positive n 0 hpos)
        (.finite .positive (10 ^ places) 0 (Nat.pow_pos (by decide))) := by
  have hexponent : (2 : Int) ^ Format.exponentBits .binary64 = 2048 := by decide
  unfold UnpackedFloat.ofScientific
  rw [Int.negOfNat_eq, Int.ofNat_eq_natCast, dif_neg hpos.ne', if_neg (by omega),
    if_neg (by omega), if_neg (by omega)]
  simp only [Int.neg_neg, Int.toNat_natCast]

/-- **A decimal of few places is read as the float that is nearest to it.** -/
theorem exists_ofDecimal_nears (hlow : 1 ≤ places) (hhigh : places ≤ 3) (hpos : 0 < n)
    (hsmall : n ≤ largest * pow10 places) :
    ∃ m e hm, (ofDecimal n (-places)).toModel.unpack = .finite .positive m e hm ∧
      Nears (n / 10 ^ places) m e := by
  have hten : 0 < 10 ^ places := Nat.pow_pos (by decide)
  have hlog := log2_pow10_le hhigh
  have hle : (n / 10 ^ places : ℚ) ≤ largest := by
    rw [div_le_iff₀ (by positivity), ← cast_pow10]
    exact_mod_cast hsmall
  rw [ofDecimal_eq_ofScientific hlow hhigh hpos hsmall]
  unfold Float.ofScientific
  split
  next hfast =>
    -- the number and the power are floats themselves
    obtain ⟨-, hlow₁, hhigh₁, h₁, hn⟩ := spells_toFloat hpos hfast.1
    obtain ⟨k, -, hlow₂, hhigh₂, h₂, hpower⟩ := exists_spells_powerOfTen hlow hhigh
      (Nat.lt_of_le_of_lt hhigh (by decide))
    generalize 52 - n.log2 = j at *
    have hquotient : ((n * 2 ^ j : Nat) * 2 ^ (-j : ℤ) /
        ((10 ^ places * 2 ^ k : Nat) * 2 ^ (-k : ℤ)) : ℚ) = n / 10 ^ places := by
      rw [zpow_neg, zpow_neg, zpow_natCast, zpow_natCast]
      push_cast
      field_simp
    rw [← hquotient] at hle ⊢
    have hlog₁ := log2_mul_two_pow hpos.ne' j
    have hlog₂ := log2_mul_two_pow hten.ne' k
    obtain ⟨m, e, hm, hround, hnear⟩ := exists_div_nears h₁ h₂
      (by unfold totalExponent; omega) hle
    refine ⟨m, e, hm, ?_, hnear⟩
    rw [← hn, ← hpower] at hround
    exact hround
  next hslow =>
    have hquotient : ((n : Nat) * 2 ^ (0 : ℤ) / ((10 ^ places : Nat) * 2 ^ (0 : ℤ)) : ℚ) =
        n / 10 ^ places := by
      rw [zpow_zero, mul_one, mul_one, Nat.cast_pow, Nat.cast_ofNat]
    rw [← hquotient] at hle ⊢
    obtain ⟨m, e, hm, hround, hnear⟩ := exists_div_nears hpos hten
      (by unfold totalExponent; omega) hle
    refine ⟨m, e, hm, ?_, hnear⟩
    rw [← ofScientific_neg hlow hhigh hpos] at hround
    exact hround

end Decimals

end Screenwright.Number
