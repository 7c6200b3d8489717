/-
The float of a whole number is the nearest one.

The value of a float is a significand times a power of two.  Seen from a whole number whose first
53 digits end at a certain power, every float is a multiple of that power or is smaller than the
53 digits can be (`Grid`), so the nearest float is the nearest multiple; that rounding finds it is
a matter of the two digits that it goes by, which say on which side of the middle the rest lies.
-/
import Screenwright.Proofs.Floats.Whole

namespace Screenwright.Number

open Float.Model (UnpackedFloat)
open Float.Model.UnpackedFloat

/-! ### Amounts -/

/-- The number that a float is, if it is one. -/
def amountOf : UnpackedFloat → Option ℚ
  | .finite s m e _ => some (s.apply m * 2 ^ e)
  | .zero _ => some 0
  | _ => none

/-- The number that a float is, if it is one. -/
def amount? (x : Float) : Option ℚ :=
  amountOf x.toModel.unpack

/-- The float is a number, and no other float is a number nearer to the whole number. -/
def Nearest (n : Int) (x : Float) : Prop :=
  ∃ r, amount? x = some r ∧ ∀ y r', amount? y = some r' → |r - n| ≤ |r' - n|

/-- The amount of a float has at most 53 digits. -/
theorem exists_of_amount {y : Float} {r : ℚ} (h : amount? y = some r) :
    ∃ (j e : Int), |j| < 2 ^ 53 ∧ r = j * 2 ^ e := by
  unfold amount? at h
  cases hy : y.toModel.unpack with
  | finite s m e hm =>
      rw [hy] at h
      have hlt := (parts_finite hy).2.lt
      refine ⟨s.apply m, e, ?_, (Option.some.inj h).symm⟩
      have habs := natAbs_apply s m
      rw [Int.abs_eq_natAbs]
      omega
  | zero s =>
      rw [hy] at h
      exact ⟨0, 0, by decide, by simpa [amountOf] using (Option.some.inj h).symm⟩
  | infinity s => rw [hy] at h; cases h
  | notANumber => rw [hy] at h; cases h

/-! ### Rounding -/

/-- The digits stand for the number: one behind the point is kept, and of those behind that one
only whether there are any. -/
def Approximates (em : ExtendedMantissa) (v : ℚ) : Prop :=
  if em.stickyBit then
    (2 * em.mantissa + em.roundBit.toNat : ℚ) < 2 * v ∧
      2 * v < 2 * em.mantissa + em.roundBit.toNat + 1
  else 2 * v = 2 * em.mantissa + em.roundBit.toNat

section Approximates

variable {em : ExtendedMantissa} {v : ℚ}

theorem Approximates.shiftRightOne (h : Approximates em v) :
    Approximates em.shiftRightOne (v / 2) := by
  have hsplit : (em.mantissa : ℚ) =
      2 * (em.mantissa / 2 : Nat) + ((em.mantissa % 2 != 0).toNat : Nat) := by
    have hbit : (em.mantissa % 2 != 0).toNat = em.mantissa % 2 := by
      rcases Nat.mod_two_eq_zero_or_one em.mantissa with h | h <;> rw [h] <;> rfl
    rw [hbit]
    exact_mod_cast (Nat.div_add_mod em.mantissa 2).symm
  obtain ⟨m, r, s⟩ := em
  unfold Approximates ExtendedMantissa.shiftRightOne at *
  dsimp only at *
  generalize (m % 2 != 0) = bit at hsplit
  rw [hsplit] at h
  cases r <;> cases s <;> simp at h ⊢ <;> first | linarith | constructor <;> linarith

theorem Approximates.shiftRight (h : Approximates em v) (n : Nat) :
    Approximates (em >>> n) (v / 2 ^ n) := by
  show Approximates (n.repeat ExtendedMantissa.shiftRightOne em) (v / 2 ^ n)
  induction n with
  | zero => simpa [Nat.repeat] using h
  | succ n ih =>
      rw [pow_succ, ← div_div]
      exact ih.shiftRightOne

/-- What is rounded changes by half a unit at the most. -/
theorem Approximates.abs_sub_le (h : Approximates em v) :
    |(em.roundedMantissa : ℚ) - v| ≤ 1 / 2 := by
  obtain ⟨m, r, s⟩ := em
  -- in the middle the mantissa becomes even
  have heven : ((m % 2 : Nat) : ℚ) ≤ 1 := by
    exact_mod_cast Nat.lt_succ_iff.mp (Nat.mod_lt m two_pos)
  have hodd : (0 : ℚ) ≤ (m % 2 : Nat) := Nat.cast_nonneg _
  unfold Approximates at h
  rw [abs_le]
  cases r <;> cases s <;>
    simp [ExtendedMantissa.roundedMantissa, ExtendedMantissa.accuracy,
      Accuracy.roundToNearestEven] at h ⊢ <;>
    constructor <;> linarith

end Approximates

/-- The integers that are at most half a unit away are the nearest ones. -/
theorem abs_sub_le_of_half {a k : ℤ} {v : ℚ} (h : |(a : ℚ) - v| ≤ 1 / 2) :
    |(a : ℚ) - v| ≤ |(k : ℚ) - v| := by
  rcases eq_or_ne a k with rfl | hne
  · exact le_refl _
  have hapart : (1 : ℚ) ≤ |(a : ℚ) - k| := by
    exact_mod_cast Int.one_le_abs (sub_ne_zero.mpr hne)
  have htriangle := abs_sub_le (a : ℚ) v k
  rw [abs_sub_comm v] at htriangle
  linarith

/-- Of the numbers of 53 digits the nearest one is given by the digits that are at most half a unit
away, if 53 digits are needed for them. -/
theorem abs_mul_sub_le_of_half {r : Nat} {w : ℚ} {k : ℤ} (hhalf : |(r : ℚ) - w| ≤ 1 / 2)
    (hlarge : 2 ^ 52 ≤ w) {j e : ℤ} (hj : |j| < 2 ^ 53) :
    |r * 2 ^ k - w * 2 ^ k| ≤ |(j * 2 ^ e : ℚ) - w * 2 ^ k| := by
  have hunit : (0 : ℚ) < 2 ^ k := zpow_pos two_pos k
  have hscale : ∀ a : ℚ, |a * 2 ^ k - w * 2 ^ k| = |a - w| * 2 ^ k := fun a => by
    rw [← sub_mul, abs_mul, abs_of_pos hunit]
  have hsplit : (j * 2 ^ e : ℚ) = j * 2 ^ (e - k) * 2 ^ k := by
    rw [mul_assoc, ← zpow_add₀ two_ne_zero, sub_add_cancel]
  rw [hsplit, hscale, hscale]
  refine mul_le_mul_of_nonneg_right ?_ hunit.le
  have hhalf' : |((r : ℤ) : ℚ) - w| ≤ 1 / 2 := hhalf
  rcases le_or_gt k e with hle | hlt
  · -- a multiple of the last digit
    obtain ⟨t, ht⟩ := Int.eq_ofNat_of_zero_le (sub_nonneg.mpr hle)
    have hnear := abs_sub_le_of_half (k := j * 2 ^ t) hhalf'
    rw [ht, zpow_natCast]
    push_cast at hnear
    exact hnear
  · -- a number that is smaller than 53 digits can be
    have hsmall : (j : ℚ) * 2 ^ (e - k) ≤ 2 ^ 52 := by
      calc (j : ℚ) * 2 ^ (e - k) ≤ 2 ^ 53 * 2 ^ (-1 : ℤ) := by
            refine mul_le_mul ?_ (zpow_le_zpow_right₀ one_le_two (by omega))
              (zpow_pos two_pos _).le (by positivity)
            exact_mod_cast (le_abs_self j).trans hj.le
        _ = 2 ^ 52 := by norm_num
    have hnear := abs_sub_le_of_half (k := 2 ^ 52) hhalf'
    push_cast at hnear
    refine hnear.trans ?_
    rw [abs_of_nonpos (by linarith), abs_of_nonpos (by linarith)]
    linarith

/-! ### Whole numbers -/

section Whole

variable {n : Nat}

/-- The last of the first 53 digits of a whole number. -/
def unit (n : Nat) : ℚ :=
  2 ^ ((n.log2 : ℤ) - 52)

theorem unit_pos (n : Nat) : 0 < unit n :=
  zpow_pos two_pos _

/-- The first 53 digits, rounded, are the nearest multiple of the last one. -/
theorem abs_leading_sub_le (n : Nat) : |(leading n : ℚ) - n / unit n| ≤ 1 / 2 := by
  have hexact : Approximates (ExtendedMantissa.ofMantissaAndAccuracy (n * 2 ^ 53) .exact)
      ((n * 2 ^ 53 : Nat) : ℚ) := by
    simp [Approximates, ExtendedMantissa.ofMantissaAndAccuracy]
  have hshift : ((n * 2 ^ 53 : Nat) : ℚ) / 2 ^ (n.log2 + 1) = n / unit n := by
    rw [unit, zpow_sub₀ two_ne_zero, zpow_natCast, pow_succ]
    push_cast
    field_simp
    ring
  rw [← hshift]
  exact (hexact.shiftRight _).abs_sub_le

theorem le_div_unit (hpos : 0 < n) : 2 ^ 52 ≤ (n : ℚ) / unit n := by
  have hlog : (2 : ℚ) ^ n.log2 ≤ n := by exact_mod_cast Nat.log2_self_le (Nat.ne_of_gt hpos)
  rw [le_div_iff₀ (unit_pos n), unit, zpow_sub₀ two_ne_zero, zpow_natCast]
  refine le_of_eq_of_le ?_ hlog
  field_simp

/-- No number of 53 digits is nearer to a whole number than its own first 53 digits, rounded. -/
theorem abs_leading_mul_sub_le (hpos : 0 < n) {j e : ℤ} (hj : |j| < 2 ^ 53) :
    |leading n * unit n - n| ≤ |(j * 2 ^ e : ℚ) - n| := by
  have h := abs_mul_sub_le_of_half (k := (n.log2 : ℤ) - 52) (e := e) (abs_leading_sub_le n)
    (le_div_unit hpos) hj
  rwa [← unit, div_mul_cancel₀ _ (unit_pos n).ne'] at h

theorem Leads.amount_eq {m : Nat} {e : ℤ} (h : Leads n m e) :
    (m * 2 ^ e : ℚ) = leading n * unit n := by
  cases h with
  | plain h => rfl
  | carried h =>
      have hexponent : (n.log2 : ℤ) - 51 = n.log2 - 52 + 1 := by ring
      rw [h, unit, hexponent, zpow_add_one₀ two_ne_zero]
      push_cast
      ring

theorem amountOf_holds {s : Sign} {m : Nat} {e : ℤ} {f : UnpackedFloat} (h : Holds s m e f)
    (he : e ≤ 971) : amountOf f = some ((s.apply m : ℤ) * 2 ^ e : ℚ) := by
  cases h with
  | finite hm => rfl
  | infinity hlarge => exact absurd he (Int.not_le.mpr hlarge)

theorem Leads.exponent_le {m : Nat} {e : ℤ} (h : Leads n m e) (hn : n < 2 ^ 64) : e ≤ 971 := by
  have hlog : n.log2 ≤ 63 := log2_le_of_lt hn
  cases h <;> omega

end Whole

/-- **A whole number becomes the float that is nearest to it**; the whole numbers of JSON texts have
at most 64 digits. -/
theorem nearest_ofInt {n : Int} (hn : n.natAbs < 2 ^ 64) : Nearest n (Float.ofInt n) := by
  cases n with
  | ofNat n =>
      rcases Nat.eq_zero_or_pos n with rfl | hpos
      · exact ⟨0, rfl, by simp⟩
      · obtain ⟨m, e, hleads, hholds⟩ := exists_leads hpos
        refine ⟨leading n * unit n, ?_, fun y r hy => ?_⟩
        · rw [← hleads.amount_eq]
          exact amountOf_holds hholds (hleads.exponent_le hn)
        · obtain ⟨j, e', hj, rfl⟩ := exists_of_amount hy
          exact abs_leading_mul_sub_le hpos hj
  | negSucc n =>
      have hpos := Nat.succ_pos n
      obtain ⟨m, e, hleads, hholds⟩ := exists_leads_neg hpos
      have hcast : ((Int.negSucc n : ℤ) : ℚ) = -(n + 1 : Nat) := Int.cast_negSucc n
      refine ⟨-(leading (n + 1) * unit (n + 1)), ?_, fun y r hy => ?_⟩
      · have hamount : amount? (Float.ofInt (Int.negSucc n)) = some ((-m : ℤ) * 2 ^ e : ℚ) :=
          amountOf_holds hholds (hleads.exponent_le hn)
        rw [hamount, ← hleads.amount_eq]
        push_cast
        rw [neg_mul]
      · obtain ⟨j, e', hj, rfl⟩ := exists_of_amount hy
        have hnear := abs_leading_mul_sub_le hpos (j := -j) (e := e') (by rwa [abs_neg])
        rw [Int.cast_neg, neg_mul, ← abs_neg, ← abs_neg (-_ - _)] at hnear
        rw [hcast]
        convert hnear using 2 <;> ring

end Screenwright.Number
