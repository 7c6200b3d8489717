/-
A fraction of whole numbers that is at most one is a float in the unit interval.

Whole numbers below `2^53` are floats exactly, with the digits of the number at the front of the
significand.  The quotient of a smaller by a larger one is below one, and rounding cannot carry it
past one, since one is itself a float.
-/
import Screenwright.Number.Reading
import Screenwright.Proofs.Floats.Order
import Screenwright.Proofs.Floats.Sizes

namespace Screenwright.Number

open Float.Model (UnpackedFloat Format totalExponent)
open Float.Model.UnpackedFloat

/-! ### Whole numbers -/

theorem log2_eq_of_leading {m : Nat} (hlow : 2 ^ 52 ≤ m) (hhigh : m < 2 ^ 53) : m.log2 = 52 :=
  (Nat.log2_eq_iff (by omega)).mpr ⟨hlow, hhigh⟩

/-- Zeros that are shifted out leave no trace. -/
theorem shiftRight_exact (m n : Nat) :
    ExtendedMantissa.ofMantissaAndAccuracy (m * 2 ^ n) .exact >>> n =
      ExtendedMantissa.ofMantissaAndAccuracy m .exact := by
  show n.repeat ExtendedMantissa.shiftRightOne _ = _
  induction n generalizing m with
  | zero => simp [Nat.repeat]
  | succ n ih =>
      rw [Nat.repeat, Nat.pow_succ, Nat.mul_comm (2 ^ n), ← Nat.mul_assoc, ih]
      simp [ExtendedMantissa.ofMantissaAndAccuracy, ExtendedMantissa.shiftRightOne]

theorem shiftRight_add (em : ExtendedMantissa) (m n : Nat) : em >>> (m + n) = em >>> m >>> n := by
  show (m + n).repeat ExtendedMantissa.shiftRightOne em =
    n.repeat ExtendedMantissa.shiftRightOne (m.repeat ExtendedMantissa.shiftRightOne em)
  induction n with
  | zero => rfl
  | succ n ih => rw [← Nat.add_assoc, Nat.repeat, ih, Nat.repeat]

section Normal

variable {m : Nat} {e : Int} (hm : 0 < m) (hlow : 2 ^ 52 ≤ m) (hhigh : m < 2 ^ 53)
  (he : -1074 ≤ e)
include hlow hhigh he

/-- A significand of 53 bits is left as it is by rounding, also with zeros behind it. -/
theorem roundWithAccuracy_exact (s : Sign) (n : Nat) :
    roundWithAccuracy .binary64 s (m * 2 ^ n) (e - n) .exact = .finite s m e hm := by
  have hlog := log2_eq_of_leading hlow hhigh
  have hlong : (m * 2 ^ n).log2 = 52 + n := by rw [log2_mul_two_pow (Nat.ne_of_gt hm), hlog]
  have hfirst : (max (totalExponent (m * 2 ^ n) (e - n) - 53) (-1074) - (e - n)).toNat = n := by
    unfold totalExponent
    omega
  have hsecond : (max (totalExponent m e - 53) (-1074) - e).toNat = 0 := by
    unfold totalExponent
    omega
  have hrounded : (ExtendedMantissa.ofMantissaAndAccuracy m .exact).roundedMantissa = m := rfl
  have hunshifted := shiftRight_exact m 0
  rw [Nat.pow_zero, Nat.mul_one] at hunshifted
  unfold roundWithAccuracy shiftToTargetExponent shiftToExponent
  simp only [targetExponent_eq, hfirst, shiftRight_exact, hrounded, Int.sub_add_cancel, hsecond,
    hunshifted, mantissa_ofMantissaAndAccuracy, dif_neg (Nat.ne_of_gt hm)]
  simp

theorem unpack_pack_normal (he' : e ≤ 971) (s : Sign) :
    (Float.Model.pack (.finite s m e hm)).unpack = .finite s m e hm := by
  show unpack .binary64 (pack .binary64 (.finite s m e hm)) = .finite s m e hm
  have hlog := log2_eq_of_leading hlow hhigh
  have hbiased : (e + Format.exponentBias .binary64 + (52 : Nat)).toNat = (e + 1075).toNat := by
    rw [show (Format.exponentBias .binary64 : Int) = 1023 from rfl, Int.add_assoc]
    rfl
  have hnat : (BitVec.ofNat 11 (e + 1075).toNat).toNat = (e + 1075).toNat := by
    rw [BitVec.toNat_ofNat, Nat.mod_eq_of_lt (by omega)]
  have hzero : BitVec.ofNat 11 (e + 1075).toNat ≠ 0#11 := by
    intro heq
    have := congrArg BitVec.toNat heq
    rw [hnat, show (0#11).toNat = 0 from rfl] at this
    omega
  have hones : BitVec.ofNat 11 (e + 1075).toNat ≠ -1#11 := by
    intro heq
    have := congrArg BitVec.toNat heq
    rw [hnat, show (-1#11).toNat = 2047 from rfl] at this
    omega
  obtain ⟨h', heq⟩ := unpack_normal s _ (BitVec.ofNat 52 m) hzero hones
  unfold pack
  simp only [hbiased]
  rw [if_neg (show ¬ 2 ^ 11 ≤ (e + 1075).toNat + 1 by omega), if_pos (by rw [hlog]; rfl)]
  refine heq.trans ?_
  have hmantissa : 2 ^ 52 + (BitVec.ofNat 52 m).toNat = m := by
    rw [BitVec.toNat_ofNat]
    omega
  have hexponent : ((BitVec.ofNat 11 (e + 1075).toNat).toNat : Int) - 1075 = e := by
    omega
  simp only [hmantissa, hexponent]

end Normal

/-- A float is the whole number `n`, with `shift` zeros behind its digits. -/
structure Spells (n shift : Nat) (x : Float) : Prop where
  small : shift ≤ 52
  low : 2 ^ 52 ≤ n * 2 ^ shift
  high : n * 2 ^ shift < 2 ^ 53
  unpack : ∃ h, x.toModel.unpack = .finite .positive (n * 2 ^ shift) (-shift) h

theorem spells_toFloat {n : Nat} (hpos : 0 < n) (h : n < 2 ^ 53) :
    Spells n (52 - n.log2) n.toUInt64.toFloat := by
  have hlog : n.log2 ≤ 52 := log2_le_of_lt h
  have hlow : 2 ^ 52 ≤ n * 2 ^ (52 - n.log2) := by
    calc 2 ^ 52 = 2 ^ (n.log2 + (52 - n.log2)) := by rw [Nat.add_sub_cancel' hlog]
      _ = 2 ^ n.log2 * 2 ^ (52 - n.log2) := Nat.pow_add _ _ _
      _ ≤ n * 2 ^ (52 - n.log2) := Nat.mul_le_mul_right _ (Nat.log2_self_le (Nat.ne_of_gt hpos))
  have hhigh : n * 2 ^ (52 - n.log2) < 2 ^ 53 := by
    calc n * 2 ^ (52 - n.log2)
        < 2 ^ (n.log2 + 1) * 2 ^ (52 - n.log2) :=
          Nat.mul_lt_mul_of_pos_right Nat.lt_log2_self (Nat.two_pow_pos _)
      _ = 2 ^ (n.log2 + 1 + (52 - n.log2)) := (Nat.pow_add _ _ _).symm
      _ = 2 ^ 53 := by congr 1; omega
  have hm : 0 < n * 2 ^ (52 - n.log2) := Nat.lt_of_lt_of_le (by decide) hlow
  refine ⟨Nat.sub_le _ _, hlow, hhigh, hm, ?_⟩
  have hexact := roundWithAccuracy_exact hm hlow hhigh
    (show -1074 ≤ -((52 - n.log2 : Nat) : Int) by omega) .positive 0
  have hnat : n.toUInt64.toNat = n := by
    rw [Nat.toUInt64_eq, UInt64.toNat_ofNat', Nat.mod_eq_of_lt (Nat.lt_trans h (by decide))]
  have hnormalize : UnpackedFloat.ofUInt64 .binary64 n.toUInt64 =
      .finite .positive (n * 2 ^ (52 - n.log2)) (-((52 - n.log2 : Nat) : Int)) hm := by
    have hshift : (0 - max (totalExponent n 0 - 53) (-1074)).toNat = 52 - n.log2 := by
      unfold totalExponent
      omega
    show UnpackedFloat.normalize .binary64 (n.toUInt64.toNat : Int) 0 .positive = _
    unfold UnpackedFloat.normalize UnpackedFloat.round decreaseExponent
    rw [hnat, Int.compare_eq_gt.mpr (Int.natCast_pos.mpr hpos)]
    simp only [Int.toNat_natCast, targetExponent_eq, hshift, Nat.shiftLeft_eq]
    rw [Nat.pow_zero, Nat.mul_one, Int.natCast_zero, Int.sub_zero] at hexact
    rwa [Int.zero_sub]
  show (Float.Model.pack (UnpackedFloat.ofUInt64 .binary64 n.toUInt64)).unpack = _
  rw [hnormalize]
  exact unpack_pack_normal hm hlow hhigh (by omega) (by omega) .positive

/-- A whole number times one. -/
theorem Spells.mul_one {n shift : Nat} {x y : Float} (hx : Spells n shift x)
    (hy : ∃ h, y.toModel.unpack = .finite .positive (2 ^ 52) (-52) h) : Spells n shift (x * y) := by
  obtain ⟨hsmall, hlow, hhigh, hm, hunpack⟩ := hx
  obtain ⟨h1, hy⟩ := hy
  refine ⟨hsmall, hlow, hhigh, hm, ?_⟩
  show (Float.Model.pack (UnpackedFloat.mul .binary64 x.toModel.unpack y.toModel.unpack)).unpack = _
  rw [hunpack, hy]
  show (Float.Model.pack (roundWithAccuracy .binary64 .positive (n * 2 ^ shift * 2 ^ 52)
    (-shift - (52 : Nat)) .exact)).unpack = _
  rw [roundWithAccuracy_exact hm hlow hhigh (by omega)]
  exact unpack_pack_normal hm hlow hhigh (by omega) (by omega) .positive

theorem spells_ofNat {n : Nat} (hpos : 0 < n) (h : n < 2 ^ 53) :
    Spells n (52 - n.log2) (Float.ofNat n) := by
  show Spells n (52 - n.log2) (Float.ofScientific n false 0)
  unfold Float.ofScientific
  rw [dif_pos ⟨h, Nat.zero_le _⟩]
  have hone : Float.exactlyRepresentablePowersOfTen[0] = Float.ofBits 0x3FF0000000000000 := rfl
  dsimp only
  rw [hone]
  exact (spells_toFloat hpos h).mul_one ⟨by decide, by rfl⟩

/-! ### Fractions -/

/-- Rounding does not carry what is below one past one. -/
theorem roundWithAccuracy_below_one {m : Nat} {e : Int} (h : totalExponent m e ≤ 0)
    (he : e ≤ -53) (s : Sign) (accuracy : Accuracy) :
    Below 0 (roundWithAccuracy .binary64 s m e accuracy) ∨
      ∃ h, roundWithAccuracy .binary64 s m e accuracy = .finite s (2 ^ 52) (-52) h := by
  obtain ⟨n, r, carry, hn, hround, hcarry, heq | ⟨hpos, heq⟩⟩ :=
    roundWithAccuracy_cases s m e accuracy
  · rw [heq]
    exact Or.inl (.zero s)
  obtain ⟨p, hp⟩ : ∃ p : Nat, (p : Int) = -(e + n) := by
    unfold totalExponent at h hn
    exact ⟨(-(e + n)).toNat, by omega⟩
  have hle : r ≤ 2 ^ p := by
    have hlt : m < 2 ^ n * 2 ^ p := by
      rw [← Nat.pow_add]
      refine Nat.lt_of_lt_of_le Nat.lt_log2_self (Nat.pow_le_pow_right (by decide) ?_)
      unfold totalExponent at h
      omega
    exact Nat.le_trans hround (Nat.div_lt_of_lt_mul hlt)
  rw [heq]
  rcases Nat.lt_or_eq_of_le hle with hlt | rfl
  · have hdropped := log2_div_le (Nat.ne_of_gt hpos)
    have hr : r ≠ 0 := by
      rintro rfl
      simp at hpos
    have hlog : r.log2 < p := (Nat.log2_lt hr).mpr hlt
    refine Or.inl (.finite hpos ?_)
    unfold totalExponent
    omega
  · have hlog : (2 ^ p).log2 = p := Nat.log2_two_pow
    have hcarry : carry = p - 52 ∧ 52 ≤ p := by
      unfold totalExponent at h hn hcarry
      omega
    have hexponent : e + n + carry = -52 := by omega
    have hmantissa : 2 ^ p / 2 ^ carry = 2 ^ 52 := by
      rw [hcarry.1, Nat.pow_div (Nat.sub_le _ _) (by decide), Nat.sub_sub_self hcarry.2]
    refine Or.inr ⟨by decide, ?_⟩
    simp only [hmantissa, hexponent]

theorem inUnit_of_below {x : Float} (hsign : NotNegative x.toModel.unpack) (h : Within 0 x) :
    InUnit x := by
  rw [inUnit_iff]
  cases hx : x.toModel.unpack with
  | notANumber =>
      rw [Within, hx] at h
      cases h
  | infinity s =>
      rw [Within, hx] at h
      cases h
  | zero s => exact Or.inl ⟨s, rfl⟩
  | finite s m e hm =>
      rw [hx] at hsign
      cases s with
      | negative => exact absurd hsign id
      | positive =>
          have hcanonical := (parts_finite hx).2
          rw [Within, hx] at h
          cases h with | finite _ htotal =>
          refine Or.inr ⟨m, e, hm, rfl, Or.inl ?_⟩
          rcases hcanonical.leading with hleading | rfl
          · have hlog := log2_eq_of_leading hleading hcanonical.lt
            unfold totalExponent at htotal
            omega
          · decide

/-- A larger number leaves room for fewer zeros. -/
theorem shift_le {m n j k : Nat} (h : m ≤ n) (hlow : 2 ^ 52 ≤ m * 2 ^ j)
    (hhigh : n * 2 ^ k < 2 ^ 53) : k ≤ j := by
  refine Nat.le_of_not_lt fun hlt => Nat.not_le_of_lt hhigh ?_
  calc 2 ^ 53 = 2 ^ 52 * 2 := Nat.pow_succ _ _
    _ ≤ m * 2 ^ j * 2 := Nat.mul_le_mul_right 2 hlow
    _ = m * 2 ^ (j + 1) := by rw [Nat.pow_succ, Nat.mul_assoc]
    _ ≤ n * 2 ^ k := Nat.mul_le_mul h (Nat.pow_le_pow_right (by decide) hlt)

/-- A fraction of whole numbers that is at most one lies in the unit interval. -/
theorem Spells.inUnit_div {m n j k : Nat} {x y : Float} (hx : Spells m j x) (hy : Spells n k y)
    (h : m ≤ n) : InUnit (x / y) := by
  obtain ⟨hj, hlow, hhigh, hm, hx⟩ := hx
  obtain ⟨hk, hlow', hhigh', hn, hy⟩ := hy
  have hlog := log2_eq_of_leading hlow hhigh
  have hlog' := log2_eq_of_leading hlow' hhigh'
  have hjk := shift_le h hlow hhigh'
  have hexponent : min (-(j : Int) - -k) (max (totalExponent (m * 2 ^ j) (-j) -
      totalExponent (n * 2 ^ k) (-k) - 53) (-1074)) = (k : Int) - j - 53 := by
    unfold totalExponent
    omega
  have hshift : (-(j : Int) - -k - ((k : Int) - j - 53)).toNat = 53 := by omega
  have hdiv : UnpackedFloat.div .binary64 x.toModel.unpack y.toModel.unpack =
      roundWithAccuracy .binary64 .positive (m * 2 ^ j * 2 ^ 53 / (n * 2 ^ k)) ((k : Int) - j - 53)
        (accuracyOfFraction (m * 2 ^ j * 2 ^ 53 % (n * 2 ^ k)) (n * 2 ^ k)) := by
    rw [hx, hy]
    unfold UnpackedFloat.div divCore
    simp only [targetExponent_eq, hexponent, hshift, Nat.shiftLeft_eq]
    rfl
  have hone : InUnit (.ofModel (.pack (.finite .positive (2 ^ 52) (-52) (by decide)))) :=
    inUnit_one
  show InUnit (.ofModel (.pack (UnpackedFloat.div .binary64 x.toModel.unpack y.toModel.unpack)))
  rw [hdiv]
  rcases Nat.lt_or_eq_of_le h with hlt | rfl
  · have hquotient : m * 2 ^ j * 2 ^ 53 / (n * 2 ^ k) < 2 ^ (j - k + 53) := by
      refine Nat.div_lt_of_lt_mul ?_
      calc m * 2 ^ j * 2 ^ 53 = m * 2 ^ (j + 53) := by rw [Nat.mul_assoc, ← Nat.pow_add]
        _ < n * 2 ^ (j + 53) := Nat.mul_lt_mul_of_pos_right hlt (Nat.two_pow_pos _)
        _ = n * 2 ^ (k + (j - k + 53)) := by congr 2; omega
        _ = n * 2 ^ k * 2 ^ (j - k + 53) := by rw [Nat.pow_add, Nat.mul_assoc]
    have htotal : totalExponent (m * 2 ^ j * 2 ^ 53 / (n * 2 ^ k)) ((k : Int) - j - 53) ≤ 0 := by
      have hlog := log2_le_of_lt (k := j - k + 52) hquotient
      unfold totalExponent
      omega
    rcases roundWithAccuracy_below_one htotal (by omega) .positive
      (accuracyOfFraction (m * 2 ^ j * 2 ^ 53 % (n * 2 ^ k)) (n * 2 ^ k)) with hbelow | ⟨h1, heq⟩
    · refine inUnit_of_below (notNegative_unpack_pack ?_)
        (below_unpack_pack hbelow (by decide) (by decide))
      exact notNegative_roundWithAccuracy _ _ _
    · rw [heq]
      exact hone
  · obtain rfl : j = k := Nat.le_antisymm (shift_le (Nat.le_refl m) hlow' hhigh) hjk
    rw [Nat.mul_div_cancel_left _ hm, Nat.mul_mod_right, Int.sub_self]
    have hround := roundWithAccuracy_exact (m := 2 ^ 52) (e := -52) (by decide) (by decide)
      (by decide) (by decide) .positive 1
    rw [show (2 : Nat) ^ 53 = 2 ^ 52 * 2 ^ 1 from rfl,
      show (0 - 53 : Int) = -52 - (1 : Nat) from rfl,
      show accuracyOfFraction 0 _ = .exact from rfl, hround]
    exact hone

theorem Spells.inUnit_ofNat_div {m n k : Nat} {y : Float} (hy : Spells n k y) (h : m ≤ n) :
    InUnit (Float.ofNat m / y) := by
  by_cases hzero : m = 0
  · obtain ⟨hpos, hunpack⟩ := hy.unpack
    have hquotient : UnpackedFloat.div .binary64 (Float.ofNat m).toModel.unpack y.toModel.unpack =
        .zero .positive := by
      rw [hunpack, hzero]
      rfl
    show InUnit (.ofModel (.pack (UnpackedFloat.div .binary64 _ _)))
    rw [hquotient]
    exact inUnit_zero
  · have hn : n ≤ n * 2 ^ k := Nat.le_mul_of_pos_right n (Nat.two_pow_pos k)
    have hlt : m < 2 ^ 53 := Nat.lt_of_le_of_lt (Nat.le_trans h hn) hy.high
    exact (spells_ofNat (Nat.pos_of_ne_zero hzero) hlt).inUnit_div hy h

theorem spells_hundred : Spells 100 46 (Float.ofBits 0x4059000000000000) :=
  ⟨by decide, by decide, by decide, by decide, by rfl⟩

theorem spells_thousand : Spells 1000 43 (Float.ofBits 0x408F400000000000) :=
  ⟨by decide, by decide, by decide, by decide, by rfl⟩

/-- A number of thousandths or of hundredths, read as a float, is a fraction. -/
theorem ofDecimal_eq_div {n places : Nat} (hpos : 0 < n) (h : n ≤ pow10 places)
    (hplaces : places = 2 ∨ places = 3) :
    ∃ k y, Spells (pow10 places) k y ∧ ofDecimal n (-places) = n.toUInt64.toFloat / y := by
  have hlength : (Nat.toDigits 10 n).length ≤ 4 := by
    refine (Nat.length_toDigits_le_iff (by decide) (by decide)).mpr ?_
    rcases hplaces with rfl | rfl
    · exact Nat.lt_of_le_of_lt h (by decide)
    · exact Nat.lt_of_le_of_lt h (by decide)
  have hn : n < 2 ^ 53 := by
    rcases hplaces with rfl | rfl
    · exact Nat.lt_of_le_of_lt h (by decide)
    · exact Nat.lt_of_le_of_lt h (by decide)
  have hscientific : ofDecimal n (-places) = Float.ofScientific n true places := by
    unfold ofDecimal
    dsimp only
    rw [if_neg (by simp only [Bool.or_eq_true, decide_eq_true_eq]; omega), if_neg (by omega),
      if_pos (by omega), Int.natAbs_neg, Int.natAbs_natCast]
  rw [hscientific]
  unfold Float.ofScientific
  rw [dif_pos ⟨hn, by omega⟩]
  rcases hplaces with rfl | rfl
  · exact ⟨46, _, spells_hundred, rfl⟩
  · exact ⟨43, _, spells_thousand, rfl⟩

/-- Thousandths or hundredths that are at most one lie in the unit interval. -/
theorem inUnit_ofDecimal {n places : Nat} (h : n ≤ pow10 places)
    (hplaces : places = 2 ∨ places = 3) : InUnit (ofDecimal n (-places)) := by
  by_cases hzero : n = 0
  · subst hzero
    exact inUnit_zero
  · have hpos := Nat.pos_of_ne_zero hzero
    obtain ⟨k, y, hy, heq⟩ := ofDecimal_eq_div hpos h hplaces
    rw [heq]
    have hlt : n < 2 ^ 53 :=
      Nat.lt_of_le_of_lt (Nat.le_trans h (Nat.le_mul_of_pos_right _ (Nat.two_pow_pos k))) hy.high
    exact (spells_toFloat hpos hlt).inUnit_div hy h

/-! ### Decimals that are not below zero -/

theorem notNegative_ofUInt64 (n : UInt64) : NotNegative (UnpackedFloat.ofUInt64 .binary64 n) :=
  notNegative_normalize (Int.natCast_nonneg n.toNat) 0

theorem notNegative_div {f : UnpackedFloat} (h : NotNegative f) {m : Nat} {e : Int} (hm : 0 < m) :
    NotNegative (UnpackedFloat.div .binary64 f (.finite .positive m e hm)) := by
  cases f with
  | notANumber => trivial
  | infinity s =>
      cases s with
      | negative => exact absurd h id
      | positive => trivial
  | zero s => trivial
  | finite s m' e' hm' =>
      cases s with
      | negative => exact absurd h id
      | positive => exact notNegative_roundWithAccuracy _ _ _

theorem notNegative_ofScientific (n : Nat) (e : Int) :
    NotNegative (UnpackedFloat.ofScientific .binary64 n e) := by
  unfold UnpackedFloat.ofScientific
  split
  · trivial
  split
  · trivial
  split
  · trivial
  split
  · exact notNegative_roundWithAccuracy _ _ _
  · exact notNegative_roundWithAccuracy _ _ _

/-- A number of thousandths, read as a float, is not below zero. -/
theorem not_lt_zero_ofDecimal (n : Nat) : ¬ ofDecimal n (-(3 : Nat)) < 0.0 := by
  unfold ofDecimal
  dsimp only
  split
  · exact inUnit_zero.not_lt_zero
  split
  · exact not_lt_zero_iff.mpr trivial
  rw [if_pos (by decide), not_lt_zero_iff]
  unfold Float.ofScientific
  split
  · obtain ⟨hm, hthousand⟩ := spells_thousand.unpack
    have hpower : (Float.exactlyRepresentablePowersOfTen[3]).toModel.unpack =
        .finite .positive (1000 * 2 ^ 43) (-(43 : Nat)) hm := hthousand
    refine notNegative_unpack_pack ?_
    show NotNegative (UnpackedFloat.div .binary64 (n.toUInt64.toFloat).toModel.unpack
      (Float.exactlyRepresentablePowersOfTen[3]).toModel.unpack)
    rw [hpower]
    exact notNegative_div (notNegative_unpack_pack (notNegative_ofUInt64 _)) hm
  · exact notNegative_unpack_pack (notNegative_ofScientific _ _)

theorem InUnit.within {x : Float} (h : InUnit x) : Within 1 x := by
  unfold Within
  rcases inUnit_iff.mp h with ⟨s, hx⟩ | ⟨m, e, hm, hx, hsmall⟩
  · rw [hx]
    exact .zero s
  · rw [hx]
    refine .finite hm ?_
    have hlog : m.log2 ≤ 52 := log2_le_of_lt (parts_finite hx).2.lt
    unfold totalExponent
    omega

end Screenwright.Number
