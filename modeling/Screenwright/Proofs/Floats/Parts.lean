/-
The size of a float, and the float of given parts.

A finite float is a sign and a size, and the size is a significand times a power of two.  Parts that
have at most 53 digits and an exponent within reach are those of a float, though it may show them
with other digits: the leading one is moved to the front as far as the exponent allows.
-/
import Screenwright.Proofs.Floats.Differences

namespace Screenwright.Number

open Float.Model (UnpackedFloat Format totalExponent)
open Float.Model.UnpackedFloat

theorem cast_pow2 (n : Nat) : ((pow2 n : Nat) : ℚ) = 2 ^ (n : ℤ) := by
  rw [pow2, Nat.pow_eq, Nat.cast_pow, Nat.cast_two, zpow_natCast]

/-! ### Sizes -/

/-- The size of a finite float. -/
def size (x : Float) : ℚ :=
  (parts x).significand * 2 ^ (parts x).exponent

section Size

variable {x y : Float} {s : Sign} {a : ℚ}

theorem size_nonneg (x : Float) : 0 ≤ size x := by
  unfold size
  positivity

theorem size_zero (h : x.toModel.unpack = .zero s) : size x = 0 := by
  rw [size, parts_zero h, Nat.cast_zero, zero_mul]

theorem size_finite {m : Nat} {e : Int} {hm : 0 < m} (h : x.toModel.unpack = .finite s m e hm) :
    size x = m * 2 ^ e ∧ 0 < size x := by
  have hsize : size x = m * 2 ^ e := by rw [size, (parts_finite h).1]
  refine ⟨hsize, ?_⟩
  rw [hsize]
  positivity

/-- The size in units of a power of two that the exponent is not below. -/
theorem size_eq_units {low : ℤ} (h : low ≤ (parts x).exponent) : size x =
    ((parts x).significand * pow2 ((parts x).exponent - low).toNat : Nat) * 2 ^ low := by
  obtain ⟨n, hn⟩ := Int.eq_ofNat_of_zero_le (Int.sub_nonneg_of_le h)
  rw [hn, Int.toNat_natCast, size, show (parts x).exponent = n + low by omega,
    zpow_add₀ two_ne_zero, Nat.cast_mul, cast_pow2, mul_assoc]

/-- A finite float is its size with its sign. -/
theorem amount_eq_size (h : x.isFinite = true) :
    amount? x = some (if (parts x).negative then -size x else size x) := by
  unfold amount?
  rcases unpack_of_isFinite h with ⟨s, hx⟩ | ⟨s, m, e, hm, hx⟩
  · rw [hx, size_zero hx, neg_zero, ite_self]
    rfl
  · rw [hx, (size_finite hx).1, (parts_finite hx).1]
    cases s <;> simp [amountOf, Sign.apply]

theorem isFinite_of_amount (h : amount? x = some a) : x.isFinite = true := by
  unfold amount? at h
  cases hx : x.toModel.unpack with
  | notANumber => rw [hx] at h; cases h
  | infinity s => rw [hx] at h; cases h
  | zero s => exact isFinite_of_zero hx
  | finite s m e hm => exact isFinite_of_finite hx

theorem abs_amount (h : amount? x = some a) : |a| = size x := by
  rw [amount_eq_size (isFinite_of_amount h)] at h
  cases h
  split
  · rw [abs_neg, abs_of_nonneg (size_nonneg x)]
  · rw [abs_of_nonneg (size_nonneg x)]

/-- A finite float is below zero if it has a minus sign and is no zero. -/
theorem lt_zero_iff (h : x.isFinite = true) :
    x < 0.0 ↔ (parts x).negative = true ∧ 0 < size x := by
  rw [← not_iff_not, not_lt_zero_iff]
  rcases unpack_of_isFinite h with ⟨s, hx⟩ | ⟨s, m, e, hm, hx⟩
  · simp [hx, NotNegative, size_zero hx]
  · have hpos := (size_finite hx).2
    rw [hx, (parts_finite hx).1]
    cases s <;> simp [NotNegative, hpos]

/-- A finite float of less than `2^k` is within that bound. -/
theorem within_of_size {k : ℤ} (hfinite : x.isFinite = true) (h : size x < 2 ^ k) :
    Within k x := by
  unfold Within
  rcases unpack_of_isFinite hfinite with ⟨s, hx⟩ | ⟨s, m, e, hm, hx⟩
  · rw [hx]
    exact .zero s
  · rw [hx]
    refine .finite hm ?_
    have hle : (2 : ℚ) ^ ((m.log2 : ℤ) + e) ≤ m * 2 ^ e := by
      rw [zpow_add₀ two_ne_zero, zpow_natCast]
      have hlog : (2 : ℚ) ^ m.log2 ≤ m := by exact_mod_cast Nat.log2_self_le hm.ne'
      gcongr
    rw [(size_finite hx).1] at h
    have hlt := (zpow_lt_zpow_iff_right₀ one_lt_two).mp (hle.trans_lt h)
    unfold totalExponent
    omega

end Size

/-! ### Floats of given parts -/

/-- The sign that a minus sign stands for. -/
def signOf (negative : Bool) : Sign :=
  if negative then .negative else .positive

/-- The bits of a float from its fields. -/
theorem toBitVec_fields (negative : Bool) {b f : Nat} (hb : b < 2 ^ 11) (hf : f < 2 ^ 52) :
    (UInt64.ofNat ((if negative then pow2 63 else 0) + (b * pow2 52 + f))).toBitVec =
      packComponents .binary64 (signOf negative) (BitVec.ofNat 11 b) (BitVec.ofNat 52 f) := by
  have h52 : pow2 52 = 2 ^ 52 := rfl
  have h63 : pow2 63 = 2 ^ 63 := rfl
  have hfields : (packComponents .binary64 (signOf negative) (BitVec.ofNat 11 b)
      (BitVec.ofNat 52 f)).toNat =
        ((signOf negative).toBitVec.toNat * 2 ^ 11 + b) * 2 ^ 52 + f := by
    show ((signOf negative).toBitVec ++ BitVec.ofNat 11 b ++ BitVec.ofNat 52 f).toNat = _
    rw [BitVec.toNat_append, BitVec.toNat_append, ← Nat.shiftLeft_add_eq_or_of_lt (BitVec.isLt _),
      ← Nat.shiftLeft_add_eq_or_of_lt (BitVec.isLt _), BitVec.toNat_ofNat, BitVec.toNat_ofNat,
      Nat.mod_eq_of_lt hb, Nat.mod_eq_of_lt hf, Nat.shiftLeft_eq, Nat.shiftLeft_eq]
  refine BitVec.eq_of_toNat_eq (Eq.trans ?_ hfields.symm)
  rw [UInt64.toNat_toBitVec, UInt64.toNat_ofNat', h52, h63]
  cases negative
  · show (0 + (b * 2 ^ 52 + f)) % 2 ^ 64 = (0 * 2 ^ 11 + b) * 2 ^ 52 + f
    omega
  · show (2 ^ 63 + (b * 2 ^ 52 + f)) % 2 ^ 64 = (1 * 2 ^ 11 + b) * 2 ^ 52 + f
    omega

theorem unpack_ofBits (bits : UInt64) : (Float.ofBits bits).toModel.unpack =
    (Float.Model.pack (unpack .binary64 bits.toBitVec)).unpack := by
  rfl

/-- Digits with a leading one are those of a float, whose fields have the others. -/
theorem unpack_leading (negative : Bool) {m : Nat} {e : ℤ} (hfirst : 2 ^ 52 ≤ m)
    (hlast : m < 2 ^ 53) (hlow : -1074 ≤ e) (hhigh : e ≤ 971) :
    (Float.ofBits (UInt64.ofNat ((if negative then pow2 63 else 0) +
      ((e + 1075).toNat * pow2 52 + (m - pow2 52))))).toModel.unpack =
        .finite (signOf negative) m e (by omega) := by
  have h52 : pow2 52 = 2 ^ 52 := rfl
  have hbits := toBitVec_fields negative (b := (e + 1075).toNat) (f := m - pow2 52) (by omega)
    (by omega)
  have hexponent : (BitVec.ofNat 11 (e + 1075).toNat).toNat = (e + 1075).toNat := by
    rw [BitVec.toNat_ofNat, Nat.mod_eq_of_lt (by omega)]
  have hmantissa : (BitVec.ofNat 52 (m - pow2 52)).toNat = m - 2 ^ 52 := by
    rw [BitVec.toNat_ofNat, Nat.mod_eq_of_lt (by omega), h52]
  obtain ⟨hm, hunpack⟩ := unpack_normal (signOf negative) (BitVec.ofNat 11 (e + 1075).toNat)
    (BitVec.ofNat 52 (m - pow2 52))
    (fun heq => by
      have := congrArg BitVec.toNat heq
      rw [hexponent, show (0#11).toNat = 0 from rfl] at this
      omega)
    (fun heq => by
      have := congrArg BitVec.toNat heq
      rw [hexponent, show (-1#11).toNat = 2047 from rfl] at this
      omega)
  have hdigits : 2 ^ 52 + (m - 2 ^ 52) = m := Nat.add_sub_cancel' hfirst
  have hplace : ((e + 1075).toNat : Int) - 1075 = e := by omega
  simp only [hexponent, hmantissa, hdigits, hplace] at hunpack
  rw [unpack_ofBits, hbits, hunpack]
  exact unpack_pack_normal _ hfirst hlast hlow hhigh _

/-- Digits without a leading one are those of a float at the least exponent. -/
theorem unpack_trailing (negative : Bool) {m : Nat} (hm : 0 < m) (hlt : m < 2 ^ 52) :
    (Float.ofBits (UInt64.ofNat ((if negative then pow2 63 else 0) + m))).toModel.unpack =
      .finite (signOf negative) m (-1074) hm := by
  have hmantissa : (BitVec.ofNat 52 m).toNat = m := by
    rw [BitVec.toNat_ofNat, Nat.mod_eq_of_lt hlt]
  have hbits := toBitVec_fields negative (b := 0) (by decide) hlt
  rw [Nat.zero_mul, Nat.zero_add] at hbits
  rw [unpack_ofBits, hbits]
  rcases unpack_subnormal (signOf negative) (BitVec.ofNat 52 m) with ⟨hzero, -⟩ | ⟨hpos, hunpack⟩
  · rw [hzero] at hmantissa
    exact absurd hmantissa (Nat.ne_of_lt hm)
  · simp only [hmantissa] at hunpack
    exact (congrArg (fun f => (Float.Model.pack f).unpack) hunpack).trans
      (unpack_pack_subnormal hm hlt _)

section OfParts

variable {p : Parts}

theorem ofParts_zero (h : p.significand = 0) :
    (ofParts p).toModel.unpack = .zero (signOf p.negative) := by
  have hbits := toBitVec_fields p.negative (b := 0) (f := 0) (by decide) (by decide)
  rw [Nat.zero_mul] at hbits
  unfold ofParts magnitudeBits
  dsimp only
  rw [if_pos h, unpack_ofBits, hbits]
  rcases unpack_subnormal (signOf p.negative) (BitVec.ofNat 52 0) with ⟨-, hzero⟩ | ⟨hpos, -⟩
  · show (Float.Model.pack (unpack .binary64 (packComponents .binary64 (signOf p.negative) 0#11
      (BitVec.ofNat 52 0)))).unpack = _
    rw [hzero, unpack_pack_zero]
  · exact absurd hpos (by decide)

/-- Parts within reach of the floats are those of a float of the same size. -/
theorem exists_ofParts (hpos : 0 < p.significand) (hlt : p.significand < 2 ^ 53)
    (hlow : -1074 ≤ p.exponent) (hhigh : p.exponent ≤ 971) :
    ∃ m e hm, (ofParts p).toModel.unpack = .finite (signOf p.negative) m e hm ∧
      (m * 2 ^ e : ℚ) = p.significand * 2 ^ p.exponent := by
  obtain ⟨negative, n, e⟩ := p
  dsimp only at *
  obtain ⟨shift, hshift⟩ : ∃ shift, shift = 52 - n.log2 := ⟨_, rfl⟩
  have hlog : n.log2 ≤ 52 := log2_le_of_lt hlt
  obtain ⟨hfirst, hlast⟩ : 2 ^ 52 ≤ n * 2 ^ shift ∧ n * 2 ^ shift < 2 ^ 53 := by
    have hlong : (n * 2 ^ shift).log2 = 52 := by rw [log2_mul_two_pow hpos.ne']; omega
    exact (Nat.log2_eq_iff (by positivity)).mp hlong
  have hpow : pow2 shift = 2 ^ shift := rfl
  unfold ofParts magnitudeBits
  dsimp only
  rw [if_neg hpos.ne', ← hshift, hpow]
  by_cases hnormal : 1 ≤ e - shift + 1075
  · rw [if_pos hnormal]
    refine ⟨n * 2 ^ shift, e - shift, by omega,
      unpack_leading negative hfirst hlast (by omega) (by omega), ?_⟩
    rw [zpow_sub₀ two_ne_zero, zpow_natCast]
    push_cast
    field_simp
  · -- the leading one stays behind, and only zeros are left off
    obtain ⟨d, hd⟩ : ∃ d, (1 - (e - shift + 1075)).toNat = d := ⟨_, rfl⟩
    obtain ⟨t, ht⟩ : ∃ t, shift = t + d := ⟨shift - d, by omega⟩
    have hdigits : n * 2 ^ shift = n * 2 ^ t * 2 ^ d := by
      rw [ht, Nat.pow_add, Nat.mul_assoc]
    have hquotient : n * 2 ^ shift / pow2 d = n * 2 ^ t := by
      rw [hdigits]
      exact Nat.mul_div_cancel _ (Nat.two_pow_pos d)
    have hsmall : n * 2 ^ t < 2 ^ 52 := by
      have htwo : 2 ^ 1 ≤ 2 ^ d := Nat.pow_le_pow_right (by decide) (by omega)
      have hle := Nat.mul_le_mul_left (n * 2 ^ t) htwo
      omega
    have hexponent : e = t + -1074 := by omega
    rw [if_neg hnormal, hd, hquotient]
    refine ⟨n * 2 ^ t, -1074, Nat.mul_pos hpos (Nat.two_pow_pos t),
      unpack_trailing negative _ hsmall, ?_⟩
    rw [hexponent, zpow_add₀ two_ne_zero, zpow_natCast, ← mul_assoc, Nat.cast_mul, Nat.cast_pow,
      Nat.cast_two]

/-- **The float of given parts has their sign and their size**, if they are within reach. -/
theorem ofParts_spec (hlt : p.significand < 2 ^ 53) (hlow : -1074 ≤ p.exponent)
    (hhigh : p.exponent ≤ 971) : (ofParts p).isFinite = true ∧
      (parts (ofParts p)).negative = p.negative ∧
      size (ofParts p) = p.significand * 2 ^ p.exponent := by
  have hsign : (signOf p.negative == Sign.negative) = p.negative := by
    cases p.negative <;> rfl
  rcases Nat.eq_zero_or_pos p.significand with hzero | hpos
  · have hunpack := ofParts_zero hzero
    refine ⟨isFinite_of_zero hunpack, ?_, ?_⟩
    · rw [parts_zero hunpack, hsign]
    · rw [size_zero hunpack, hzero, Nat.cast_zero, zero_mul]
  · obtain ⟨m, e, hm, hunpack, hvalue⟩ := exists_ofParts hpos hlt hlow hhigh
    refine ⟨isFinite_of_finite hunpack, ?_, ?_⟩
    · rw [(parts_finite hunpack).1, hsign]
    · rw [(size_finite hunpack).1, hvalue]

end OfParts

end Screenwright.Number
