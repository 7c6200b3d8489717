/-
What is left of a value that has become a float.

The operations on floats compute with unpacked values and pack the result into bits.  Packing can
change a value: one that is too large becomes infinite, and one that is too small loses digits or
vanishes.  It never changes the sign, and it makes no number out of what is none.
-/
import Mathlib
import Screenwright.Number.Measure

namespace Screenwright.Number

open Float.Model (UnpackedFloat Format totalExponent)
open Float.Model.UnpackedFloat

section Components

variable (s : Sign) (e : BitVec 11) (m : BitVec 52)

theorem unpackSign_packComponents :
    Sign.ofBitVec (unpackSign (packComponents .binary64 s e m)) = s := by
  have hsign : unpackSign (packComponents .binary64 s e m) = s.toBitVec := by
    ext i hi
    obtain rfl : i = 0 := by omega
    have hlast : ∀ b : BitVec 1, (b ++ e ++ m).getLsbD 63 = b[0] := by
      intro b
      rw [BitVec.getLsbD_append, BitVec.getLsbD_append]
      simp
    simp only [unpackSign, packComponents, BitVec.cast_eq, BitVec.getElem_extract]
    exact hlast s.toBitVec
  rw [hsign]
  cases s <;> rfl

/-- The smallest exponent stands for a value without a leading one. -/
theorem unpack_subnormal :
    m = 0#52 ∧ unpack .binary64 (packComponents .binary64 s 0#11 m) = .zero s ∨
    ∃ h, unpack .binary64 (packComponents .binary64 s 0#11 m) = .finite s m.toNat (-1074) h := by
  unfold unpack
  simp only [unpackMantissa_packComponents, unpackExponent_packComponents,
    unpackSign_packComponents]
  rw [if_neg (by decide), if_pos trivial]
  split
  next hm => exact Or.inl ⟨hm, rfl⟩
  next hm =>
    refine Or.inr ⟨?_, rfl⟩
    exact Nat.pos_of_ne_zero fun hnat => hm (BitVec.eq_of_toNat_eq hnat)

theorem toNat_leadingOne : (1#1 ++ m).toNat = 2 ^ 52 + m.toNat := by
  rw [BitVec.toNat_append, ← Nat.shiftLeft_add_eq_or_of_lt m.isLt]
  rfl

/-- Every other exponent of a number stands for a value with a leading one. -/
theorem unpack_normal (hzero : e ≠ 0#11) (hones : e ≠ -1#11) :
    ∃ h, unpack .binary64 (packComponents .binary64 s e m) =
      .finite s (2 ^ 52 + m.toNat) ((e.toNat : Int) - 1075) h := by
  unfold unpack
  simp only [unpackMantissa_packComponents, unpackExponent_packComponents,
    unpackSign_packComponents]
  rw [if_neg hones, if_neg hzero]
  simp only [toNat_leadingOne]
  exact ⟨by omega, rfl⟩

end Components

/-- Packing leaves a number that is not too large a number, of the same sign and of no greater
size, down to the smallest normal one. -/
theorem unpack_pack_finite (s : Sign) (m : Nat) (e : Int) (h : 0 < m) :
    ((Float.Model.pack (.finite s m e h)).unpack = .infinity s ∧ 972 ≤ e) ∨
      (Float.Model.pack (.finite s m e h)).unpack = .zero s ∨
      ∃ m' e' h', (Float.Model.pack (.finite s m e h)).unpack = .finite s m' e' h' ∧
        totalExponent m' e' ≤ max (totalExponent m e) (-1022) := by
  show (unpack .binary64 (pack .binary64 (.finite s m e h)) = .infinity s ∧ 972 ≤ e) ∨
      unpack .binary64 (pack .binary64 (.finite s m e h)) = .zero s ∨
      ∃ m' e' h', unpack .binary64 (pack .binary64 (.finite s m e h)) = .finite s m' e' h' ∧
        totalExponent m' e' ≤ max (totalExponent m e) (-1022)
  have hbiased : (e + Format.exponentBias .binary64 + (52 : Nat)).toNat = (e + 1075).toNat := by
    rw [show (Format.exponentBias .binary64 : Int) = 1023 from rfl, Int.add_assoc]
    rfl
  have hsmall : ∀ m : BitVec 52,
      unpack .binary64 (packComponents .binary64 s 0#11 m) = .zero s ∨
      ∃ m' e' h', unpack .binary64 (packComponents .binary64 s 0#11 m) = .finite s m' e' h' ∧
        totalExponent m' e' ≤ -1022 := by
    intro m
    refine (unpack_subnormal s m).imp And.right fun ⟨hm, heq⟩ => ⟨_, _, hm, heq, ?_⟩
    have hlog : m.toNat.log2 < 52 := (Nat.log2_lt (Nat.ne_of_gt hm)).mpr m.isLt
    unfold totalExponent
    omega
  unfold pack
  simp only [hbiased]
  split
  next hlarge =>
    refine Or.inl ⟨?_, by omega⟩
    cases s <;> rfl
  next hlarge =>
  refine Or.inr ?_
  split
  next hnormal =>
    have hlog : m.log2 = 52 := by
      rw [show Format.mantissaBits .binary64 = 53 from rfl] at hnormal
      omega
    by_cases hzero : BitVec.ofNat 11 (e + 1075).toNat = 0#11
    · rw [hzero]
      refine (hsmall _).imp_right fun ⟨m', e', h', heq, hle⟩ => ⟨m', e', h', heq, by omega⟩
    have hnat : (BitVec.ofNat 11 (e + 1075).toNat).toNat = (e + 1075).toNat := by
      rw [BitVec.toNat_ofNat, Nat.mod_eq_of_lt (by omega)]
    have hones : BitVec.ofNat 11 (e + 1075).toNat ≠ -1#11 := by
      intro heq
      have hall := congrArg BitVec.toNat heq
      rw [hnat, show (-1#11).toNat = 2047 from rfl] at hall
      omega
    obtain ⟨h', heq⟩ := unpack_normal s _ (BitVec.ofNat 52 m) hzero hones
    refine Or.inr ⟨_, _, h', heq, ?_⟩
    have hpos : (e + 1075).toNat ≠ 0 := fun hpos => hzero (by rw [hpos])
    have hlog' : (2 ^ 52 + (BitVec.ofNat 52 m).toNat).log2 < 53 := by
      have hlt := (BitVec.ofNat 52 m).isLt
      exact (Nat.log2_lt (by omega)).mpr (by omega)
    unfold totalExponent
    omega
  next hnormal =>
    exact (hsmall _).imp_right fun ⟨m', e', h', heq, hle⟩ => ⟨m', e', h', heq, by omega⟩

theorem unpack_pack_zero (s : Sign) :
    (Float.Model.pack (.zero s)).unpack = .zero s := by
  cases s <;> rfl

theorem unpack_pack_infinity (s : Sign) :
    (Float.Model.pack (.infinity s)).unpack = .infinity s := by
  cases s <;> rfl

theorem unpack_pack_notANumber : (Float.Model.pack .notANumber).unpack = .notANumber := by
  rfl

/-! ### Signs -/

/-- A value that is not less than zero: not a number, a zero, or above zero. -/
def NotNegative : UnpackedFloat → Prop
  | .finite .negative _ _ _ | .infinity .negative => False
  | _ => True

theorem notNegative_roundWithAccuracy (m : Nat) (e : Int) (accuracy : Accuracy) :
    NotNegative (roundWithAccuracy .binary64 .positive m e accuracy) := by
  unfold roundWithAccuracy
  dsimp only
  split <;> trivial

theorem notNegative_normalize {m : Int} (h : 0 ≤ m) (e : Int) :
    NotNegative (UnpackedFloat.normalize .binary64 m e .positive) := by
  unfold UnpackedFloat.normalize
  split
  next hcompare => exact absurd (Int.compare_eq_lt.mp hcompare) (Int.not_lt.mpr h)
  · trivial
  · exact notNegative_roundWithAccuracy _ _ _

theorem notNegative_unpack_pack {f : UnpackedFloat} (h : NotNegative f) :
    NotNegative (Float.Model.pack f).unpack := by
  cases f with
  | notANumber => rwa [unpack_pack_notANumber]
  | zero s => rwa [unpack_pack_zero]
  | infinity s => rwa [unpack_pack_infinity]
  | finite s m e hm =>
      cases s with
      | negative => exact absurd h id
      | positive =>
          rcases unpack_pack_finite .positive m e hm with ⟨heq, -⟩ | heq | ⟨m', e', h', heq, -⟩
          all_goals
            rw [heq]
            trivial

end Screenwright.Number
