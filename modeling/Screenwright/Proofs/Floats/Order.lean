/-
The fields of a float, and what a comparison says about them.

The program reads the fields of a float from its bits; the operations on floats unpack them.  The
two agree on everything that is finite.  A comparison goes by the unpacked values, and it fails
where one side is no number; between numbers it is total, which is what moving a value into the
unit interval rests on.
-/
import Screenwright.Proofs.Floats.Packing

namespace Screenwright.Number

open Float.Model (UnpackedFloat)
open Float.Model.UnpackedFloat

/-! ### Fields -/

section Fields

variable (w : BitVec 64)

theorem toNat_unpackMantissa :
    (@unpackMantissa .binary64 w).toNat = w.toNat % pow2 52 := by
  rfl

theorem toNat_unpackExponent :
    (@unpackExponent .binary64 w).toNat = w.toNat / pow2 52 % pow2 11 := by
  show (w.toNat >>> 52) % pow2 11 = _
  rw [Nat.shiftRight_eq_div_pow]
  rfl

theorem toNat_unpackSign :
    (@unpackSign .binary64 w).toNat = w.toNat / pow2 63 := by
  have hlt : w.toNat / 0x8000000000000000 < 2 := by
    have := w.isLt
    omega
  show (w.toNat >>> 63) % 2 = _
  rw [Nat.shiftRight_eq_div_pow]
  exact Nat.mod_eq_of_lt hlt

end Fields

variable {x y : Float} {s : Sign}

theorem beq_negative_unpackSign (w : BitVec 64) :
    (Sign.ofBitVec (@unpackSign .binary64 w) == .negative) =
      (w.toNat / pow2 63 == 1) := by
  rw [← toNat_unpackSign]
  generalize @unpackSign .binary64 w = b
  revert b
  decide

/-- The parts of a float from the fields that are unpacked. -/
theorem parts_eq (w : BitVec 64) (valid : Float.Model.Format.binary64.Valid w) :
    parts (.ofModel ⟨⟨w⟩, valid⟩) =
      if (@unpackExponent .binary64 w).toNat = 0 then
        ⟨Sign.ofBitVec (@unpackSign .binary64 w) == .negative,
          (@unpackMantissa .binary64 w).toNat, -1074⟩
      else
        ⟨Sign.ofBitVec (@unpackSign .binary64 w) == .negative,
          (@unpackMantissa .binary64 w).toNat + pow2 52,
          ((@unpackExponent .binary64 w).toNat : Int) - 1075⟩ := by
  rw [beq_negative_unpackSign, toNat_unpackExponent, toNat_unpackMantissa]
  rfl

theorem parts_zero (h : x.toModel.unpack = .zero s) : parts x = ⟨s == .negative, 0, -1074⟩ := by
  obtain ⟨⟨⟨w⟩, valid⟩⟩ := x
  replace h : unpack .binary64 w = .zero s := h
  rw [parts_eq]
  unfold unpack at h
  dsimp only at h
  split at h
  · split at h <;> contradiction
  split at h
  next hzero =>
    split at h
    next hmantissa =>
      cases h
      rw [hzero, hmantissa]
      rfl
    · contradiction
  · contradiction

/-- The form in which a value is unpacked: with a leading one, unless the exponent is the least. -/
structure Canonical (m : Nat) (e : Int) : Prop where
  lt : m < 2 ^ 53
  low : -1074 ≤ e
  leading : 2 ^ 52 ≤ m ∨ e = -1074

theorem parts_finite {m : Nat} {e : Int} {hm : 0 < m}
    (h : x.toModel.unpack = .finite s m e hm) :
    parts x = ⟨s == .negative, m, e⟩ ∧ Canonical m e := by
  obtain ⟨⟨⟨w⟩, valid⟩⟩ := x
  replace h : unpack .binary64 w = .finite s m e hm := h
  rw [parts_eq]
  unfold unpack at h
  dsimp only at h
  split at h
  · split at h <;> contradiction
  split at h
  next hzero =>
    split at h
    · contradiction
    next hmantissa =>
      cases h
      rw [if_pos (by rw [hzero]; rfl), hzero]
      exact ⟨rfl, Nat.lt_trans (BitVec.isLt _) (by decide), by decide, Or.inr rfl⟩
  next hnormal =>
    cases h
    have hpos : (@unpackExponent .binary64 w).toNat ≠ 0 :=
      fun hnat => hnormal (BitVec.eq_of_toNat_eq hnat)
    have hlt : (@unpackMantissa .binary64 w).toNat < 2 ^ 52 := BitVec.isLt _
    have hmantissa := toNat_leadingOne (@unpackMantissa .binary64 w)
    rw [if_neg hpos]
    refine ⟨?_, ?_, ?_, Or.inl ?_⟩
    · show Parts.mk _ _ _ = Parts.mk _ (1#1 ++ @unpackMantissa .binary64 w).toNat _
      rw [hmantissa, Nat.add_comm]
      rfl
    · show (1#1 ++ @unpackMantissa .binary64 w).toNat < _
      omega
    · show -1074 ≤ ((@unpackExponent .binary64 w).toNat : Int) - 1075
      omega
    · show _ ≤ (1#1 ++ @unpackMantissa .binary64 w).toNat
      omega

theorem exponent_le {m : Nat} {e : Int} {hm : 0 < m}
    (h : x.toModel.unpack = .finite s m e hm) : e ≤ 971 := by
  obtain ⟨⟨⟨w⟩, valid⟩⟩ := x
  replace h : unpack .binary64 w = .finite s m e hm := h
  unfold unpack at h
  dsimp only at h
  split at h
  · split at h <;> contradiction
  next hones =>
  split at h
  next hzero =>
    split at h
    · contradiction
    · cases h
      rw [hzero]
      decide
  next hnormal =>
    cases h
    have hlt : (@unpackExponent .binary64 w).toNat < 2 ^ 11 := BitVec.isLt _
    have hne : (@unpackExponent .binary64 w).toNat ≠ 2047 :=
      fun hnat => hones (BitVec.eq_of_toNat_eq hnat)
    show ((@unpackExponent .binary64 w).toNat : Int) - 1075 ≤ 971
    omega

/-! ### Finite floats -/

theorem isFinite_iff : x.isFinite = true ↔ x.isNaN = false ∧ x.isInf = false := by
  show x.toModel.unpack.isFinite = true ↔
    x.toModel.unpack.isNaN = false ∧ x.toModel.unpack.isInf = false
  cases x.toModel.unpack <;>
    simp [UnpackedFloat.isFinite, UnpackedFloat.isNaN, UnpackedFloat.isInf]

/-- A finite float is a zero or has a significand. -/
theorem unpack_of_isFinite (h : x.isFinite = true) : (∃ s, x.toModel.unpack = .zero s) ∨
    ∃ s m e hm, x.toModel.unpack = .finite s m e hm := by
  replace h : x.toModel.unpack.isFinite = true := h
  cases hx : x.toModel.unpack with
  | notANumber => rw [hx] at h; contradiction
  | infinity s => rw [hx] at h; contradiction
  | zero s => exact Or.inl ⟨s, rfl⟩
  | finite s m e hm => exact Or.inr ⟨s, m, e, hm, rfl⟩

theorem isFinite_of_zero (h : x.toModel.unpack = .zero s) : x.isFinite = true := by
  show x.toModel.unpack.isFinite = true
  rw [h]
  rfl

theorem isFinite_of_finite {m : Nat} {e : Int} {hm : 0 < m}
    (h : x.toModel.unpack = .finite s m e hm) : x.isFinite = true := by
  show x.toModel.unpack.isFinite = true
  rw [h]
  rfl

/-- A finite float has at most 53 digits, and its exponent is within reach. -/
theorem parts_within (h : x.isFinite = true) : (parts x).significand < 2 ^ 53 ∧
    -1074 ≤ (parts x).exponent ∧ (parts x).exponent ≤ 971 := by
  rcases unpack_of_isFinite h with ⟨s, hx⟩ | ⟨s, m, e, hm, hx⟩
  · rw [parts_zero hx]
    exact ⟨Nat.two_pow_pos 53, Int.le_refl _, show (-1074 : Int) ≤ 971 by decide⟩
  · obtain ⟨hparts, hcanonical⟩ := parts_finite hx
    rw [hparts]
    exact ⟨hcanonical.lt, hcanonical.low, exponent_le hx⟩

/-! ### Comparisons -/

theorem lt_iff_compare :
    x < y ↔ x.toModel.unpack.compare y.toModel.unpack = some .lt := by
  show decide ((x.toModel.unpack.compare y.toModel.unpack == some .lt) = true) = true ↔ _
  simp

theorem le_iff_compare :
    x ≤ y ↔ x.toModel.unpack.compare y.toModel.unpack = some .lt ∨
      x.toModel.unpack.compare y.toModel.unpack = some .eq := by
  show decide ((x.toModel.unpack.compare y.toModel.unpack).any (·.isLE) = true) = true ↔ _
  cases x.toModel.unpack.compare y.toModel.unpack with
  | none => simp
  | some o => cases o <;> simp [Ordering.isLE]

theorem compare_swap (f g : UnpackedFloat) :
    g.compare f = (f.compare g).map Ordering.swap := by
  cases f with
  | notANumber => cases g <;> rfl
  | infinity s =>
      cases g with
      | infinity s' => cases s <;> cases s' <;> rfl
      | _ => cases s <;> rfl
  | zero s =>
      cases g with
      | infinity s' => cases s' <;> rfl
      | finite s' => cases s' <;> rfl
      | _ => rfl
  | finite s m e hm =>
      cases g with
      | infinity s' => cases s' <;> cases s <;> rfl
      | zero s' => cases s <;> rfl
      | notANumber => cases s <;> rfl
      | finite s' m' e' hm' =>
          have hswap : (compare e' e).then (compare m' m) =
              ((compare e e').then (compare m m')).swap := by
            rw [Ordering.swap_then, Int.compare_swap, Nat.compare_swap]
          cases s <;> cases s' <;> simp [UnpackedFloat.compare, hswap]

theorem compare_ne_none {f g : UnpackedFloat} (hf : f.isNaN = false) (hg : g.isNaN = false) :
    f.compare g ≠ none := by
  cases f with
  | notANumber => contradiction
  | infinity s =>
      cases g with
      | notANumber => contradiction
      | _ => cases s <;> simp [UnpackedFloat.compare]
  | zero s =>
      cases g with
      | notANumber => contradiction
      | infinity s' => cases s' <;> simp [UnpackedFloat.compare]
      | finite s' => cases s' <;> simp [UnpackedFloat.compare]
      | zero s' => simp [UnpackedFloat.compare]
  | finite s m e hm =>
      cases g with
      | notANumber => contradiction
      | infinity s' => cases s <;> cases s' <;> simp [UnpackedFloat.compare]
      | zero s' => cases s <;> simp [UnpackedFloat.compare]
      | finite s' => cases s <;> cases s' <;> simp [UnpackedFloat.compare]

/-- Two numbers are one above the other or equal. -/
theorem le_of_not_lt (hx : x.isNaN = false) (hy : y.isNaN = false) (h : ¬ x < y) : y ≤ x := by
  rw [lt_iff_compare] at h
  rw [le_iff_compare, compare_swap]
  cases hcompare : x.toModel.unpack.compare y.toModel.unpack with
  | none => exact absurd hcompare (compare_ne_none hx hy)
  | some o =>
      cases o with
      | lt => exact absurd hcompare h
      | eq => exact Or.inr rfl
      | gt => exact Or.inl rfl

theorem unpack_ofZero : (0.0 : Float).toModel.unpack = .zero .positive := by
  rfl

theorem unpack_ofOne :
    (1.0 : Float).toModel.unpack = .finite .positive (2 ^ 52) (-52) (by decide) := by
  rfl

theorem not_lt_zero_iff : ¬ x < 0.0 ↔ NotNegative x.toModel.unpack := by
  rw [lt_iff_compare, unpack_ofZero]
  cases x.toModel.unpack with
  | notANumber => simp [UnpackedFloat.compare, NotNegative]
  | infinity s => cases s <;> simp [UnpackedFloat.compare, NotNegative]
  | zero s => simp [UnpackedFloat.compare, NotNegative]
  | finite s => cases s <;> simp [UnpackedFloat.compare, NotNegative]

/-- A finite float that is not below zero has a minus sign only if it is zero. -/
theorem significand_eq_zero (h : ¬ x < 0.0) (hfinite : x.isFinite = true)
    (hnegative : (parts x).negative = true) : (parts x).significand = 0 := by
  rw [not_lt_zero_iff] at h
  replace hfinite : x.toModel.unpack.isFinite = true := hfinite
  cases hx : x.toModel.unpack with
  | notANumber =>
      rw [hx] at hfinite
      contradiction
  | infinity s =>
      rw [hx] at hfinite
      contradiction
  | zero s => rw [parts_zero hx]
  | finite s m e hm =>
      rw [(parts_finite hx).1] at hnegative
      rw [hx] at h
      cases s with
      | negative => exact absurd h id
      | positive => exact absurd hnegative Bool.false_ne_true

/-! ### The unit interval -/

/-- The float lies between zero and one. -/
def InUnit (x : Float) : Prop :=
  0.0 ≤ x ∧ x ≤ 1.0

instance (x : Float) : Decidable (InUnit x) :=
  inferInstanceAs (Decidable (_ ∧ _))

/-- What lies in the unit interval is a zero or a small enough fraction. -/
theorem inUnit_iff : InUnit x ↔ (∃ s, x.toModel.unpack = .zero s) ∨
    ∃ m e hm, x.toModel.unpack = .finite .positive m e hm ∧
      (e < -52 ∨ e = -52 ∧ m ≤ 2 ^ 52) := by
  rw [InUnit, le_iff_compare, unpack_ofZero, le_iff_compare, unpack_ofOne]
  cases hx : x.toModel.unpack with
  | notANumber => simp [UnpackedFloat.compare]
  | infinity s => cases s <;> simp [UnpackedFloat.compare]
  | zero s => simp [UnpackedFloat.compare]
  | finite s m e hm =>
      cases s with
      | negative => simp [UnpackedFloat.compare]
      | positive =>
          simp only [UnpackedFloat.compare, Option.some.injEq, Ordering.then_eq_lt,
            Ordering.then_eq_eq, Int.compare_eq_lt, Int.compare_eq_eq, Nat.compare_eq_lt,
            Nat.compare_eq_eq]
          constructor
          · rintro ⟨-, hle⟩
            exact Or.inr ⟨m, e, hm, rfl, by omega⟩
          · rintro (⟨s, hs⟩ | ⟨m', e', hm', heq, hle⟩)
            · cases hs
            · cases heq
              exact ⟨Or.inl trivial, by omega⟩

theorem inUnit_zero : InUnit 0.0 :=
  inUnit_iff.mpr (Or.inl ⟨_, unpack_ofZero⟩)

theorem inUnit_negZero : InUnit (-0.0) :=
  inUnit_iff.mpr (Or.inl ⟨.negative, rfl⟩)

theorem inUnit_one : InUnit 1.0 :=
  inUnit_iff.mpr (Or.inr ⟨_, _, _, unpack_ofOne, Or.inr ⟨rfl, Nat.le_refl _⟩⟩)

/-- A number moved into the unit interval lies in it. -/
theorem inUnit_clampUnit (h : x.isNaN = false) : InUnit (Measure.clampUnit x) := by
  unfold Measure.clampUnit
  split
  · exact inUnit_zero
  next hlow =>
  split
  · exact inUnit_one
  next hhigh =>
  exact ⟨le_of_not_lt h rfl hlow, le_of_not_lt rfl h hhigh⟩

theorem InUnit.isFinite (h : InUnit x) : x.isFinite = true := by
  show x.toModel.unpack.isFinite = true
  rcases inUnit_iff.mp h with ⟨s, hx⟩ | ⟨m, e, hm, hx, -⟩ <;> rw [hx] <;> rfl

theorem InUnit.not_lt_zero (h : InUnit x) : ¬ x < 0.0 := by
  rw [not_lt_zero_iff]
  rcases inUnit_iff.mp h with ⟨s, hx⟩ | ⟨m, e, hm, hx, -⟩ <;> rw [hx] <;> trivial

/-- The parts of what lies in the unit interval. -/
theorem InUnit.significand_le (h : InUnit x) :
    (parts x).significand * pow2 (parts x).exponent.toNat ≤ pow2 (-(parts x).exponent).toNat := by
  rcases inUnit_iff.mp h with ⟨s, hx⟩ | ⟨m, e, hm, hx, hsmall⟩
  · rw [parts_zero hx, Nat.zero_mul]
    exact Nat.zero_le _
  · obtain ⟨hparts, hcanonical⟩ := parts_finite hx
    rw [hparts]
    dsimp only
    rw [show e.toNat = 0 by omega, show pow2 0 = 1 from rfl, Nat.mul_one]
    rcases hsmall with hsmall | ⟨rfl, hle⟩
    · exact Nat.le_trans (Nat.le_of_lt hcanonical.lt) (pow2_le_pow2 (by omega))
    · exact hle

end Screenwright.Number
