/-
Sums, products and quotients of floats that are not too large are finite.

A float that has come out of a computation may be infinite or no number at all, and then whatever
is computed from it may be so too.  What rules this out is a bound on sizes: `Below k` says that a
value is finite and less than `2^k` in size.  An operation on bounded values is bounded by the
exact result, and rounding can at most reach the next power of two.  The bounds are far from the
best ones; all that they have to do is to stay away from the largest float.
-/
import Screenwright.Proofs.Floats.Packing

namespace Screenwright.Number

open Float.Model (UnpackedFloat Format totalExponent)
open Float.Model.UnpackedFloat

/-! ### Lengths of binary numbers -/

theorem log2_le_of_lt {n k : Nat} (h : n < 2 ^ (k + 1)) : n.log2 ≤ k := by
  by_cases hzero : n = 0
  · simp [hzero]
  · exact Nat.lt_succ_iff.mp ((Nat.log2_lt hzero).mpr h)

theorem lt_of_log2_le {n k : Nat} (h : n.log2 ≤ k) : n < 2 ^ (k + 1) :=
  Nat.lt_of_lt_of_le Nat.lt_log2_self (Nat.pow_le_pow_right (by decide) (by omega))

theorem log2_le_of_le {m n : Nat} (h : m ≤ n) : m.log2 ≤ n.log2 :=
  log2_le_of_lt (Nat.lt_of_le_of_lt h Nat.lt_log2_self)

theorem log2_mul_two_pow {m : Nat} (hm : m ≠ 0) (n : Nat) : (m * 2 ^ n).log2 = m.log2 + n := by
  refine (Nat.log2_eq_iff (Nat.mul_ne_zero hm (Nat.ne_of_gt (Nat.two_pow_pos n)))).mpr ⟨?_, ?_⟩
  · rw [Nat.pow_add]
    exact Nat.mul_le_mul_right _ (Nat.log2_self_le hm)
  · rw [Nat.add_right_comm, Nat.pow_add]
    exact Nat.mul_lt_mul_of_pos_right Nat.lt_log2_self (Nat.two_pow_pos n)

theorem log2_mul_le (m n : Nat) : (m * n).log2 ≤ m.log2 + n.log2 + 1 := by
  have hlt : m * n < 2 ^ (m.log2 + 1) * 2 ^ (n.log2 + 1) :=
    Nat.mul_lt_mul'' Nat.lt_log2_self Nat.lt_log2_self
  rw [← Nat.pow_add] at hlt
  exact log2_le_of_lt (Nat.lt_of_lt_of_eq hlt (by congr 1; omega))

theorem log2_shift_le (m n : Nat) : (m <<< n).log2 ≤ m.log2 + n := by
  have hlt : m <<< n < 2 ^ (m.log2 + 1) * 2 ^ n := by
    rw [Nat.shiftLeft_eq]
    exact Nat.mul_lt_mul_of_pos_right Nat.lt_log2_self (Nat.two_pow_pos n)
  rw [← Nat.pow_add] at hlt
  exact log2_le_of_lt (Nat.lt_of_lt_of_eq hlt (by congr 1; omega))

theorem log2_add_le {m n k : Nat} (hm : m.log2 ≤ k) (hn : n.log2 ≤ k) :
    (m + n).log2 ≤ k + 1 := by
  have hmlt := lt_of_log2_le hm
  have hnlt := lt_of_log2_le hn
  refine log2_le_of_lt ?_
  rw [Nat.pow_succ]
  omega

/-- Bits that are shifted out shorten a number that does not vanish. -/
theorem log2_div_le {m n : Nat} (h : m / 2 ^ n ≠ 0) : (m / 2 ^ n).log2 + n ≤ m.log2 := by
  have hle : 2 ^ ((m / 2 ^ n).log2 + n) ≤ m := by
    rw [Nat.pow_add]
    exact Nat.le_trans (Nat.mul_le_mul_right _ (Nat.log2_self_le h)) (Nat.div_mul_le_self m _)
  have hm : m ≠ 0 := by
    rintro rfl
    simp at h
  exact (Nat.le_log2 hm).mpr hle

/-! ### Rounding -/

/-- A finite value that is less than `2^k` in size. -/
inductive Below (k : Int) : UnpackedFloat → Prop
  | zero (s : Sign) : Below k (.zero s)
  | finite {s : Sign} {m : Nat} {e : Int} (hm : 0 < m) (h : totalExponent m e ≤ k) :
    Below k (.finite s m e hm)

theorem Below.mono {j k : Int} {f : UnpackedFloat} (h : Below j f) (hle : j ≤ k) : Below k f := by
  cases h with
  | zero s => exact .zero s
  | finite hm h => exact .finite hm (Int.le_trans h hle)

theorem mantissa_shiftRight (em : ExtendedMantissa) (n : Nat) :
    (em >>> n).mantissa = em.mantissa / 2 ^ n := by
  show (n.repeat ExtendedMantissa.shiftRightOne em).mantissa = _
  induction n with
  | zero => simp [Nat.repeat]
  | succ n ih =>
      rw [Nat.repeat, ExtendedMantissa.shiftRightOne, ih, Nat.div_div_eq_div_mul, Nat.pow_succ]

theorem mantissa_ofMantissaAndAccuracy (m : Nat) (accuracy : Accuracy) :
    (ExtendedMantissa.ofMantissaAndAccuracy m accuracy).mantissa = m := by
  unfold ExtendedMantissa.ofMantissaAndAccuracy
  split <;> rfl

theorem roundedMantissa_le (em : ExtendedMantissa) : em.roundedMantissa ≤ em.mantissa + 1 := by
  unfold ExtendedMantissa.roundedMantissa Accuracy.roundToNearestEven
  split <;> omega

theorem targetExponent_eq (n : Int) : Format.binary64.targetExponent n = max (n - 53) (-1074) := by
  rfl

/-- A rounded value: the first shift drops `n` bits and rounds, the second one drops a carry. -/
theorem roundWithAccuracy_cases (s : Sign) (m : Nat) (e : Int) (accuracy : Accuracy) :
    ∃ n r k : Nat, n = (max (totalExponent m e - 53) (-1074) - e).toNat ∧ r ≤ m / 2 ^ n + 1 ∧
      k = (max (totalExponent r (e + n) - 53) (-1074) - (e + n)).toNat ∧
      (roundWithAccuracy .binary64 s m e accuracy = .zero s ∨
        ∃ h, roundWithAccuracy .binary64 s m e accuracy =
          .finite s (r / 2 ^ k) (e + n + k) h) := by
  let n := (max (totalExponent m e - 53) (-1074) - e).toNat
  let em := ExtendedMantissa.ofMantissaAndAccuracy m accuracy >>> n
  refine ⟨n, em.roundedMantissa, _, rfl, ?_, rfl, ?_⟩
  · have hround := roundedMantissa_le em
    rwa [mantissa_shiftRight, mantissa_ofMantissaAndAccuracy] at hround
  · unfold roundWithAccuracy shiftToTargetExponent shiftToExponent
    simp only [targetExponent_eq, mantissa_shiftRight, mantissa_ofMantissaAndAccuracy]
    split
    · exact Or.inl rfl
    next hfinal => exact Or.inr ⟨Nat.pos_of_ne_zero hfinal, rfl⟩

/-- Rounding reaches at most the next power of two. -/
theorem below_roundWithAccuracy {k : Int} {m : Nat} {e : Int} (h : totalExponent m e ≤ k)
    (hk : -1074 ≤ k) (sign : Sign) (accuracy : Accuracy) :
    Below (k + 1) (roundWithAccuracy .binary64 sign m e accuracy) := by
  obtain ⟨n, r, carry, hn, hround, hcarry, heq | ⟨hpos, heq⟩⟩ :=
    roundWithAccuracy_cases sign m e accuracy
  · rw [heq]
    exact .zero sign
  · rw [heq]
    have hdropped := log2_div_le (Nat.ne_of_gt hpos)
    have hsmall : (r.log2 : Int) + 1 + (e + n) ≤ k + 1 := by
      unfold totalExponent at h hn
      have hlog := log2_le_of_le hround
      by_cases hzero : m / 2 ^ n = 0
      · rw [hzero, show (0 + 1 : Nat).log2 = 0 by decide] at hlog
        omega
      · have hshift := log2_div_le hzero
        have hcarry : (m / 2 ^ n + 1).log2 ≤ (m / 2 ^ n).log2 + 1 :=
          log2_add_le (Nat.le_refl _) (show (1 : Nat).log2 ≤ _ from Nat.zero_le _)
        omega
    refine .finite hpos ?_
    unfold totalExponent
    omega

/-- A value that is packed and unpacked again stays below its bound. -/
theorem below_unpack_pack {k : Int} {f : UnpackedFloat} (h : Below k f) (hlow : -1021 ≤ k)
    (hhigh : k ≤ 971) : Below k (Float.Model.pack f).unpack := by
  cases h with
  | zero s =>
      rw [unpack_pack_zero]
      exact .zero s
  | @finite s m e hm htotal =>
      rcases unpack_pack_finite s m e hm with ⟨-, hlarge⟩ | heq | ⟨m', e', h', heq, hle⟩
      · unfold totalExponent at htotal
        omega
      · rw [heq]
        exact .zero s
      · rw [heq]
        exact .finite h' (Int.le_trans hle (by omega))

/-! ### Operations -/

theorem below_normalize {k : Int} {m e : Int} (h : m ≠ 0 → totalExponent m.natAbs e ≤ k)
    (hk : -1074 ≤ k) (zeroSign : Sign) :
    Below (k + 1) (UnpackedFloat.normalize .binary64 m e zeroSign) := by
  have hround : ∀ s : Sign, m ≠ 0 →
      Below (k + 1) (UnpackedFloat.round .binary64 s m.natAbs e) := by
    intro s hm
    refine below_roundWithAccuracy (Int.le_trans ?_ (h hm)) hk s .exact
    have hshift := log2_shift_le m.natAbs
      (e - Format.binary64.targetExponent (totalExponent m.natAbs e)).toNat
    unfold totalExponent at hshift ⊢
    omega
  unfold UnpackedFloat.normalize
  split
  next hcompare =>
    have hneg := Int.compare_eq_lt.mp hcompare
    rw [show (-m).toNat = m.natAbs by omega]
    exact hround _ (by omega)
  · exact .zero zeroSign
  next hcompare =>
    have hpos := Int.compare_eq_gt.mp hcompare
    rw [show m.toNat = m.natAbs by omega]
    exact hround _ (by omega)

theorem below_neg {k : Int} {f : UnpackedFloat} (h : Below k f) : Below k f.neg := by
  cases h with
  | zero s => exact .zero (-s)
  | finite hm h => exact .finite hm h

theorem natAbs_apply (s : Sign) (n : Nat) : (s.apply n).natAbs = n := by
  cases s <;> simp [Sign.apply]

theorem below_add {k : Int} {f g : UnpackedFloat} (hf : Below k f) (hg : Below k g)
    (hk : -1074 ≤ k) : Below (k + 2) (add .binary64 f g) := by
  cases hf with
  | zero s =>
      cases hg with
      | zero s' =>
          unfold add
          dsimp only
          split <;> exact .zero _
      | finite hm h => exact .finite hm (by omega)
  | @finite s m e hm hleft =>
      cases hg with
      | zero s' => exact .finite hm (by omega)
      | @finite s' m' e' hm' hright =>
          have hshift := log2_shift_le m (e - min e e').toNat
          have hshift' := log2_shift_le m' (e' - min e e').toNat
          show Below (k + 2) (UnpackedFloat.normalize .binary64
            (s.apply (m <<< (e - min e e').toNat : Nat) +
              s'.apply (m' <<< (e' - min e e').toNat : Nat))
            (min e e') .positive)
          rw [show k + 2 = k + 1 + 1 by omega]
          refine below_normalize (fun _ => ?_) (by omega) .positive
          have hsum := log2_le_of_le (Int.natAbs_add_le
            (s.apply (m <<< (e - min e e').toNat : Nat))
            (s'.apply (m' <<< (e' - min e e').toNat : Nat)))
          rw [natAbs_apply, natAbs_apply] at hsum
          unfold totalExponent at *
          have hadd := log2_add_le (k := (k - 1 - min e e').toNat)
            (m := m <<< (e - min e e').toNat) (n := m' <<< (e' - min e e').toNat)
            (by omega) (by omega)
          omega

theorem sub_eq_add_neg (f g : UnpackedFloat) : sub .binary64 f g = add .binary64 f g.neg := by
  cases f with
  | finite s m e hm =>
      cases g with
      | finite s' m' e' hm' =>
          have hneg : ∀ n : Int, -(s'.apply n) = (-s').apply n := by
            intro n
            cases s'
            · exact Int.neg_neg n
            · rfl
          unfold sub add neg
          dsimp only
          rw [Int.sub_eq_add_neg, hneg]
      | notANumber => rfl
      | infinity s' => rfl
      | zero s' => rfl
  | notANumber => cases g <;> rfl
  | infinity s => cases g <;> rfl
  | zero s => cases g <;> rfl

theorem below_sub {k : Int} {f g : UnpackedFloat} (hf : Below k f) (hg : Below k g)
    (hk : -1074 ≤ k) : Below (k + 2) (sub .binary64 f g) := by
  rw [sub_eq_add_neg]
  exact below_add hf (below_neg hg) hk

theorem below_mul {j k : Int} {f g : UnpackedFloat} (hf : Below j f) (hg : Below k g)
    (hjk : -1074 ≤ j + k) : Below (j + k + 1) (mul .binary64 f g) := by
  cases hf with
  | zero s => cases hg <;> exact .zero _
  | @finite s m e hm hleft =>
      cases hg with
      | zero s' => exact .zero _
      | @finite s' m' e' hm' hright =>
          have hlog := log2_mul_le m m'
          refine below_roundWithAccuracy (?_ : totalExponent (m * m') (e + e') ≤ j + k) hjk _ .exact
          unfold totalExponent at *
          omega

/-- A finite value that is at least `2^(k - 1)` in size. -/
inductive AtLeast (k : Int) : UnpackedFloat → Prop
  | finite {s : Sign} {m : Nat} {e : Int} (hm : 0 < m) (h : k ≤ totalExponent m e) :
    AtLeast k (.finite s m e hm)

theorem below_div {j k : Int} {f g : UnpackedFloat} (hf : Below j f) (hg : AtLeast k g)
    (hjk : -1074 ≤ j - k) : Below (j - k + 2) (div .binary64 f g) := by
  cases hg with
  | @finite s' m' e' hm' hright =>
      cases hf with
      | zero s => exact .zero _
      | @finite s m e hm hleft =>
          rw [show j - k + 2 = j - k + 1 + 1 by omega]
          refine below_roundWithAccuracy ?_ (by omega) _ _
          simp only [targetExponent_eq]
          generalize hshift : (e - e' - min (e - e')
            (max (totalExponent m e - totalExponent m' e' - 53) (-1074))).toNat = n
          -- the quotient is shorter than the dividend by what the divisor is long, give or take one
          have hquotient : m <<< n / m' ≠ 0 → (m <<< n / m').log2 + m'.log2 ≤ m.log2 + n := by
            intro hne
            have hle : 2 ^ ((m <<< n / m').log2 + m'.log2) ≤ m <<< n := by
              rw [Nat.pow_add]
              exact Nat.le_trans (Nat.mul_le_mul (Nat.log2_self_le hne)
                (Nat.log2_self_le (Nat.ne_of_gt hm'))) (Nat.div_mul_le_self _ _)
            have hpos : m <<< n ≠ 0 := fun hzero => by simp [hzero] at hne
            exact Nat.le_trans ((Nat.le_log2 hpos).mpr hle) (log2_shift_le m n)
          unfold totalExponent at *
          by_cases hne : m <<< n / m' = 0
          · rw [hne, show (0 : Nat).log2 = 0 by decide]
            omega
          · have := hquotient hne
            omega

/-! ### Floats -/

/-- The float is finite and less than `2^k` in size. -/
def Within (k : Int) (x : Float) : Prop :=
  Below k x.toModel.unpack

instance (k : Int) (f : UnpackedFloat) : Decidable (Below k f) :=
  match f with
  | .zero s => isTrue (.zero s)
  | .finite _ m e hm =>
    decidable_of_iff (totalExponent m e ≤ k) ⟨.finite hm, fun | .finite _ h => h⟩
  | .infinity _ => isFalse (by rintro ⟨⟩)
  | .notANumber => isFalse (by rintro ⟨⟩)

instance (k : Int) (x : Float) : Decidable (Within k x) :=
  inferInstanceAs (Decidable (Below k x.toModel.unpack))

instance (k : Int) (f : UnpackedFloat) : Decidable (AtLeast k f) :=
  match f with
  | .finite _ m e hm =>
    decidable_of_iff (k ≤ totalExponent m e) ⟨.finite hm, fun | .finite _ h => h⟩
  | .zero _ => isFalse (by rintro ⟨⟩)
  | .infinity _ => isFalse (by rintro ⟨⟩)
  | .notANumber => isFalse (by rintro ⟨⟩)

section Within

variable {j k : Int} {x y : Float}

theorem Within.mono (h : Within j x) (hle : j ≤ k) : Within k x :=
  Below.mono h hle

theorem Within.isFinite (h : Within k x) : x.isFinite = true := by
  show x.toModel.unpack.isFinite = true
  cases hx : x.toModel.unpack <;> rw [Within, hx] at h <;> cases h <;> rfl

theorem Within.isNaN (h : Within k x) : x.isNaN = false := by
  show x.toModel.unpack.isNaN = false
  cases hx : x.toModel.unpack <;> rw [Within, hx] at h <;> cases h <;> rfl

theorem Within.add (hx : Within k x) (hy : Within k y) (hlow : -1021 ≤ k) (hhigh : k ≤ 969) :
    Within (k + 2) (x + y) :=
  below_unpack_pack (below_add hx hy (by omega)) (by omega) (by omega)

theorem Within.sub (hx : Within k x) (hy : Within k y) (hlow : -1021 ≤ k) (hhigh : k ≤ 969) :
    Within (k + 2) (x - y) :=
  below_unpack_pack (below_sub hx hy (by omega)) (by omega) (by omega)

theorem Within.mul (hx : Within j x) (hy : Within k y) (hlow : -1021 ≤ j + k)
    (hhigh : j + k ≤ 970) : Within (j + k + 1) (x * y) :=
  below_unpack_pack (below_mul hx hy (by omega)) (by omega) (by omega)

theorem Within.div (hx : Within j x) (hy : AtLeast k y.toModel.unpack) (hlow : -1021 ≤ j - k)
    (hhigh : j - k ≤ 969) : Within (j - k + 2) (x / y) :=
  below_unpack_pack (below_div hx hy (by omega)) (by omega) (by omega)

theorem Within.neg (hx : Within k x) (hlow : -1021 ≤ k) (hhigh : k ≤ 971) : Within k (-x) :=
  below_unpack_pack (below_neg hx) hlow hhigh

end Within

theorem within_ofNat {n k : Nat} (h : n < 2 ^ k) (hk : k ≤ 900) :
    Within (k + 3) (Float.ofNat n) := by
  have hlog : n ≠ 0 → n.log2 + 1 ≤ k := fun hn => (Nat.log2_lt hn).mpr h
  show Within (k + 3) (Float.ofScientific n false 0)
  unfold Float.ofScientific
  split
  · have hfloat : Within (k + 1) n.toUInt64.toFloat := by
      refine below_unpack_pack (below_normalize (fun hn => ?_) (by omega) _) (by omega) (by omega)
      have hle : n.toUInt64.toNat.log2 ≤ n.log2 := by
        refine log2_le_of_le ?_
        rw [Nat.toUInt64_eq, UInt64.toNat_ofNat']
        exact Nat.mod_le _ _
      have hne : n ≠ 0 := by
        rintro rfl
        exact hn rfl
      have := hlog hne
      rw [Int.natAbs_natCast]
      unfold totalExponent
      omega
    have hone : Within 1 (1 : Float) := by decide +kernel
    exact (hfloat.mul hone (by omega) (by omega)).mono (by omega)
  · refine below_unpack_pack ?_ (by omega) (by omega)
    show Below (k + 3) (UnpackedFloat.ofScientific .binary64 n 0)
    unfold UnpackedFloat.ofScientific
    split
    · exact .zero _
    next hne =>
    have hexponent : (2 : Int) ^ Format.exponentBits .binary64 = 2048 := by decide
    rw [if_neg (by decide), if_neg (by omega), if_pos (by decide)]
    have hshift := log2_shift_le n (Format.mantissaBits .binary64)
    have hlength := hlog hne
    refine (below_mul (j := k) (k := 1) (.finite _ ?_) (.finite _ ?_) (by omega)).mono (by omega)
    · unfold totalExponent
      omega
    · decide

end Screenwright.Number
