/-
Differences of floats keep the order.

The difference of two floats is rounded once, so it is the float nearest to the exact difference.
That is all the order needs: of two exact differences the smaller one cannot have the greater of
the two floats nearest to it.  Where the exact differences are equal the argument does not apply,
and there the floats that are subtracted are the same up to the sign of zero.
-/
import Screenwright.Proofs.Floats.Nearest

namespace Screenwright.Number

open Float.Model (UnpackedFloat Format totalExponent)
open Float.Model.UnpackedFloat

/-! ### Rounding -/

section Rounding

variable {m n : Nat} {e k : Int}

theorem unpack_pack_subnormal (hm : 0 < m) (hlt : m < 2 ^ 52) (s : Sign) :
    (Float.Model.pack (.finite s m (-1074) hm)).unpack = .finite s m (-1074) hm := by
  show unpack .binary64 (pack .binary64 (.finite s m (-1074) hm)) = .finite s m (-1074) hm
  have hlog : m.log2 < 52 := (Nat.log2_lt (Nat.ne_of_gt hm)).mpr hlt
  have hbiased : ((-1074 : Int) + Format.exponentBias .binary64 + (52 : Nat)).toNat = 1 := rfl
  have hmantissa : (BitVec.ofNat 52 m).toNat = m := Nat.mod_eq_of_lt hlt
  unfold pack
  simp only [hbiased]
  rw [if_neg (by decide), if_neg (show m.log2 + 1 ≠ Format.mantissaBits .binary64 by
    show m.log2 + 1 ≠ 53
    omega)]
  rcases unpack_subnormal s (BitVec.ofNat 52 m) with ⟨hzero, -⟩ | ⟨hpos, hfinite⟩
  · rw [hzero] at hmantissa
    exact absurd hmantissa (Nat.ne_of_lt hm)
  · simp only [hmantissa] at hfinite
    exact hfinite

/-- Packing leaves a value as it is that has the form in which values are unpacked. -/
theorem unpack_pack_canonical (h : Canonical m e) (he : e ≤ 971) (hm : 0 < m) (s : Sign) :
    (Float.Model.pack (.finite s m e hm)).unpack = .finite s m e hm := by
  rcases Nat.lt_or_ge m (2 ^ 52) with hsmall | hlarge
  · obtain rfl : e = -1074 := h.leading.resolve_left (Nat.not_le_of_lt hsmall)
    exact unpack_pack_subnormal hm hsmall s
  · exact unpack_pack_normal hm hlarge h.lt h.low he s

theorem round_eq (s : Sign) {j : Nat}
    (h : (k - max (totalExponent n k - 53) (-1074)).toNat = j) :
    UnpackedFloat.round .binary64 s n k =
      roundWithAccuracy .binary64 s (n * 2 ^ j) (k - j) .exact := by
  subst h
  unfold UnpackedFloat.round decreaseExponent
  simp only [targetExponent_eq, Nat.shiftLeft_eq]

theorem exists_round (hpos : 0 < n) (hk : -1022 ≤ n.log2 + k) (s : Sign) :
    ∃ m e hm, Leads n m e ∧ UnpackedFloat.round .binary64 s n k = .finite s m (k + e) hm := by
  rw [round_eq s (j := 52 - n.log2) (by unfold totalExponent; omega)]
  exact exists_roundWithAccuracy hpos (by omega) (by omega) hk s

/-- What is too small for a leading one is not rounded. -/
theorem round_subnormal {j : Nat} (hpos : 0 < n) (hk : n.log2 + k < -1022) (hj : k - j = -1074)
    (s : Sign) : ∃ hm, UnpackedFloat.round .binary64 s n k = .finite s (n * 2 ^ j) (-1074) hm := by
  have hlog := log2_mul_two_pow (Nat.ne_of_gt hpos) j
  have hm : 0 < n * 2 ^ j := Nat.mul_pos hpos (Nat.two_pow_pos j)
  have hshift := shiftToTargetExponent_eq .exact (m := n * 2 ^ j) (e := -1074) (k := 0) (by
    unfold totalExponent
    omega)
  refine ⟨hm, ?_⟩
  rw [round_eq s (j := j) (by unfold totalExponent; omega), hj]
  exact roundWithAccuracy_eq s hshift hshift hm

end Rounding

/-! ### The nearest value -/

section Nearest

variable {n : Nat} {e k : Int}

theorem exists_round_nearest (hpos : 0 < n) (hk : -1074 ≤ k) (s : Sign) :
    ∃ m e hm, UnpackedFloat.round .binary64 s n k = .finite s m e hm ∧ Canonical m e ∧
      ∀ j i : ℤ, |j| < 2 ^ 53 → |(m * 2 ^ e : ℚ) - n * 2 ^ k| ≤ |(j * 2 ^ i : ℚ) - n * 2 ^ k| := by
  rcases lt_or_ge ((n.log2 : ℤ) + k) (-1022) with hsmall | hlarge
  · obtain ⟨j, hj⟩ := Int.eq_ofNat_of_zero_le (show 0 ≤ k + 1074 by omega)
    obtain ⟨hm, hround⟩ := round_subnormal hpos hsmall (show k - j = -1074 by omega) s
    have hlog := log2_mul_two_pow (Nat.ne_of_gt hpos) j
    have hlt : n * 2 ^ j < 2 ^ 53 := lt_of_log2_le (k := 52) (by omega)
    refine ⟨_, _, hm, hround, ⟨hlt, le_rfl, Or.inr rfl⟩, fun i i' _ => ?_⟩
    have hexact : ((n * 2 ^ j : Nat) * 2 ^ (-1074 : ℤ) : ℚ) = n * 2 ^ k := by
      have hexponent : (-1074 : ℤ) = k - j := by omega
      rw [hexponent, zpow_sub₀ two_ne_zero, zpow_natCast, Nat.cast_mul, Nat.cast_pow, Nat.cast_two]
      field_simp
    rw [hexact, sub_self, abs_zero]
    exact abs_nonneg _
  · obtain ⟨m, e, hm, hleads, hround⟩ := exists_round hpos hlarge s
    obtain ⟨hlow, hhigh, -⟩ := hleads.bounds hpos
    have hexponent : (n.log2 : ℤ) - 52 ≤ e := by cases hleads <;> omega
    refine ⟨m, k + e, hm, hround, ⟨hhigh, by omega, Or.inl hlow⟩, fun j i hj => ?_⟩
    have hpow : (0 : ℚ) < 2 ^ k := zpow_pos two_pos k
    have hscale : ∀ a : ℚ, |a * 2 ^ k - n * 2 ^ k| = |a - n| * 2 ^ k := fun a => by
      rw [← sub_mul, abs_mul, abs_of_pos hpow]
    have hvalue : (m * 2 ^ (k + e) : ℚ) = leading n * unit n * 2 ^ k := by
      rw [← hleads.amount_eq, zpow_add₀ two_ne_zero]
      ring
    have hother : (j * 2 ^ i : ℚ) = j * 2 ^ (i - k) * 2 ^ k := by
      rw [mul_assoc, ← zpow_add₀ two_ne_zero, sub_add_cancel]
    rw [hvalue, hother, hscale, hscale]
    exact mul_le_mul_of_nonneg_right (abs_leading_mul_sub_le hpos hj) hpow.le

/-- The value is a number, and no number of 53 digits is nearer to `v`. -/
def Rounds (v : ℚ) (f : UnpackedFloat) : Prop :=
  ∃ r, amountOf f = some r ∧ ∀ j i : ℤ, |j| < 2 ^ 53 → |r - v| ≤ |(j * 2 ^ i : ℚ) - v|

theorem rounds_of_amount {f : UnpackedFloat} {v : ℚ} (h : amountOf f = some v) : Rounds v f :=
  ⟨v, h, fun _ _ _ => by
    rw [sub_self, abs_zero]
    exact abs_nonneg _⟩

/-- A number of 53 digits is not rounded. -/
theorem Rounds.amount_eq {f : UnpackedFloat} {v : ℚ} {j i : ℤ} (h : Rounds v f)
    (hv : v = j * 2 ^ i) (hj : |j| < 2 ^ 53) : amountOf f = some v := by
  obtain ⟨r, hr, hnear⟩ := h
  have hzero := hnear j i hj
  rw [← hv, sub_self, abs_zero] at hzero
  rw [hr, sub_eq_zero.mp (abs_nonpos_iff.mp hzero)]

theorem rounds_round (hpos : 0 < n) (hk : -1074 ≤ k) (s : Sign)
    (hbelow : Below 971 (UnpackedFloat.round .binary64 s n k)) :
    Rounds ((s.apply n : ℤ) * 2 ^ k)
      (Float.Model.pack (UnpackedFloat.round .binary64 s n k)).unpack := by
  obtain ⟨m, e, hm, hround, hcanonical, hnear⟩ := exists_round_nearest hpos hk s
  rw [hround] at hbelow ⊢
  have he : e ≤ 971 := by
    cases hbelow with | finite _ htotal =>
    unfold totalExponent at htotal
    omega
  rw [unpack_pack_canonical hcanonical he hm s]
  refine ⟨_, rfl, fun j i hj => ?_⟩
  cases s with
  | positive => exact_mod_cast hnear j i hj
  | negative =>
      -- the same distances, seen from the other side of zero
      have hflip : ∀ a b : ℚ, |-a - -b| = |a - b| := fun a b => by
        rw [neg_sub_neg, abs_sub_comm]
      have h := hnear (-j) i (by rwa [abs_neg])
      rw [← hflip, ← hflip (_ * _)] at h
      simp only [Sign.apply]
      push_cast at h ⊢
      simpa only [neg_mul, neg_neg] using h

theorem rounds_normalize (hk : -1074 ≤ k) (d : ℤ) (zeroSign : Sign)
    (hbelow : Below 971 (UnpackedFloat.normalize .binary64 d k zeroSign)) :
    Rounds (d * 2 ^ k)
      (Float.Model.pack (UnpackedFloat.normalize .binary64 d k zeroSign)).unpack := by
  unfold UnpackedFloat.normalize at hbelow ⊢
  split at hbelow
  next hcompare =>
    have hneg := Int.compare_eq_lt.mp hcompare
    have h := rounds_round (n := (-d).toNat) (by omega) hk .negative hbelow
    have hd : (Sign.negative.apply (-d).toNat : ℤ) = d := by
      show -(((-d).toNat : ℕ) : ℤ) = d
      omega
    rwa [hd] at h
  next hcompare =>
    rw [Int.compare_eq_eq.mp hcompare, unpack_pack_zero]
    exact rounds_of_amount (by simp [amountOf])
  next hcompare =>
    have hpos := Int.compare_eq_gt.mp hcompare
    have h := rounds_round (n := d.toNat) (by omega) hk .positive hbelow
    have hd : (Sign.positive.apply d.toNat : ℤ) = d := by
      show ((d.toNat : ℕ) : ℤ) = d
      omega
    rwa [hd] at h

end Nearest

/-! ### Differences -/

section Differences

variable {x y z : Float} {a b c : ℚ}

/-- A significand with zeros behind it and a smaller exponent has the same amount. -/
theorem apply_shiftLeft_mul (s : Sign) (m : Nat) {e low : ℤ} (h : low ≤ e) :
    ((s.apply (m <<< (e - low).toNat : Nat) : ℤ) * 2 ^ low : ℚ) = (s.apply m : ℤ) * 2 ^ e := by
  obtain ⟨t, ht⟩ := Int.eq_ofNat_of_zero_le (sub_nonneg.mpr h)
  have hexponent : e = t + low := by omega
  have hshift : (e - low).toNat = t := by omega
  rw [hshift, hexponent, zpow_add₀ two_ne_zero, zpow_natCast, Nat.shiftLeft_eq]
  cases s <;> simp only [Sign.apply] <;> push_cast <;> ring

theorem amountOf_neg {f : UnpackedFloat} (h : amountOf f = some a) :
    amountOf f.neg = some (-a) := by
  cases f with
  | notANumber => cases h
  | infinity s => cases h
  | zero s =>
      cases h
      rfl
  | finite s m e hm =>
      cases h
      cases s <;> simp [amountOf, UnpackedFloat.neg, Sign.apply]

/-- What comes from a float is left as it is by packing. -/
theorem unpack_pack_unpack {s : Sign} {m : Nat} {e : ℤ} {hm : 0 < m}
    (h : x.toModel.unpack = .finite s m e hm) (s' : Sign) :
    (Float.Model.pack (.finite s' m e hm)).unpack = .finite s' m e hm :=
  unpack_pack_canonical (parts_finite h).2 (exponent_le h) hm s'

/-- **A difference of floats is the float nearest to the exact difference.** -/
theorem rounds_sub_of_within {k : ℤ} (hx : Within k x) (hy : Within k y) (hlow : -1074 ≤ k)
    (hhigh : k ≤ 969) (ha : amount? x = some a) (hb : amount? y = some b) :
    Rounds (a - b) (x - y).toModel.unpack := by
  show Rounds (a - b) (Float.Model.pack (sub .binary64 x.toModel.unpack y.toModel.unpack)).unpack
  have hbelow := below_sub hx hy hlow
  unfold amount? at ha hb
  cases hf : x.toModel.unpack with
  | notANumber => rw [hf] at ha; cases ha
  | infinity s => rw [hf] at ha; cases ha
  | zero s =>
      rw [hf] at ha
      cases ha
      rw [zero_sub]
      refine rounds_of_amount ?_
      cases hg : y.toModel.unpack with
      | notANumber => rw [hg] at hb; cases hb
      | infinity s' => rw [hg] at hb; cases hb
      | zero s' =>
          rw [hg] at hb
          cases hb
          cases s <;> cases s' <;> rfl
      | finite s' m e hm =>
          have hsub : sub .binary64 (.zero s) (.finite s' m e hm) = .finite (-s') m e hm := rfl
          rw [hsub, unpack_pack_unpack hg]
          exact amountOf_neg (hg ▸ hb)
  | finite s m e hm =>
      cases hg : y.toModel.unpack with
      | notANumber => rw [hg] at hb; cases hb
      | infinity s' => rw [hg] at hb; cases hb
      | zero s' =>
          rw [hg] at hb
          cases hb
          have hsub : sub .binary64 (.finite s m e hm) (.zero s') = .finite s m e hm := rfl
          rw [hsub, unpack_pack_unpack hf, sub_zero]
          exact rounds_of_amount (hf ▸ ha)
      | finite s' m' e' hm' =>
          have hleast := (parts_finite hf).2.low
          have hleast' := (parts_finite hg).2.low
          rw [hf] at ha hbelow
          rw [hg] at hb hbelow
          cases ha
          cases hb
          have h := rounds_normalize (le_min hleast hleast') _ .positive (hbelow.mono (by omega))
          rw [Int.cast_sub, sub_mul, apply_shiftLeft_mul s m (min_le_left e e'),
            apply_shiftLeft_mul s' m' (min_le_right e e')] at h
          exact h

theorem rounds_sub (hx : Within 1 x) (hy : Within 1 y) (ha : amount? x = some a)
    (hb : amount? y = some b) : Rounds (a - b) (x - y).toModel.unpack :=
  rounds_sub_of_within hx hy (by decide) (by decide) ha hb

end Differences

/-! ### The order -/

section Order

variable {x y z : Float} {a b v w r r' : ℚ} {p q : Int × Int × Int}

theorem amount_isNaN (h : amount? x = some a) : x.isNaN = false := by
  show x.toModel.unpack.isNaN = false
  unfold amount? at h
  cases hx : x.toModel.unpack with
  | notANumber => rw [hx] at h; cases h
  | _ => rfl

theorem InUnit.exists_amount (h : InUnit x) : ∃ a, amount? x = some a := by
  unfold amount?
  rcases inUnit_iff.mp h with ⟨s, hx⟩ | ⟨m, e, hm, hx, -⟩ <;> exact ⟨_, by rw [hx]; rfl⟩

/-- The exponent goes before the significand. -/
theorem Canonical.amount_lt {m m' : Nat} {e e' : ℤ} (h : Canonical m e) (h' : Canonical m' e')
    (hlt : e < e' ∨ e = e' ∧ m < m') : (m * 2 ^ e : ℚ) < m' * 2 ^ e' := by
  have hpow : (0 : ℚ) < 2 ^ e := zpow_pos two_pos e
  rcases hlt with hlt | ⟨rfl, hlt⟩
  · have hleading : 2 ^ 52 ≤ m' := h'.leading.resolve_right (by have := h.low; omega)
    calc (m * 2 ^ e : ℚ) < 2 ^ 53 * 2 ^ e :=
          mul_lt_mul_of_pos_right (by exact_mod_cast h.lt) hpow
      _ = 2 ^ 52 * 2 ^ (e + 1) := by rw [zpow_add_one₀ two_ne_zero]; ring
      _ ≤ m' * 2 ^ e' := mul_le_mul (by exact_mod_cast hleading)
          (zpow_le_zpow_right₀ one_le_two hlt) (zpow_pos two_pos _).le (Nat.cast_nonneg _)
  · exact mul_lt_mul_of_pos_right (by exact_mod_cast hlt) hpow

/-- The place of a number among the floats. -/
inductive Lies : ℚ → Int × Int × Int → Prop
  | below {m : Nat} {e : Int} (hm : 0 < m) (h : Canonical m e) : Lies (-(m * 2 ^ e)) (-1, -e, -m)
  | zero : Lies 0 (0, 0, 0)
  | above {m : Nat} {e : Int} (hm : 0 < m) (h : Canonical m e) : Lies (m * 2 ^ e) (1, e, m)

theorem lies_of_amount (h : amount? x = some a) : Lies a (place x.toModel.unpack) := by
  unfold amount? at h
  cases hx : x.toModel.unpack with
  | notANumber => rw [hx] at h; cases h
  | infinity s => rw [hx] at h; cases h
  | zero s =>
      rw [hx] at h
      cases h
      exact .zero
  | finite s m e hm =>
      have hcanonical := (parts_finite hx).2
      rw [hx] at h
      cases h
      cases s with
      | positive => exact_mod_cast Lies.above hm hcanonical
      | negative =>
          simp only [Sign.apply]
          push_cast
          rw [neg_mul]
          exact .below hm hcanonical

theorem Lies.lt (ha : Lies a p) (hb : Lies b q) (h : Before p q) : a < b := by
  have hpos : ∀ {m : Nat} {e : ℤ}, 0 < m → (0 : ℚ) < m * 2 ^ e := fun hm =>
    mul_pos (Nat.cast_pos.mpr hm) (zpow_pos two_pos _)
  unfold Before at h
  cases ha with
  | below hm hleft =>
      cases hb with
      | below _ hright =>
          dsimp only at h
          exact neg_lt_neg (hright.amount_lt hleft (by omega))
      | zero => exact neg_lt_zero.mpr (hpos hm)
      | above hm' => exact (neg_lt_zero.mpr (hpos hm)).trans (hpos hm')
  | zero =>
      cases hb with
      | above hm' => exact hpos hm'
      | _ => omega
  | above hm hleft =>
      cases hb with
      | above _ hright =>
          dsimp only at h
          exact hleft.amount_lt hright (by omega)
      | _ => omega

theorem amount_lt_of_lt (ha : amount? x = some a) (hb : amount? y = some b) (h : x < y) : a < b :=
  (lies_of_amount ha).lt (lies_of_amount hb)
    ((lt_iff_before (amount_isNaN ha) (amount_isNaN hb)).mp h)

theorem le_of_amount_le (ha : amount? x = some a) (hb : amount? y = some b) (h : a ≤ b) : x ≤ y :=
  le_of_not_lt (amount_isNaN hb) (amount_isNaN ha) fun hlt =>
    absurd (amount_lt_of_lt hb ha hlt) (not_lt.mpr h)

/-- What is nearer to the greater of two numbers is not below their middle. -/
theorem middle_le (hlt : r' < r) (h : |r - v| ≤ |r' - v|) : r + r' ≤ 2 * v := by
  have hsq := sq_le_sq.mpr h
  nlinarith

/-- Of two numbers in order the nearest floats are in order. -/
theorem Rounds.le (hx : Rounds v x.toModel.unpack) (hy : Rounds w y.toModel.unpack) (h : v < w) :
    x ≤ y := by
  obtain ⟨r, hr, hnear⟩ := hx
  obtain ⟨r', hr', hnear'⟩ := hy
  refine le_of_amount_le hr hr' (not_lt.mp fun hlt => ?_)
  obtain ⟨j, i, hj, heq⟩ := exists_of_amount hr
  obtain ⟨j', i', hj', heq'⟩ := exists_of_amount hr'
  -- both numbers would lie on the wrong side of the middle of the two floats
  have hfirst := hnear j' i' hj'
  have hsecond := hnear' j i hj
  rw [← heq'] at hfirst
  rw [← heq, ← abs_neg, ← abs_neg (r - w), neg_sub, neg_sub] at hsecond
  have hmiddle := middle_le hlt hfirst
  have hmiddle' := middle_le (v := -w) (neg_lt_neg hlt) (by
    rw [neg_sub_neg, neg_sub_neg]
    exact hsecond)
  linarith

theorem eq_of_compare_eq {f g : UnpackedFloat} (h : f.compare g = some .eq) :
    f = g ∨ ∃ s s', f = .zero s ∧ g = .zero s' := by
  cases f with
  | notANumber => cases h
  | infinity s =>
      cases g with
      | infinity s' => cases s <;> cases s' <;> first | exact Or.inl rfl | cases h
      | _ => cases s <;> cases h
  | zero s =>
      cases g with
      | zero s' => exact Or.inr ⟨s, s', rfl, rfl⟩
      | infinity s' => cases s' <;> cases h
      | finite s' => cases s' <;> cases h
      | notANumber => cases h
  | finite s m e hm =>
      cases g with
      | finite s' m' e' hm' =>
          have hparts : s = s' ∧ e = e' ∧ m = m' := by
            cases s <;> cases s' <;>
              simp [UnpackedFloat.compare, Ordering.then_eq_eq] at h ⊢ <;> omega
          obtain ⟨rfl, rfl, rfl⟩ := hparts
          exact Or.inl rfl
      | infinity s' => cases s' <;> cases s <;> cases h
      | zero s' => cases s <;> cases h
      | notANumber => cases s <;> cases h

end Order

/-! ### Differences in order -/

section Monotone

variable {x y z : Float} {c : ℚ}

/-- A zero changes nothing, whatever its sign. -/
theorem amount_sub_zero (hx : Within 1 x) (hz : Within 1 z) (h : amount? x = some 0)
    (hc : amount? z = some c) : amount? (x - z) = some (-c) ∧ amount? (z - x) = some c := by
  obtain ⟨j, i, hj, heq⟩ := exists_of_amount hc
  have hleft := rounds_sub hx hz h hc
  have hright := rounds_sub hz hx hc h
  rw [zero_sub] at hleft
  rw [sub_zero] at hright
  refine ⟨hleft.amount_eq (j := -j) (i := i) ?_ (by rwa [abs_neg]), hright.amount_eq heq hj⟩
  rw [heq, Int.cast_neg, neg_mul]

theorem amount_sub_eq (hx : Within 1 x) (hy : Within 1 y) (hz : Within 1 z)
    (hc : amount? z = some c) (h : x.toModel.unpack.compare y.toModel.unpack = some .eq) :
    amount? (x - z) = amount? (y - z) ∧ amount? (z - x) = amount? (z - y) := by
  rcases eq_of_compare_eq h with heq | ⟨s, s', hzero, hzero'⟩
  · have hsame : ∀ f : UnpackedFloat → UnpackedFloat,
        amountOf (Float.Model.pack (f x.toModel.unpack)).unpack =
          amountOf (Float.Model.pack (f y.toModel.unpack)).unpack := fun f => by rw [heq]
    exact ⟨hsame fun f => sub .binary64 f z.toModel.unpack,
      hsame fun f => sub .binary64 z.toModel.unpack f⟩
  · have hamount : amount? x = some 0 := by rw [amount?, hzero]; rfl
    have hamount' : amount? y = some 0 := by rw [amount?, hzero']; rfl
    have hleft := amount_sub_zero hx hz hamount hc
    have hright := amount_sub_zero hy hz hamount' hc
    exact ⟨hleft.1.trans hright.1.symm, hleft.2.trans hright.2.symm⟩

/-- **Differences in the unit interval keep the order of the floats that are taken from, and turn
around the order of those that are taken away.** -/
theorem sub_in_order (hx : InUnit x) (hy : InUnit y) (hz : InUnit z) (h : x ≤ y) :
    x - z ≤ y - z ∧ z - y ≤ z - x := by
  obtain ⟨a, ha⟩ := hx.exists_amount
  obtain ⟨b, hb⟩ := hy.exists_amount
  obtain ⟨c, hc⟩ := hz.exists_amount
  have hxz := rounds_sub hx.within hz.within ha hc
  have hyz := rounds_sub hy.within hz.within hb hc
  have hzx := rounds_sub hz.within hx.within hc ha
  have hzy := rounds_sub hz.within hy.within hc hb
  rcases le_iff_compare.mp h with hlt | heq
  · have hamount := amount_lt_of_lt ha hb (lt_iff_compare.mpr hlt)
    exact ⟨hxz.le hyz (by linarith), hzy.le hzx (by linarith)⟩
  · obtain ⟨hleft, hright⟩ := amount_sub_eq hx.within hy.within hz.within hc heq
    obtain ⟨r, hr, -⟩ := hyz
    obtain ⟨r', hr', -⟩ := hzy
    exact ⟨le_of_amount_le (hleft.trans hr) hr le_rfl,
      le_of_amount_le hr' (hright.trans hr') le_rfl⟩

theorem not_lt_of_le (h : x ≤ y) : ¬ y < x := by
  rw [le_iff_compare] at h
  rw [lt_iff_compare, compare_swap x.toModel.unpack]
  rcases h with h | h <;> rw [h] <;> decide

theorem isNaN_of_le (h : x ≤ y) : x.isNaN = false ∧ y.isNaN = false := by
  show x.toModel.unpack.isNaN = false ∧ y.toModel.unpack.isNaN = false
  rw [le_iff_compare] at h
  cases hx : x.toModel.unpack with
  | notANumber => simp [hx, UnpackedFloat.compare] at h
  | _ =>
      cases hy : y.toModel.unpack with
      | notANumber => simp [hx, hy, UnpackedFloat.compare] at h
      | _ => exact ⟨rfl, rfl⟩

theorem le_of_le_of_le (hxy : x ≤ y) (hyz : y ≤ z) : x ≤ z := by
  obtain ⟨hx, hy⟩ := isNaN_of_le hxy
  obtain ⟨-, hz⟩ := isNaN_of_le hyz
  exact le_of_not_lt hz hx fun hlt =>
    not_lt_of_le hyz (lt_of_lt_of_not_lt hz hx hy hlt (not_lt_of_le hxy))

end Monotone

end Screenwright.Number
