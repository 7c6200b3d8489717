/-
Whole numbers as floats, in order.

A whole number of more than 53 binary digits is rounded when it becomes a float, and two that are
next to each other may become the same.  They never change places: rounding keeps the order, which
is shown here for the digits that are dropped one by one, and a number of at most 53 digits stays
apart from every other one.
-/
import Screenwright.Proofs.Floats.Fractions

namespace Screenwright.Number

open Float.Model (UnpackedFloat Format totalExponent)
open Float.Model.UnpackedFloat

/-! ### Rounding keeps the order -/

/-- A mantissa with the two digits that rounding goes by. -/
def weight (em : ExtendedMantissa) : Nat :=
  4 * em.mantissa + 2 * em.roundBit.toNat + em.stickyBit.toNat

section Weight

variable {a b : ExtendedMantissa}

theorem weight_shiftRightOne_le (h : weight a ≤ weight b) :
    weight a.shiftRightOne ≤ weight b.shiftRightOne := by
  -- one digit moves behind the point, and of those behind it only whether there is any counts
  have hweight : ∀ em : ExtendedMantissa,
      weight em.shiftRightOne = 2 * em.mantissa + (em.roundBit || em.stickyBit).toNat := by
    intro em
    have hbit : (em.mantissa % 2 != 0).toNat = em.mantissa % 2 := by
      rcases Nat.mod_two_eq_zero_or_one em.mantissa with h | h <;> rw [h] <;> rfl
    rw [weight, ExtendedMantissa.shiftRightOne]
    dsimp only
    omega
  rw [hweight, hweight]
  obtain ⟨m, r, s⟩ := a
  obtain ⟨m', r', s'⟩ := b
  cases r <;> cases s <;> cases r' <;> cases s' <;> simp [weight] at h ⊢ <;> omega

theorem weight_shiftRight_le (h : weight a ≤ weight b) (n : Nat) :
    weight (a >>> n) ≤ weight (b >>> n) := by
  show weight (n.repeat ExtendedMantissa.shiftRightOne a) ≤
    weight (n.repeat ExtendedMantissa.shiftRightOne b)
  induction n with
  | zero => exact h
  | succ n ih => exact weight_shiftRightOne_le ih

theorem roundedMantissa_mono (h : weight a ≤ weight b) :
    a.roundedMantissa ≤ b.roundedMantissa := by
  obtain ⟨m, r, s⟩ := a
  obtain ⟨m', r', s'⟩ := b
  cases r <;> cases s <;> cases r' <;> cases s' <;>
    simp [weight, ExtendedMantissa.roundedMantissa, ExtendedMantissa.accuracy,
      Accuracy.roundToNearestEven] at h ⊢ <;> omega

end Weight

/-! ### The digits of a whole number -/

/-- The first 53 binary digits of a number, rounded by those behind them; rounding may carry into
a digit more. -/
def leading (n : Nat) : Nat :=
  (ExtendedMantissa.ofMantissaAndAccuracy (n * 2 ^ 53) .exact >>> (n.log2 + 1)).roundedMantissa

theorem mantissa_le_roundedMantissa (em : ExtendedMantissa) :
    em.mantissa ≤ em.roundedMantissa := by
  unfold ExtendedMantissa.roundedMantissa Accuracy.roundToNearestEven
  split <;> omega

section Leading

variable {m n : Nat}

theorem leading_bounds (hpos : 0 < n) : 2 ^ 52 ≤ leading n ∧ leading n ≤ 2 ^ 53 := by
  have hpow : 0 < 2 ^ (n.log2 + 1) := Nat.two_pow_pos _
  have hlow : 2 ^ 52 ≤ n * 2 ^ 53 / 2 ^ (n.log2 + 1) := by
    rw [Nat.le_div_iff_mul_le hpow]
    have := Nat.mul_le_mul_right (2 ^ 53) (Nat.log2_self_le (Nat.ne_of_gt hpos))
    rw [Nat.pow_succ 2 n.log2]
    omega
  have hhigh : n * 2 ^ 53 / 2 ^ (n.log2 + 1) < 2 ^ 53 := by
    rw [Nat.div_lt_iff_lt_mul hpow, Nat.mul_comm]
    exact Nat.mul_lt_mul_of_pos_left Nat.lt_log2_self (by decide)
  have hdown := mantissa_le_roundedMantissa
    (ExtendedMantissa.ofMantissaAndAccuracy (n * 2 ^ 53) .exact >>> (n.log2 + 1))
  have hup := roundedMantissa_le
    (ExtendedMantissa.ofMantissaAndAccuracy (n * 2 ^ 53) .exact >>> (n.log2 + 1))
  rw [mantissa_shiftRight, mantissa_ofMantissaAndAccuracy] at hdown hup
  exact ⟨Nat.le_trans hlow hdown, Nat.le_trans hup hhigh⟩

theorem leading_mono (hlog : m.log2 = n.log2) (h : m ≤ n) : leading m ≤ leading n := by
  have hexact : ∀ k, weight (ExtendedMantissa.ofMantissaAndAccuracy k .exact) = 4 * k :=
    fun _ => rfl
  unfold leading
  rw [hlog]
  refine roundedMantissa_mono (weight_shiftRight_le ?_ _)
  rw [hexact, hexact]
  exact Nat.mul_le_mul_left 4 (Nat.mul_le_mul_right _ h)

/-- No digit of a number below `2^53` is rounded off. -/
theorem leading_of_lt (h : n < 2 ^ 53) : leading n = n * 2 ^ (52 - n.log2) := by
  have hlog : n.log2 ≤ 52 := log2_le_of_lt h
  have hdigits : n * 2 ^ 53 = n * 2 ^ (52 - n.log2) * 2 ^ (n.log2 + 1) := by
    rw [Nat.mul_assoc, ← Nat.pow_add]
    congr 2
    omega
  rw [leading, hdigits, shiftRight_exact]
  rfl

end Leading

/-- The significand and the exponent of the float that a whole number becomes. -/
inductive Leads (n : Nat) : Nat → Int → Prop
  | plain (h : leading n < 2 ^ 53) : Leads n (leading n) (n.log2 - 52)
  | carried (h : leading n = 2 ^ 53) : Leads n (2 ^ 52) (n.log2 - 51)

section Leads

variable {a b m m' : Nat} {e e' : Int}

theorem Leads.bounds (h : Leads a m e) (hpos : 0 < a) : 2 ^ 52 ≤ m ∧ m < 2 ^ 53 ∧ -52 ≤ e := by
  have hlow := (leading_bounds hpos).1
  cases h with
  | plain h => exact ⟨hlow, h, by omega⟩
  | carried h => exact ⟨Nat.le_refl _, by decide, by omega⟩

/-- **Of two whole numbers, the greater one does not become the smaller float.** -/
theorem Leads.mono (ha : Leads a m e) (hb : Leads b m' e') (hpos : 0 < a) (h : a ≤ b) :
    e < e' ∨ e = e' ∧ m ≤ m' := by
  have hlow := (leading_bounds (Nat.lt_of_lt_of_le hpos h)).1
  have hhigh := (leading_bounds (Nat.lt_of_lt_of_le hpos h)).2
  rcases Nat.lt_or_eq_of_le (log2_le_of_le h) with hlog | hlog
  · cases ha <;> cases hb <;> omega
  · have hmono := leading_mono hlog h
    cases ha <;> cases hb <;> omega

/-- Two numbers of which one is below `2^53` become different floats. -/
theorem Leads.strictMono (ha : Leads a m e) (hb : Leads b m' e') (hpos : 0 < a) (h : a < b)
    (hsmall : a < 2 ^ 53) : e < e' ∨ e = e' ∧ m < m' := by
  have hlow := (leading_bounds (Nat.lt_trans hpos h)).1
  have hlead := leading_of_lt hsmall
  have hfits : leading a < 2 ^ 53 := by
    have hlog : a.log2 ≤ 52 := log2_le_of_lt hsmall
    calc leading a = a * 2 ^ (52 - a.log2) := hlead
      _ < 2 ^ (a.log2 + 1) * 2 ^ (52 - a.log2) :=
        Nat.mul_lt_mul_of_pos_right Nat.lt_log2_self (Nat.two_pow_pos _)
      _ = 2 ^ 53 := by rw [← Nat.pow_add]; congr 1; omega
  rcases Nat.lt_or_eq_of_le (log2_le_of_le (Nat.le_of_lt h)) with hlog | hlog
  · cases ha <;> cases hb <;> omega
  · have hless : leading a < leading b ∨ leading b = 2 ^ 53 := by
      by_cases hb53 : b < 2 ^ 53
      · refine Or.inl ?_
        rw [hlead, leading_of_lt hb53, hlog]
        exact Nat.mul_lt_mul_of_pos_right h (Nat.two_pow_pos _)
      · -- a number of another length than the first one
        have hge : (2 ^ 53).log2 ≤ b.log2 := log2_le_of_le (Nat.le_of_not_lt hb53)
        have hlt : a.log2 ≤ 52 := log2_le_of_lt hsmall
        rw [Nat.log2_two_pow] at hge
        omega
    cases ha <;> cases hb <;> omega

end Leads

/-! ### Whole numbers as floats -/

/-- A significand with an exponent, which is infinite where the exponent is too large. -/
inductive Holds (s : Sign) (m : Nat) (e : Int) : UnpackedFloat → Prop
  | finite (hm : 0 < m) (he : e ≤ 971) : Holds s m e (.finite s m e hm)
  | infinity (he : 971 < e) : Holds s m e (.infinity s)

theorem holds_unpack_pack {m : Nat} {e : Int} (hm : 0 < m) (hlow : 2 ^ 52 ≤ m) (hhigh : m < 2 ^ 53)
    (he : -1074 ≤ e) (s : Sign) : Holds s m e (Float.Model.pack (.finite s m e hm)).unpack := by
  by_cases hlarge : e ≤ 971
  · rw [unpack_pack_normal hm hlow hhigh he hlarge s]
    exact .finite hm hlarge
  · have hinfinite : (Float.Model.pack (.finite s m e hm)).unpack = .infinity s := by
      show unpack .binary64 (pack .binary64 (.finite s m e hm)) = .infinity s
      have hbiased : (e + Format.exponentBias .binary64 + (52 : Nat)).toNat = (e + 1075).toNat := by
        rw [show (Format.exponentBias .binary64 : Int) = 1023 from rfl, Int.add_assoc]
        rfl
      unfold pack
      simp only [hbiased]
      rw [if_pos (show 2 ^ 11 ≤ (e + 1075).toNat + 1 by omega)]
      cases s <;> rfl
    rw [hinfinite]
    exact .infinity (by omega)

theorem shiftToTargetExponent_eq (accuracy : Accuracy) {m k : Nat} {e : Int}
    (h : (max (totalExponent m e - 53) (-1074) - e).toNat = k) :
    shiftToTargetExponent .binary64 m e accuracy =
      (ExtendedMantissa.ofMantissaAndAccuracy m accuracy >>> k, e + k) := by
  subst h
  rfl

theorem roundWithAccuracy_eq {m : Nat} {e e' e'' : Int} {accuracy : Accuracy}
    {em em' : ExtendedMantissa} (s : Sign)
    (hfirst : shiftToTargetExponent .binary64 m e accuracy = (em, e'))
    (hsecond : shiftToTargetExponent .binary64 em.roundedMantissa e' .exact = (em', e''))
    (hpos : 0 < em'.mantissa) :
    roundWithAccuracy .binary64 s m e accuracy = .finite s em'.mantissa e'' hpos := by
  unfold roundWithAccuracy
  simp only [hfirst, hsecond, dif_neg (Nat.ne_of_gt hpos)]

/-- Rounding gives the leading digits of a number.  Zeros behind the digits leave no trace, and a
power of two is carried along as long as the digits are not too small for it. -/
theorem exists_roundWithAccuracy {n j : Nat} {k : Int} (hpos : 0 < n) (hj : j ≤ 53)
    (hlong : 52 ≤ n.log2 + j) (hk : -1022 ≤ n.log2 + k) (s : Sign) :
    ∃ m e hm, Leads n m e ∧
      roundWithAccuracy .binary64 s (n * 2 ^ j) (k - j) .exact = .finite s m (k + e) hm := by
  have hlog := log2_mul_two_pow (Nat.ne_of_gt hpos) j
  have hdigits : ExtendedMantissa.ofMantissaAndAccuracy (n * 2 ^ j) .exact >>> (n.log2 + j - 52) =
      ExtendedMantissa.ofMantissaAndAccuracy (n * 2 ^ 53) .exact >>> (n.log2 + 1) := by
    have hzeros : n * 2 ^ 53 = n * 2 ^ j * 2 ^ (53 - j) := by
      rw [Nat.mul_assoc, ← Nat.pow_add, Nat.add_sub_cancel' hj]
    have hshift : n.log2 + 1 = 53 - j + (n.log2 + j - 52) := by omega
    rw [hzeros, hshift, shiftRight_add, shiftRight_exact]
  have hfirst := shiftToTargetExponent_eq .exact (m := n * 2 ^ j) (e := k - j)
    (k := n.log2 + j - 52) (by
      unfold totalExponent
      omega)
  rw [hdigits, show k - j + ((n.log2 + j - 52 : Nat) : Int) = k + (n.log2 - 52) by omega] at hfirst
  obtain ⟨hlow, hhigh⟩ := leading_bounds hpos
  rcases Nat.lt_or_eq_of_le hhigh with hplain | hcarried
  · have hsecond := shiftToTargetExponent_eq .exact (m := leading n) (e := k + (n.log2 - 52))
      (k := 0) (by
      have := log2_eq_of_leading hlow hplain
      unfold totalExponent
      omega)
    rw [Int.natCast_zero, Int.add_zero] at hsecond
    exact ⟨leading n, _, by omega, .plain hplain, roundWithAccuracy_eq s hfirst hsecond (by
      rw [mantissa_shiftRight, mantissa_ofMantissaAndAccuracy]
      omega)⟩
  · have hsecond := shiftToTargetExponent_eq .exact (m := leading n) (e := k + (n.log2 - 52))
      (k := 1) (by
      have : (2 ^ 53).log2 = 53 := Nat.log2_two_pow
      rw [hcarried]
      unfold totalExponent
      omega)
    have hmantissa : (ExtendedMantissa.ofMantissaAndAccuracy (leading n) .exact >>> 1).mantissa =
        2 ^ 52 := by
      have hhalf : leading n / 2 ^ 1 = 2 ^ 52 := by omega
      rw [mantissa_shiftRight, mantissa_ofMantissaAndAccuracy, hhalf]
    refine ⟨2 ^ 52, n.log2 - 51, by decide, .carried hcarried, ?_⟩
    rw [roundWithAccuracy_eq s hfirst hsecond (by rw [hmantissa]; decide)]
    simp only [hmantissa]
    congr 1
    omega

theorem ofScientific_zero {n : Nat} (hpos : 0 < n) :
    UnpackedFloat.ofScientific .binary64 n 0 =
      roundWithAccuracy .binary64 .positive (n * 2 ^ 53) (-53) .exact := by
  unfold UnpackedFloat.ofScientific
  have hexponent : (2 : Int) ^ Format.exponentBits .binary64 = 2048 := by decide
  rw [dif_neg (Nat.ne_of_gt hpos), if_neg (by decide), if_neg (by omega), if_pos (by decide)]
  unfold mul
  dsimp only
  simp only [Int.toNat_zero, Nat.pow_zero, Nat.mul_one, Nat.shiftLeft_eq, Int.add_zero]
  rfl

/-- The float of a whole number above zero. -/
theorem exists_leads {n : Nat} (hpos : 0 < n) :
    ∃ m e, Leads n m e ∧ Holds .positive m e (Float.ofNat n).toModel.unpack := by
  by_cases hsmall : n < 2 ^ 53
  · have hlog : n.log2 ≤ 52 := log2_le_of_lt hsmall
    obtain ⟨-, -, hhigh, hm, hunpack⟩ := spells_ofNat hpos hsmall
    rw [← leading_of_lt hsmall] at hhigh
    refine ⟨leading n, n.log2 - 52, .plain hhigh, ?_⟩
    rw [hunpack]
    have hexponent : (-((52 - n.log2 : Nat) : Int)) = n.log2 - 52 := by omega
    simp only [← leading_of_lt hsmall, hexponent]
    exact .finite _ (by omega)
  · obtain ⟨m, e, hm, hleads, hround⟩ := exists_roundWithAccuracy (j := 53) (k := 0) hpos
      (Nat.le_refl _) (by omega) (by omega) .positive
    rw [Int.zero_add, Int.zero_sub] at hround
    obtain ⟨hlow, hhigh, he⟩ := hleads.bounds hpos
    have hfloat : Float.ofNat n =
        .ofModel (Float.Model.pack (UnpackedFloat.ofScientific .binary64 n 0)) := by
      show Float.ofScientific n false 0 = _
      unfold Float.ofScientific
      rw [dif_neg fun h => hsmall h.1]
      rfl
    refine ⟨m, e, hleads, ?_⟩
    rw [hfloat, ofScientific_zero hpos]
    have hexponent : (-53 : Int) = -((53 : Nat) : Int) := rfl
    rw [hexponent, hround]
    exact holds_unpack_pack hm hlow hhigh (by omega) .positive

/-- The negative of a whole number is as exact as the number. -/
theorem exists_leads_neg {n : Nat} (hpos : 0 < n) :
    ∃ m e, Leads n m e ∧ Holds .negative m e (Float.ofNat n).neg.toModel.unpack := by
  obtain ⟨m, e, hleads, hholds⟩ := exists_leads hpos
  obtain ⟨hlow, hhigh, he⟩ := hleads.bounds hpos
  refine ⟨m, e, hleads, ?_⟩
  show Holds .negative m e (Float.Model.pack (Float.ofNat n).toModel.unpack.neg).unpack
  generalize (Float.ofNat n).toModel.unpack = f at hholds
  cases hholds with
  | finite hm => exact holds_unpack_pack hm hlow hhigh (by omega) .negative
  | infinity hlarge =>
      show Holds .negative m e (Float.Model.pack (.infinity .negative)).unpack
      rw [unpack_pack_infinity]
      exact .infinity hlarge

/-! ### Places -/

/-- Where a number stands among all numbers: the group that it is in, from minus infinity to
infinity, and within it the exponent before the significand. -/
def place : UnpackedFloat → Int × Int × Int
  | .infinity .negative => (-2, 0, 0)
  | .finite .negative m e _ => (-1, -e, -m)
  | .zero _ => (0, 0, 0)
  | .finite .positive m e _ => (1, e, m)
  | .infinity .positive => (2, 0, 0)
  | .notANumber => (3, 0, 0)

/-- One place comes before another one. -/
def Before (p q : Int × Int × Int) : Prop :=
  p.1 < q.1 ∨ p.1 = q.1 ∧ (p.2.1 < q.2.1 ∨ p.2.1 = q.2.1 ∧ p.2.2 < q.2.2)

instance (p q : Int × Int × Int) : Decidable (Before p q) :=
  inferInstanceAs (Decidable (_ ∨ _))

theorem compare_eq_lt_iff {f g : UnpackedFloat} (hf : f.isNaN = false) (hg : g.isNaN = false) :
    f.compare g = some .lt ↔ Before (place f) (place g) := by
  cases f with
  | notANumber => contradiction
  | infinity s =>
      cases g with
      | notANumber => contradiction
      | infinity s' => cases s <;> cases s' <;> simp [UnpackedFloat.compare, place, Before]; decide
      | zero s' => cases s <;> simp [UnpackedFloat.compare, place, Before]
      | finite s' => cases s <;> cases s' <;> simp [UnpackedFloat.compare, place, Before]
  | zero s =>
      cases g with
      | notANumber => contradiction
      | infinity s' => cases s' <;> simp [UnpackedFloat.compare, place, Before]
      | zero s' => simp [UnpackedFloat.compare, place, Before]
      | finite s' => cases s' <;> simp [UnpackedFloat.compare, place, Before]
  | finite s m e hm =>
      cases g with
      | notANumber => contradiction
      | infinity s' => cases s <;> cases s' <;> simp [UnpackedFloat.compare, place, Before]
      | zero s' => cases s <;> simp [UnpackedFloat.compare, place, Before]
      | finite s' m' e' hm' =>
          cases s <;> cases s' <;>
            simp [UnpackedFloat.compare, place, Before, Ordering.then_eq_lt, Ordering.swap_then,
              Int.compare_swap, Nat.compare_swap, Int.compare_eq_lt, Nat.compare_eq_lt]
          omega

section Numbers

variable {x y z : Float}

theorem lt_iff_before (hx : x.isNaN = false) (hy : y.isNaN = false) :
    x < y ↔ Before (place x.toModel.unpack) (place y.toModel.unpack) := by
  rw [lt_iff_compare, compare_eq_lt_iff hx hy]

theorem lt_of_not_lt_of_lt (hx : x.isNaN = false) (hy : y.isNaN = false) (hz : z.isNaN = false)
    (hxy : ¬ y < x) (hyz : y < z) : x < z := by
  rw [lt_iff_before] at * <;> try assumption
  unfold Before at *
  omega

theorem lt_of_lt_of_not_lt (hx : x.isNaN = false) (hy : y.isNaN = false) (hz : z.isNaN = false)
    (hxy : x < y) (hyz : ¬ z < y) : x < z := by
  rw [lt_iff_before] at * <;> try assumption
  unfold Before at *
  omega

/-- Two numbers are the same float if neither is below the other. -/
theorem beq_iff_not_lt (hx : x.isNaN = false) (hy : y.isNaN = false) :
    (x == y) = true ↔ ¬ x < y ∧ ¬ y < x := by
  have hbeq : (x == y) = true ↔ x.toModel.unpack.compare y.toModel.unpack = some .eq := by
    show (x.toModel.unpack.compare y.toModel.unpack == some .eq) = true ↔ _
    simp
  rw [hbeq, lt_iff_compare, lt_iff_compare, compare_swap x.toModel.unpack]
  cases hcompare : x.toModel.unpack.compare y.toModel.unpack with
  | none => exact absurd hcompare (compare_ne_none hx hy)
  | some o => cases o <;> decide

end Numbers

/-! ### The order of whole numbers -/

/-- The place of a significand with an exponent, which is infinite where the exponent is too
large; `sign` is one or minus one. -/
def spot (sign : Int) (m : Nat) (e : Int) : Int × Int × Int :=
  if e ≤ 971 then (sign, sign * e, sign * m) else (2 * sign, 0, 0)

theorem Holds.place_eq {m : Nat} {e : Int} {f : UnpackedFloat} :
    (Holds .positive m e f → f.isNaN = false ∧ place f = spot 1 m e) ∧
      (Holds .negative m e f → f.isNaN = false ∧ place f = spot (-1) m e) := by
  constructor
  all_goals
    rintro (⟨hm, he⟩ | he)
    · simp [UnpackedFloat.isNaN, place, spot, he]
    · simp [UnpackedFloat.isNaN, place, spot, Int.not_le.mpr he]

/-- Where a whole number stands when it has become a float. -/
inductive Stands : Int → Int × Int × Int → Prop
  | zero : Stands 0 (0, 0, 0)
  | above {n m : Nat} {e : Int} (hpos : 0 < n) (h : Leads n m e) : Stands n (spot 1 m e)
  | below {n m : Nat} {e : Int} (hpos : 0 < n) (h : Leads n m e) : Stands (-n) (spot (-1) m e)

theorem stands_ofInt (n : Int) :
    (Float.ofInt n).isNaN = false ∧ Stands n (place (Float.ofInt n).toModel.unpack) := by
  show (Float.ofInt n).toModel.unpack.isNaN = false ∧ _
  cases n with
  | ofNat n =>
      rcases Nat.eq_zero_or_pos n with rfl | hpos
      · exact ⟨rfl, .zero⟩
      · obtain ⟨m, e, hleads, hholds⟩ := exists_leads hpos
        obtain ⟨hnumber, hplace⟩ := Holds.place_eq.1 hholds
        exact ⟨hnumber, hplace ▸ .above hpos hleads⟩
  | negSucc n =>
      obtain ⟨m, e, hleads, hholds⟩ := exists_leads_neg (Nat.succ_pos n)
      obtain ⟨hnumber, hplace⟩ := Holds.place_eq.2 hholds
      exact ⟨hnumber, hplace ▸ .below (Nat.succ_pos n) hleads⟩

section Stands

variable {m m' : Nat} {e e' : Int} {a b : Int} {p q : Int × Int × Int}

theorem before_of_fst (h : p.1 < q.1) : Before p q ∧ ¬ Before q p := by
  unfold Before
  omega

theorem spot_fst (m : Nat) (e : Int) : 0 < (spot 1 m e).1 ∧ (spot (-1) m e).1 < 0 := by
  unfold spot
  split <;> simp

theorem not_before_spot (h : e < e' ∨ e = e' ∧ m ≤ m') :
    ¬ Before (spot 1 m' e') (spot 1 m e) ∧ ¬ Before (spot (-1) m e) (spot (-1) m' e') := by
  unfold Before spot
  by_cases he : e ≤ 971 <;> by_cases he' : e' ≤ 971 <;> simp [he, he'] <;> omega

theorem before_spot (h : e < e' ∨ e = e' ∧ m < m') (he : e ≤ 971) :
    Before (spot 1 m e) (spot 1 m' e') ∧ Before (spot (-1) m' e') (spot (-1) m e) := by
  unfold Before spot
  by_cases he' : e' ≤ 971
  · simp [he, he']
    omega
  · simp [he, he']

theorem Stands.mono (ha : Stands a p) (hb : Stands b q) (h : a ≤ b) : ¬ Before q p := by
  cases ha with
  | zero =>
      cases hb with
      | zero => decide
      | above => exact (before_of_fst (spot_fst _ _).1).2
      | below => omega
  | above hpos hleads =>
      cases hb with
      | zero => omega
      | above _ hleads' => exact (not_before_spot (hleads.mono hleads' hpos (by omega))).1
      | below => omega
  | below _ hleads =>
      cases hb with
      | zero => exact (before_of_fst (spot_fst _ _).2).2
      | above => exact (before_of_fst (Int.lt_trans (spot_fst _ _).2 (spot_fst _ _).1)).2
      | below hpos hleads' => exact (not_before_spot (hleads'.mono hleads hpos (by omega))).2

theorem Stands.strictMono (ha : Stands a p) (hb : Stands b q) (h : a < b)
    (hsmall : a.natAbs < 2 ^ 53 ∨ b.natAbs < 2 ^ 53) : Before p q := by
  have hexponent : ∀ {n m : Nat} {e : Int}, Leads n m e → n < 2 ^ 53 → e ≤ 971 := by
    intro n m e hleads hn
    have := log2_le_of_lt hn
    cases hleads <;> omega
  cases ha with
  | zero =>
      cases hb with
      | zero => omega
      | above => exact (before_of_fst (spot_fst _ _).1).1
      | below => omega
  | @above n _ _ hpos hleads =>
      cases hb with
      | zero => omega
      | above _ hleads' =>
          have hn : n < 2 ^ 53 := by omega
          exact (before_spot (hleads.strictMono hleads' hpos (by omega) hn) (hexponent hleads hn)).1
      | below => omega
  | below _ hleads =>
      cases hb with
      | zero => exact (before_of_fst (spot_fst _ _).2).1
      | above => exact (before_of_fst (Int.lt_trans (spot_fst _ _).2 (spot_fst _ _).1)).1
      | @below n _ _ hpos hleads' =>
          have hn : n < 2 ^ 53 := by omega
          exact (before_spot (hleads'.strictMono hleads hpos (by omega) hn)
            (hexponent hleads' hn)).2

/-- **Whole numbers keep their order as floats.** -/
theorem ofInt_not_lt (h : a ≤ b) : ¬ Float.ofInt b < Float.ofInt a := by
  obtain ⟨hnumber, hstands⟩ := stands_ofInt a
  obtain ⟨hnumber', hstands'⟩ := stands_ofInt b
  rw [lt_iff_before hnumber' hnumber]
  exact hstands.mono hstands' h

/-- **Whole numbers are apart as floats if one of them is below `2^53` in size.** -/
theorem ofInt_lt (h : a < b) (hsmall : a.natAbs < 2 ^ 53 ∨ b.natAbs < 2 ^ 53) :
    Float.ofInt a < Float.ofInt b := by
  obtain ⟨hnumber, hstands⟩ := stands_ofInt a
  obtain ⟨hnumber', hstands'⟩ := stands_ofInt b
  rw [lt_iff_before hnumber hnumber']
  exact hstands.strictMono hstands' h hsmall

end Stands

end Screenwright.Number
