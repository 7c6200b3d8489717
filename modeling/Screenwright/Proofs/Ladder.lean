/-
The steps of a type scale, and when they stay apart.

A step is the one before it times the ratio, both rounded to hundredths.  Where a step measures at
least four hundredths the next one is a hundredth larger, and rounding keeps them apart.  A smaller
step may fall together with the next one, depending on where the halves lie between which rounding
decides; that happens for small base sizes, and for the smallest ones a step vanishes.
-/
import Mathlib.Algebra.Order.Field.Power
import Mathlib.Algebra.Order.Field.Rat
import Mathlib.Data.Rat.Floor
import Mathlib.Tactic.FieldSimp
import Mathlib.Tactic.Linarith
import Mathlib.Tactic.NormNum
import Mathlib.Tactic.Positivity
import Mathlib.Tactic.Ring
import Screenwright.Design.TypeScale
import Screenwright.Proofs.Tables

namespace Screenwright

/-! ### Exact numbers -/

namespace Measure

theorem powerFrom_eq (n : ℕ) : ∀ acc base : ℚ, powerFrom acc base n = acc * base ^ n := by
  induction n using Nat.strong_induction_on with
  | _ n ih =>
    intro acc base
    unfold powerFrom
    split
    next hzero => simp [hzero]
    next hpos =>
      have hsplit : base ^ n = (if n % 2 = 1 then base else 1) * (base * base) ^ (n / 2) := by
        conv_lhs => rw [← Nat.div_add_mod n 2, pow_add, pow_mul, pow_two]
        rcases Nat.mod_two_eq_zero_or_one n with h | h <;> simp [h, mul_comm]
      have hnext : (if n % 2 = 1 then acc * base else acc) * (base * base) ^ (n / 2) =
          acc * base ^ n := by
        rw [hsplit]
        split <;> ring
      dsimp only
      split
      next hlast => simpa [hlast] using hnext
      next => exact (ih (n / 2) (by omega) _ _).trans hnext

theorem power_eq (base : ℚ) (n : ℤ) : power base n = base ^ n := by
  have hone : (1.0 : ℚ) = 1 := by norm_num
  cases n with
  | ofNat n =>
      change powerFrom (1.0 : ℚ) base n = base ^ (n : ℤ)
      rw [powerFrom_eq, hone, one_mul, zpow_natCast]
  | negSucc n =>
      change (1.0 : ℚ) / powerFrom (1.0 : ℚ) base (n + 1) = base ^ Int.negSucc n
      rw [powerFrom_eq, hone, one_mul, zpow_negSucc, one_div]

theorem roundHundredths_eq {x : ℚ} (h : 0 ≤ x) :
    roundHundredths x = (⌊100 * x + 1 / 2⌋ : ℚ) / 100 := by
  have hhundred : (100.0 : ℚ) = 100 := by norm_num
  change roundRat (x * (100.0 : ℚ)) / (100.0 : ℚ) = _
  rw [hhundred, mul_comm, roundRat, if_pos (by positivity)]
  rfl

end Measure

/-! ### Steps in hundredths -/

namespace Typography

/-- A step of the scale in hundredths, before it is rounded. -/
def hundredths (base : ℚ) (power : ℤ) : ℚ :=
  100 * (base * (5 / 4) ^ power)

/-- A step of the scale in hundredths. -/
def units (base : ℚ) (power : ℤ) : ℤ :=
  ⌊hundredths base power + 1 / 2⌋

variable {base : ℚ} {j k n : ℤ}

theorem sizeOf_eq (hpos : 0 < base) (power : ℤ) :
    sizeOf base defaultRatio power = units base power / 100 := by
  have hratio : (defaultRatio : ℚ) = 5 / 4 := by
    change (1.25 : ℚ) = 5 / 4
    norm_num
  rw [sizeOf, Measure.power_eq, hratio]
  exact Measure.roundHundredths_eq (by positivity)

theorem hundredths_add_one (base : ℚ) (power : ℤ) :
    hundredths base (power + 1) = 5 / 4 * hundredths base power := by
  rw [hundredths, hundredths, zpow_add_one₀ (by norm_num)]
  ring

theorem le_units_iff : n ≤ units base k ↔ n ≤ hundredths base k + 1 / 2 :=
  Int.le_floor

theorem units_lt_iff : units base k < n ↔ hundredths base k + 1 / 2 < n :=
  Int.floor_lt

theorem hundredths_mono (hpos : 0 < base) (h : j ≤ k) : hundredths base j ≤ hundredths base k := by
  have hpower : (5 / 4 : ℚ) ^ j ≤ (5 / 4) ^ k := zpow_le_zpow_right₀ (by norm_num) h
  unfold hundredths
  gcongr

theorem units_mono (hpos : 0 < base) (h : j ≤ k) : units base j ≤ units base k := by
  have hle := hundredths_mono hpos h
  exact Int.floor_le_floor (by linarith)

/-- A step of four hundredths is a hundredth away from the next one. -/
theorem units_lt_next (h : 4 ≤ hundredths base k) : units base k < units base (k + 1) := by
  have hfloor : (units base k : ℚ) ≤ hundredths base k + 1 / 2 := Int.floor_le _
  rw [← Int.add_one_le_iff, le_units_iff, hundredths_add_one]
  push_cast
  linarith

/-- Steps are apart if rounding takes them to different sides of a number. -/
theorem units_lt_of_between (hlow : hundredths base j + 1 / 2 < n)
    (hhigh : n ≤ hundredths base k + 1 / 2) : units base j < units base k :=
  (units_lt_iff.mpr hlow).trans_le (le_units_iff.mpr hhigh)

/-! ### Ladders -/

/-- Every step is larger than the one before it, and every text has a size. -/
structure StaysApart (t : Typography ℚ) : Prop where
  increasing : (t.scale.map Prod.snd).Pairwise (· < ·)
  positive : ∀ size ∈ t.scale.map Prod.snd, 0 < size
  fonts : ∀ slot style, t.font? slot = some style → 0 < style.size

/-- No step is larger than a later one. -/
def IsOrdered (t : Typography ℚ) : Prop :=
  (t.scale.map Prod.snd).Pairwise (· ≤ ·)

/-- The powers of the ratio that the steps stand for. -/
def powers : List ℤ := ladder.map Prod.snd

theorem sizes_generate (hpos : 0 < base) :
    (generate base defaultRatio).scale.map Prod.snd =
      powers.map fun power => (units base power / 100 : ℚ) := by
  simp only [generate, powers, List.map_map]
  exact List.map_congr_left fun step _ => sizeOf_eq hpos step.2

theorem pairwise_powers : powers.Pairwise (· < ·) := by
  decide

theorem isOrdered_generate (hpos : 0 < base) : (generate base defaultRatio).IsOrdered := by
  rw [IsOrdered, sizes_generate hpos, List.pairwise_map]
  refine pairwise_powers.imp fun {j k} hlt => ?_
  have hle : (units base j : ℚ) ≤ units base k := by exact_mod_cast units_mono hpos hlt.le
  gcongr

/-- The size of a font is a size of the scale. -/
theorem size_mem_of_font? {base ratio : ℚ} {slot : String} {style : TextStyle ℚ}
    (h : (generate base ratio).font? slot = some style) :
    style.size ∈ (generate base ratio).scale.map Prod.snd := by
  have hstyles : ∀ entry ∈ (generate base ratio).styles,
      entry.2.size ∈ (generate base ratio).scale.map Prod.snd := by
    simp [generate, styleTable, ladder]
  unfold font? at h
  split at h
  next found hlookup =>
    cases h
    exact hstyles _ (Entries.mem_of_lookup hlookup)
  next =>
    obtain ⟨size, hlookup, rfl⟩ := Option.map_eq_some_iff.mp h
    exact List.mem_map_of_mem (Entries.mem_of_lookup hlookup)

/-- The steps stay apart if neighbours do and the first one does not vanish. -/
theorem staysApart_of_neighbours (hpos : 0 < base) (hfirst : 1 ≤ units base (-2))
    (hnext : ∀ k, -2 ≤ k → units base k < units base (k + 1)) :
    (generate base defaultRatio).StaysApart := by
  have hlow : ∀ k ∈ powers, -2 ≤ k := by decide
  have hpositive : ∀ size ∈ (generate base defaultRatio).scale.map Prod.snd, 0 < size := by
    rw [sizes_generate hpos, List.forall_mem_map]
    intro k hk
    have hunit : (1 : ℚ) ≤ units base k := by
      exact_mod_cast hfirst.trans (units_mono hpos (hlow k hk))
    positivity
  refine ⟨?_, hpositive, fun slot style h => hpositive _ (size_mem_of_font? h)⟩
  rw [sizes_generate hpos, List.pairwise_map]
  refine pairwise_powers.imp_of_mem fun {j k} hj _ hlt => ?_
  have hunits : (units base j : ℚ) < units base k := by
    exact_mod_cast (hnext j (hlow j hj)).trans_le (units_mono hpos (Int.add_one_le_iff.mpr hlt))
  gcongr

section StaysApart

variable (hpos : 0 < base) (h : (generate base defaultRatio).StaysApart)
include hpos h

theorem StaysApart.one_le_units : 1 ≤ units base (-2) := by
  have hfirst : (0 : ℚ) < units base (-2) / 100 :=
    h.positive _ (by rw [sizes_generate hpos]; exact List.mem_cons_self)
  have hunits : (0 : ℚ) < units base (-2) := by linarith
  exact_mod_cast hunits

theorem StaysApart.units_lt : powers.Pairwise fun j k => units base j < units base k := by
  have hincreasing := h.increasing
  rw [sizes_generate hpos, List.pairwise_map] at hincreasing
  refine hincreasing.imp fun {j k} hlt => ?_
  exact_mod_cast (div_lt_div_iff_of_pos_right (by norm_num : (0 : ℚ) < 100)).mp hlt

end StaysApart

/-! ### Base sizes -/

/-- A base size of which rounding makes different steps. -/
def IsRoomy (base : ℚ) : Prop :=
  (9 / 250 ≤ base ∧ base < 5 / 128) ∨ (9 / 200 ≤ base ∧ base < 7 / 128) ∨ 9 / 160 ≤ base

/-- The first steps, up to the one after the base size. -/
theorem hundredths_first (base : ℚ) :
    hundredths base (-2) = 64 * base ∧ hundredths base (-1) = 80 * base ∧
      hundredths base 0 = 100 * base ∧ hundredths base 1 = 125 * base := by
  refine ⟨?_, ?_, ?_, ?_⟩ <;> norm_num [hundredths, zpow_neg] <;> ring

/-- Only the steps in front of one of four hundredths have to be compared. -/
theorem staysApart_of_hundredths (hpos : 0 < base) (hfirst : 1 ≤ units base (-2)) {p : ℤ}
    (h : 4 ≤ hundredths base p)
    (hnext : ∀ k, -2 ≤ k → k < p → units base k < units base (k + 1)) :
    (generate base defaultRatio).StaysApart :=
  staysApart_of_neighbours hpos hfirst fun k hk => (lt_or_ge k p).elim (hnext k hk)
    fun hge => units_lt_next (h.trans (hundredths_mono hpos hge))

theorem staysApart_of_isRoomy (hpos : 0 < base) (h : IsRoomy base) :
    (generate base defaultRatio).StaysApart := by
  obtain ⟨hxs, hsm, hbase, hlg⟩ := hundredths_first base
  have hfirst : 9 / 250 ≤ base → 1 ≤ units base (-2) := fun hlow => by
    rw [le_units_iff, hxs]
    push_cast
    linarith
  rcases h with ⟨hlow, hhigh⟩ | ⟨hlow, hhigh⟩ | hlow
  · -- three, four and five hundredths lie between the first steps
    refine staysApart_of_hundredths hpos (hfirst hlow) (p := 1) (by linarith) fun k hk hlt => ?_
    obtain rfl | rfl | rfl : k = -2 ∨ k = -1 ∨ k = 0 := by omega
    · exact units_lt_of_between (n := 3) (by push_cast; linarith) (by push_cast; linarith)
    · exact units_lt_of_between (n := 4) (by push_cast; linarith) (by push_cast; linarith)
    · exact units_lt_of_between (n := 5) (by push_cast; linarith) (by push_cast; linarith)
  · -- four and five hundredths
    refine staysApart_of_hundredths hpos (hfirst (by linarith)) (p := 0) (by linarith)
      fun k hk hlt => ?_
    obtain rfl | rfl : k = -2 ∨ k = -1 := by omega
    · exact units_lt_of_between (n := 4) (by push_cast; linarith) (by push_cast; linarith)
    · exact units_lt_of_between (n := 5) (by push_cast; linarith) (by push_cast; linarith)
  · rcases lt_or_ge base (1 / 16) with hsmall | hlarge
    · refine staysApart_of_hundredths hpos (hfirst (by linarith)) (p := -1) (by linarith)
        fun k hk hlt => ?_
      obtain rfl : k = -2 := by omega
      exact units_lt_of_between (n := 5) (by push_cast; linarith) (by push_cast; linarith)
    · exact staysApart_of_hundredths hpos (hfirst (by linarith)) (p := -2) (by linarith)
        fun k hk hlt => by omega

theorem isRoomy_of_staysApart (hpos : 0 < base) (h : (generate base defaultRatio).StaysApart) :
    IsRoomy base := by
  obtain ⟨hxs, hsm, hbase, hlg⟩ := hundredths_first base
  have hpairs := h.units_lt hpos
  have hfirst := h.one_le_units hpos
  simp only [powers, ladder, List.map_cons, List.pairwise_cons, List.forall_mem_cons] at hpairs
  obtain ⟨⟨hsm_lt, -⟩, ⟨hbase_lt, -⟩, ⟨hlg_lt, -⟩, -⟩ := hpairs
  unfold IsRoomy
  by_contra hcrowded
  simp only [not_or, not_and_or, not_le, not_lt] at hcrowded
  obtain ⟨h₁, h₂, h₃⟩ := hcrowded
  -- between the ranges one of the first steps does not reach the number of hundredths it has to
  rcases lt_or_ge base (9 / 250) with hlow | hlow
  · have hlast : units base 1 < 5 := by
      rw [units_lt_iff, hlg]
      push_cast
      linarith
    have hone : units base (-2) < 2 := by omega
    have hfour : 4 ≤ units base 1 := by omega
    rw [units_lt_iff, hxs] at hone
    rw [le_units_iff, hlg] at hfour
    push_cast at hone hfour
    linarith
  rcases lt_or_ge base (9 / 200) with hlow' | hlow'
  · have hhigh : 5 / 128 ≤ base := h₁.resolve_left (not_lt.mpr hlow)
    have hthree : 3 ≤ units base (-2) := by
      rw [le_units_iff, hxs]
      push_cast
      linarith
    have hfive : units base 0 < 5 := by
      rw [units_lt_iff, hbase]
      push_cast
      linarith
    omega
  · have hhigh : 7 / 128 ≤ base := h₂.resolve_left (not_lt.mpr hlow')
    have hfour : 4 ≤ units base (-2) := by
      rw [le_units_iff, hxs]
      push_cast
      linarith
    have hfive : units base (-1) < 5 := by
      rw [units_lt_iff, hsm]
      push_cast
      linarith
    omega

end Typography

/-- **The steps of a scale never fall, and they stay apart for exactly the roomy base sizes.** -/
theorem ladder_stays_apart_iff (base : ℚ) (hpos : 0 < base) :
    (Typography.generate base Typography.defaultRatio).IsOrdered ∧
      ((Typography.generate base Typography.defaultRatio).StaysApart ↔ Typography.IsRoomy base) :=
  ⟨Typography.isOrdered_generate hpos, Typography.isRoomy_of_staysApart hpos,
    Typography.staysApart_of_isRoomy hpos⟩

/-- The steps of a base size in the second of the three ranges. -/
theorem ladder_of_small_base : (0 : ℚ) < 9 / 200 ∧
    (Typography.generate (9 / 200 : ℚ) Typography.defaultRatio).StaysApart :=
  ⟨by norm_num, ((ladder_stays_apart_iff (9 / 200) (by norm_num)).2).mpr
    (Or.inr (Or.inl (by norm_num)))⟩

/-- The first step of a tenth of a hundredth is rounded to nothing. -/
theorem ladder_of_speck : (0 : ℚ) < 1 / 1000 ∧
    (Typography.generate (1 / 1000 : ℚ) Typography.defaultRatio).scale.lookup "xs" = some 0 ∧
    ¬ (Typography.generate (1 / 1000 : ℚ) Typography.defaultRatio).StaysApart := by
  have hpos : (0 : ℚ) < 1 / 1000 := by norm_num
  have hxs := (Typography.hundredths_first (1 / 1000)).1
  have hlow : 0 ≤ Typography.units (1 / 1000) (-2) := by
    rw [Typography.le_units_iff, hxs]
    norm_num
  have hhigh : Typography.units (1 / 1000) (-2) < 1 := by
    rw [Typography.units_lt_iff, hxs]
    norm_num
  have hzero : Typography.units (1 / 1000) (-2) = 0 := by omega
  refine ⟨hpos, ?_, fun h => not_lt.mpr (h.one_le_units hpos) hhigh⟩
  change some (Typography.sizeOf (1 / 1000 : ℚ) Typography.defaultRatio (-2)) = some 0
  rw [Typography.sizeOf_eq hpos, hzero, Int.cast_zero, zero_div]

end Screenwright
