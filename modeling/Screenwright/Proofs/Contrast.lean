/-
A repaired contrast is the best one on the way away from the background.

The repair walks along a fixed way: from the color itself, in steps that are moved into range,
away from the side of the middle that the background is on.  The way may pass through the
lightness of the background, so that the contrast need not grow along it.  What the walk keeps is
that its best color is on the way and that no color before or at the present step surpasses it.
-/
import Mathlib.Algebra.Order.Field.Rat
import Mathlib.Algebra.Order.Group.Abs
import Mathlib.Order.Bounds.Defs
import Mathlib.Tactic.Linarith
import Mathlib.Tactic.NormNum
import Mathlib.Tactic.Positivity
import Mathlib.Tactic.Ring
import Screenwright.Design.Palette

namespace Screenwright

/-! ### Exact numbers -/

namespace Measure

theorem distance_eq (a b : ℚ) : distance a b = |a - b| := by
  change (if a ≤ b then b - a else a - b) = |a - b|
  split
  next h => rw [abs_sub_comm, abs_of_nonneg (sub_nonneg.mpr h)]
  next h => rw [abs_of_nonneg (sub_nonneg.mpr (le_of_not_ge h))]

theorem clampUnit_eq (x : ℚ) : clampUnit x = max 0 (min 1 x) := by
  have hzero : (0.0 : ℚ) = 0 := by norm_num
  have hone : (1.0 : ℚ) = 1 := by norm_num
  change (if x < (0.0 : ℚ) then (0.0 : ℚ) else if (1.0 : ℚ) < x then (1.0 : ℚ) else x) = _
  rw [hzero, hone]
  split
  next h => rw [max_eq_left ((min_le_right 1 x).trans h.le)]
  next h =>
    have hpos := not_lt.mp h
    split
    next habove => rw [min_eq_left habove.le, max_eq_right zero_le_one]
    next habove => rw [min_eq_right (not_lt.mp habove), max_eq_right hpos]

end Measure

theorem contrast_eq (fg bg : Color ℚ) : contrast fg bg = |fg.l - bg.l| :=
  Measure.distance_eq fg.l bg.l

namespace Color

theorem isLight_iff {color : Color ℚ} : color.isLight = true ↔ 1 / 2 ≤ color.l := by
  have hmiddle : (0.5 : ℚ) = 1 / 2 := by norm_num
  rw [← hmiddle]
  exact decide_eq_true_iff

/-! ### The way away from a background -/

/-- The lightness of `fg` after some steps away from the side of the middle that `bg` is on. -/
def lightnessAfter (fg bg : Color ℚ) (steps : Nat) : ℚ :=
  if 1 / 2 ≤ bg.l then max 0 (fg.l - steps / 20) else min 1 (fg.l + steps / 20)

/-- The color after some steps. -/
def after (fg bg : Color ℚ) (steps : Nat) : Color ℚ :=
  { fg with l := fg.lightnessAfter bg steps }

section Way

variable {fg : Color ℚ} (bg : Color ℚ) (hlow : 0 ≤ fg.l) (hhigh : fg.l ≤ 1)
include hlow hhigh

theorem lightnessAfter_zero : fg.lightnessAfter bg 0 = fg.l := by
  unfold lightnessAfter
  split <;> simp [hlow, hhigh]

theorem lightnessAfter_mem (steps : Nat) :
    0 ≤ fg.lightnessAfter bg steps ∧ fg.lightnessAfter bg steps ≤ 1 := by
  have hway : (0 : ℚ) ≤ steps / 20 := by positivity
  unfold lightnessAfter
  split
  · exact ⟨le_max_left .., max_le zero_le_one (by linarith)⟩
  · exact ⟨le_min zero_le_one (by linarith), min_le_left ..⟩

/-- A step that is moved into range leads to the next color of the way. -/
theorem clampUnit_shifted_lightnessAfter (steps : Nat) :
    Measure.clampUnit (shifted bg.isLight (fg.lightnessAfter bg steps) 0.05) =
      fg.lightnessAfter bg (steps + 1) := by
  have hstep : (0.05 : ℚ) = 1 / 20 := by norm_num
  have hway : (0 : ℚ) ≤ steps / 20 := by positivity
  have hnext : ((steps + 1 : Nat) : ℚ) / 20 = steps / 20 + 1 / 20 := by push_cast; ring
  rw [Measure.clampUnit_eq]
  unfold lightnessAfter
  rw [hnext]
  by_cases hlight : 1 / 2 ≤ bg.l
  · rw [if_pos hlight, if_pos hlight, isLight_iff.mpr hlight]
    change max 0 (min 1 (max 0 (fg.l - steps / 20) - (0.05 : ℚ))) = _
    rw [hstep]
    grind
  · rw [if_neg hlight, if_neg hlight, Bool.eq_false_iff.mpr (isLight_iff.not.mpr hlight)]
    change max 0 (min 1 (min 1 (fg.l + steps / 20) + (0.05 : ℚ))) = _
    rw [hstep]
    grind

theorem after_zero : fg.after bg 0 = fg := by
  rw [after, lightnessAfter_zero bg hlow hhigh]

theorem withLightness_after (steps : Nat) :
    (fg.after bg steps).withLightness (shifted bg.isLight (fg.after bg steps).l 0.05) =
      fg.after bg (steps + 1) := by
  have hstep := clampUnit_shifted_lightnessAfter bg hlow hhigh steps
  rw [after, after, withLightness, hstep]

end Way

end Color

/-! ### The walk -/

/-- A color of the first steps of the way that no other one of them surpasses. -/
structure BestOf (fg bg : Color ℚ) (steps : Nat) (best : Color ℚ) : Prop where
  reached : ∃ k ≤ steps, best = fg.after bg k
  most : ∀ k ≤ steps, contrast (fg.after bg k) bg ≤ contrast best bg

namespace BestOf

variable {fg bg best : Color ℚ}

theorem start (bg : Color ℚ) (hlow : 0 ≤ fg.l) (hhigh : fg.l ≤ 1) : BestOf fg bg 0 fg := by
  have hzero := Color.after_zero bg hlow hhigh
  refine ⟨⟨0, le_rfl, hzero.symm⟩, fun k hk => ?_⟩
  rw [Nat.le_zero.mp hk, hzero]

/-- One step keeps the better of the best color so far and the next one. -/
theorem step {steps : Nat} (h : BestOf fg bg steps best) :
    BestOf fg bg (steps + 1)
      (if contrast best bg < contrast (fg.after bg (steps + 1)) bg then fg.after bg (steps + 1)
        else best) := by
  obtain ⟨⟨j, hj, hbest⟩, hmost⟩ := h
  split
  next hbetter =>
    refine ⟨⟨steps + 1, le_rfl, rfl⟩, fun k hk => ?_⟩
    rcases Nat.le_succ_iff.mp hk with hk | rfl
    · exact (hmost k hk).trans hbetter.le
    · exact le_rfl
  next hworse =>
    refine ⟨⟨j, by omega, hbest⟩, fun k hk => ?_⟩
    rcases Nat.le_succ_iff.mp hk with hk | rfl
    · exact hmost k hk
    · exact not_lt.mp hworse

/-- The walk goes on to its end unless its best color is good enough. -/
theorem run (minDelta : ℚ) (hlow : 0 ≤ fg.l) (hhigh : fg.l ≤ 1) (steps : Nat) :
    ∀ {done : Nat} {best : Color ℚ}, BestOf fg bg done best →
      ∃ n ≤ done + steps,
        BestOf fg bg n (repairSteps bg minDelta steps (fg.after bg done) best) ∧
        (n < done + steps →
          minDelta ≤ contrast (repairSteps bg minDelta steps (fg.after bg done) best) bg) := by
  induction steps with
  | zero => exact fun h => ⟨_, le_rfl, h, fun hlt => absurd hlt (lt_irrefl _)⟩
  | succ steps ih =>
      intro done best h
      have hnext := h.step
      rw [repairSteps, Color.withLightness_after bg hlow hhigh]
      generalize (if contrast best bg < contrast (fg.after bg (done + 1)) bg then
        fg.after bg (done + 1) else best) = kept at hnext ⊢
      split
      next henough => exact ⟨done + 1, by omega, hnext, fun _ => henough⟩
      next =>
        obtain ⟨n, hn, hbest, hend⟩ := ih hnext
        exact ⟨n, by omega, hbest, fun hlt => hend (by omega)⟩

end BestOf

/-! ### The repair -/

/-- What a repair of the contrast of `fg` against `bg` comes to. -/
structure IsRepair (fg bg : Color ℚ) (minDelta : ℚ) (result : ContrastResult ℚ) : Prop where
  /-- Only the lightness is changed. -/
  keeps : result.color = { fg with l := result.color.l }
  low : 0 ≤ result.color.l
  high : result.color.l ≤ 1
  delta : result.delta = |result.color.l - bg.l|
  noLess : |fg.l - bg.l| ≤ result.delta
  met : result.met = true ↔ minDelta ≤ result.delta
  /-- A color that is good enough is left as it is. -/
  unchanged : minDelta ≤ |fg.l - bg.l| → result.color = fg
  /-- What is not good enough is the best there is in ten steps. -/
  greatest : result.met = false →
    IsGreatest {delta | ∃ k ≤ 10, delta = |fg.lightnessAfter bg k - bg.l|} result.delta

theorem repairSteps_best {fg : Color ℚ} (bg : Color ℚ) (minDelta : ℚ) (hlow : 0 ≤ fg.l)
    (hhigh : fg.l ≤ 1) :
    ∃ n ≤ 10, BestOf fg bg n (repairSteps bg minDelta 10 fg fg) ∧
      (n < 10 → minDelta ≤ contrast (repairSteps bg minDelta 10 fg fg) bg) := by
  have h := BestOf.run minDelta hlow hhigh 10 (BestOf.start bg hlow hhigh)
  rwa [Color.after_zero bg hlow hhigh, Nat.zero_add] at h

/-- **A repair keeps everything but the lightness, never loses contrast, and falls short only
if all of the way does.** -/
theorem ensureContrast_repairs (fg bg : Color ℚ) (minDelta : ℚ) (hlow : 0 ≤ fg.l)
    (hhigh : fg.l ≤ 1) : IsRepair fg bg minDelta (ensureContrast fg bg minDelta) := by
  unfold ensureContrast
  split
  next henough =>
    exact {
      keeps := rfl
      low := hlow
      high := hhigh
      delta := contrast_eq fg bg
      noLess := (contrast_eq fg bg).ge
      met := iff_of_true rfl henough
      unchanged := fun _ => rfl
      greatest := nofun }
  next hshort =>
    obtain ⟨n, hn, ⟨⟨j, hj, hbest⟩, hmost⟩, hend⟩ := repairSteps_best bg minDelta hlow hhigh
    have hmem := Color.lightnessAfter_mem bg hlow hhigh j
    dsimp only
    generalize repairSteps bg minDelta 10 fg fg = best at *
    refine {
      keeps := by rw [hbest]; rfl
      low := by rw [hbest]; exact hmem.1
      high := by rw [hbest]; exact hmem.2
      delta := contrast_eq best bg
      noLess := ?_
      met := decide_eq_true_iff
      unchanged := fun henough => absurd ((contrast_eq fg bg).symm ▸ henough) hshort
      greatest := fun hmet => ?_ }
    · have hfirst := hmost 0 (Nat.zero_le n)
      rwa [Color.after_zero bg hlow hhigh, contrast_eq fg bg] at hfirst
    · have hshort := of_decide_eq_false hmet
      have hn : n = 10 := by
        by_contra hne
        exact hshort (hend (by omega))
      subst hn
      constructor
      · exact ⟨j, hj, by rw [hbest, contrast_eq]; rfl⟩
      · rintro delta ⟨k, hk, rfl⟩
        have h := hmost k hk
        rwa [contrast_eq (fg.after bg k)] at h

/-- Gray on the same gray ends up black, at half of the way to a contrast of nine tenths. -/
theorem repair_of_gray :
    (0 : ℚ) ≤ 1 / 2 ∧ (1 / 2 : ℚ) ≤ 1 ∧
      (ensureContrast (⟨1 / 2, 0, 0, 1⟩ : Color ℚ) ⟨1 / 2, 0, 0, 1⟩ (9 / 10)).met = false ∧
      IsRepair ⟨1 / 2, 0, 0, 1⟩ ⟨1 / 2, 0, 0, 1⟩ (9 / 10)
        (ensureContrast ⟨1 / 2, 0, 0, 1⟩ ⟨1 / 2, 0, 0, 1⟩ (9 / 10)) :=
  ⟨by norm_num, by norm_num, by decide +kernel,
    ensureContrast_repairs _ _ _ (by norm_num) (by norm_num)⟩

end Screenwright
