/-
Every palette is readable, and no app is warned of its colors.

The text on the primary color starts dark on light ground and bright on dark ground.  Where that is
not far enough from it, which is in a narrow band above the middle, one step of the repair leads
far enough away; the texts on the background do not depend on the primary color at all.  The
program computes with floats, so the same is shown for them: of the differences that count only
two have to be computed, at the middle, and all others are no smaller.
-/
import Screenwright.Proofs.Contrast
import Screenwright.Proofs.Floats.Differences
import Screenwright.Proofs.TypeNames
import Screenwright.Proofs.Warnings

namespace Screenwright

open Number Steps

/-! ### Repairs of one step -/

section

variable {α : Type} [Measure α] {fg bg : Color α} {minDelta : α}

theorem Measure.distance_of_le {a b : α} (h : a ≤ b) : Measure.distance a b = b - a :=
  if_pos h

theorem Measure.distance_of_not_le {a b : α} (h : ¬ a ≤ b) : Measure.distance a b = a - b :=
  if_neg h

theorem met_of_le (h : minDelta ≤ contrast fg bg) : (ensureContrast fg bg minDelta).met = true := by
  rw [ensureContrast, if_pos h]

/-- What is far enough after one step is repaired. -/
theorem met_of_next (next : Color α)
    (hstep : fg.withLightness (Color.shifted bg.isLight fg.l 0.05) = next)
    (hbetter : ¬ minDelta ≤ contrast fg bg → contrast fg bg < contrast next bg)
    (hnext : minDelta ≤ contrast next bg) : (ensureContrast fg bg minDelta).met = true := by
  unfold ensureContrast
  split
  next => rfl
  next hshort =>
    have hrun : repairSteps bg minDelta 10 fg fg = next := by
      rw [repairSteps, hstep, if_pos (hbetter hshort), if_pos hnext]
    dsimp only
    rw [hrun]
    exact decide_eq_true hnext

theorem le_contrast_of_met (h : (ensureContrast fg bg minDelta).met = true) :
    minDelta ≤ contrast (ensureContrast fg bg minDelta).color bg := by
  unfold ensureContrast at h ⊢
  split at h
  next henough => rwa [if_pos henough]
  next hshort =>
    rw [if_neg hshort]
    exact of_decide_eq_true h

/-! ### Readable palettes -/

namespace Palette

/-- The color of the slot is far enough from the ground to be read on it. -/
def IsLegible (palette : Palette α) (slot : String) (ground : Color α) : Prop :=
  ∃ text, palette.get? slot = some text ∧ readableContrast ≤ contrast text ground

/-- No shortfall is recorded, and there is none. -/
structure KeepsContrast (palette : Palette α) (primary : Color α) : Prop where
  noShortfall : palette.shortfalls = []
  onPrimary : palette.IsLegible "onPrimary" primary
  onBackground : ∃ background, palette.get? "background" = some background ∧
    ∀ slot ∈ ["textPrimary", "textSecondary"], palette.IsLegible slot background

variable {primary : Color α}

theorem keepsContrast_of_met {accent : Option (Color α)} {dark : Bool}
    (hprimary : (ensureContrast (onPrimaryStart primary) primary readableContrast).met = true)
    (htext : ∀ slot ∈ ["textPrimary", "textSecondary"],
      (ensureContrast (neutral dark primary.h slot) (neutral dark primary.h "background")
        readableContrast).met = true) :
    (generate primary accent dark).KeepsContrast primary where
  noShortfall := by
    simp only [List.forall_mem_cons] at htext
    simp [generate, neutralSlots, ContrastResult.shortfall, hprimary, htext]
  onPrimary := ⟨_, rfl, le_contrast_of_met hprimary⟩
  onBackground := by
    refine ⟨neutral dark primary.h "background", by cases dark <;> rfl, fun slot hslot => ?_⟩
    have hlegible := le_contrast_of_met (htext slot hslot)
    rcases List.mem_pair.mp hslot with rfl | rfl <;> cases dark <;> exact ⟨_, rfl, hlegible⟩

/-- The lightness of the text on a light color after one step. -/
def darkened : α :=
  Measure.clampUnit (0.15 - 0.05)

/-- On a light color the text is far enough away at the second step, if not at the first one. -/
theorem met_of_isLight (hlight : primary.isLight = true)
    (hbetter : ¬ readableContrast ≤ Measure.distance 0.15 primary.l →
      Measure.distance 0.15 primary.l < Measure.distance darkened primary.l)
    (hnext : readableContrast ≤ Measure.distance darkened primary.l) :
    (ensureContrast (onPrimaryStart primary) primary readableContrast).met = true := by
  rw [onPrimaryStart, if_pos hlight]
  refine met_of_next ⟨darkened, 0.02, primary.h, 1.0⟩ ?_ hbetter hnext
  rw [hlight]
  rfl

theorem met_of_not_isLight (hdark : primary.isLight = false)
    (hstart : readableContrast ≤ Measure.distance 0.98 primary.l) :
    (ensureContrast (onPrimaryStart primary) primary readableContrast).met = true := by
  rw [onPrimaryStart, hdark]
  exact met_of_le hstart

/-- The hue of the texts on the background does not count. -/
theorem met_of_neutral
    (h : ∀ dark, ∀ slot ∈ ["textPrimary", "textSecondary"],
      readableContrast ≤ contrast (neutral dark (0.0 : α) slot) (neutral dark 0.0 "background"))
    (dark : Bool) (hue : α) : ∀ slot ∈ ["textPrimary", "textSecondary"],
      (ensureContrast (neutral dark hue slot) (neutral dark hue "background")
        readableContrast).met = true := by
  intro slot hslot
  refine met_of_le ?_
  have hgray := h dark slot hslot
  rcases List.mem_pair.mp hslot with rfl | rfl <;> cases dark <;> exact hgray

end Palette

end

namespace Palette

/-! ### Exact numbers -/

/-- **Every palette over exact numbers is readable.** -/
theorem keepsContrast_exact (primary : Color ℚ) (accent : Option (Color ℚ)) (dark : Bool) :
    (generate primary accent dark).KeepsContrast primary := by
  have hthreshold : (readableContrast : ℚ) = 2 / 5 := by
    change (0.4 : ℚ) = 2 / 5
    norm_num
  refine keepsContrast_of_met ?_ (met_of_neutral (by decide +kernel) dark primary.h)
  cases hlight : primary.isLight with
  | true =>
      have hmiddle := Color.isLight_iff.mp hlight
      have hdarkened : (darkened : ℚ) = 1 / 10 := by decide +kernel
      have hnext : Measure.distance darkened primary.l = primary.l - 1 / 10 := by
        rw [Measure.distance_eq, hdarkened, abs_sub_comm, abs_of_nonneg (by linarith)]
      refine met_of_isLight hlight (fun hshort => ?_) ?_
      · rw [hthreshold] at hshort
        rw [hnext]
        linarith
      · rw [hthreshold, hnext]
        linarith
  | false =>
      have hmiddle := Color.isLight_iff.not.mp (Bool.eq_false_iff.mp hlight)
      have hstart : ((0.98 : ℚ) - primary.l) ≤ Measure.distance 0.98 primary.l := by
        rw [Measure.distance_eq]
        exact le_abs_self _
      refine met_of_not_isLight hlight (le_trans ?_ hstart)
      rw [hthreshold]
      linarith

/-! ### Floats -/

/-- **Every palette of the program is readable.** -/
theorem keepsContrast_float {primary : Color Float} (accent : Option (Color Float)) (dark : Bool)
    (h : InUnit primary.l) : (generate primary accent dark).KeepsContrast primary := by
  refine keepsContrast_of_met ?_ (met_of_neutral (by decide +kernel) dark primary.h)
  have hmiddle : InUnit (0.5 : Float) := by decide +kernel
  cases hlight : primary.isLight with
  | true =>
      have habove : (0.5 : Float) ≤ primary.l := of_decide_eq_true hlight
      have hdarkened : InUnit (darkened : Float) := by decide +kernel
      have hdistance : Measure.distance darkened primary.l = primary.l - darkened :=
        Measure.distance_of_le (le_of_le_of_le (y := 0.5) (by decide +kernel) habove)
      have hnext : readableContrast ≤ Measure.distance darkened primary.l := by
        rw [hdistance]
        exact le_of_le_of_le (y := (0.5 : Float) - darkened) (by decide +kernel)
          (sub_in_order hmiddle h hdarkened habove).1
      refine met_of_isLight hlight (fun hshort => ?_) hnext
      have hstart : InUnit (0.15 : Float) := by decide +kernel
      have hnumber : (Measure.distance 0.15 primary.l).isNaN = false := by
        rw [Measure.distance_of_le (le_of_le_of_le (y := 0.5) (by decide +kernel) habove)]
        exact (h.within.sub hstart.within (by decide) (by decide)).isNaN
      have hless : Measure.distance 0.15 primary.l < readableContrast :=
        Decidable.not_not.mp fun hnot => hshort (le_of_not_lt hnumber rfl hnot)
      exact lt_of_lt_of_not_lt hnumber rfl (isNaN_of_le hnext).2 hless (not_lt_of_le hnext)
  | false =>
      have habove : ¬ (0.5 : Float) ≤ primary.l := of_decide_eq_false hlight
      have hbelow : primary.l ≤ 0.5 := le_of_not_lt rfl h.within.isNaN fun hlt =>
        habove (le_iff_compare.mpr (Or.inl (lt_iff_compare.mp hlt)))
      have hdistance : Measure.distance 0.98 primary.l = 0.98 - primary.l :=
        Measure.distance_of_not_le fun hle =>
          absurd (le_of_le_of_le hle hbelow) (by decide +kernel)
      refine met_of_not_isLight hlight ?_
      rw [hdistance]
      exact le_of_le_of_le (y := (0.98 : Float) - 0.5) (by decide +kernel)
        (sub_in_order h hmiddle (by decide +kernel) hbelow).2

end Palette

/-! ### Warnings -/

theorem inUnit_of_checkColor {field : String} {color : Color Float} {u : Unit}
    (h : checkColor field color = .ok u) : InUnit color.l := by
  unfold checkColor at h
  split at h
  next hvalid =>
    simp only [Color.isValid, Bool.and_eq_true, decide_eq_true_eq] at hvalid
    exact ⟨hvalid.1.1.1.1.2, hvalid.1.1.1.2⟩
  · cases h

theorem AppConfig.inUnit_of_check {config : AppConfig} (h : config.check = .ok ()) :
    InUnit config.appearance.primaryColor.l := by
  unfold AppConfig.check at h
  obtain ⟨-, h⟩ := guard_eq_ok.mp h
  obtain ⟨-, h⟩ := unless_eq_ok.mp h
  obtain ⟨-, h⟩ := unless_eq_ok.mp h
  obtain ⟨-, h⟩ := unless_eq_ok.mp h
  obtain ⟨-, h⟩ := guard_eq_ok.mp h
  obtain ⟨_, hcolor, -⟩ := bind_eq_ok.mp h
  exact inUnit_of_checkColor hcolor

namespace AppDefinition

variable {app : AppDefinition} {trees : List NormalTree} {views : List Swift.ScreenView}
  {tokens : DesignTokens} {depth : Nat}

/-- Without a shortfall no warning begins as those of colors do. -/
theorem head_of_mem_warnings (h : tokens.colors.shortfalls = []) :
    ∀ w ∈ app.warnings trees views tokens depth, (Text.ends w).1 ≠ some 'C' := by
  intro w hw
  rw [warnings, h, List.map_nil, List.append_nil] at hw
  simp only [List.mem_append] at hw
  rcases hw with ((hw | hw) | hw) | hw
  · rw [ends_of_mem_nestingWarnings w hw]
    decide
  · obtain ⟨id, -, rfl⟩ := List.mem_map.mp hw
    rw [← unreachedWarning, ends_unreachedWarning]
    decide
  · obtain ⟨m, -, rfl⟩ := List.mem_map.mp hw
    rw [← unusedWarning, ends_unusedWarning]
    decide
  · rw [head_of_mem_storeWarnings w hw]
    decide

end AppDefinition

/-- **Every palette is readable, and no generated app is warned of a contrast.** -/
theorem colors_are_readable :
    (∀ (primary : Color ℚ) (accent : Option (Color ℚ)) (dark : Bool),
      (Palette.generate primary accent dark).KeepsContrast primary) ∧
    ∀ (app : AppDefinition) (catalog : Catalog) (config : GeneratorConfig) (out : GeneratedApp),
      generate app catalog config = .ok out →
        ∀ warning ∈ out.warnings, ¬ "Contrast:".toList <+: warning.toList := by
  refine ⟨Palette.keepsContrast_exact, fun app catalog config out hout warning hwarning => ?_⟩
  obtain ⟨types, trees, views, entry, hrun, hwarnings⟩ := Generate.exists_run_warnings hout
  have hkeeps := Palette.keepsContrast_float app.config.appearance.tokenInputs.accent
    app.config.appearance.tokenInputs.dark (AppConfig.inUnit_of_check hrun.settings)
  rw [hwarnings] at hwarning
  rintro ⟨rest, hrest⟩
  refine AppDefinition.head_of_mem_warnings hkeeps.noShortfall warning hwarning ?_
  rw [Text.ends, ← hrest]
  rfl

/-- The shelf with a primary color on which the text has to be repaired by one step. -/
def Generate.tinted : AppDefinition :=
  { Generate.shelf with config.appearance.primaryColor := ⟨0.52, 0.1, 30.0, 1.0⟩ }

theorem colors_of_tinted :
    (Palette.generate (⟨13 / 25, 1 / 10, 30, 1⟩ : Color ℚ) none true).KeepsContrast
      ⟨13 / 25, 1 / 10, 30, 1⟩ ∧
    ∃ out, generate Generate.tinted Catalog.standard .standard = .ok out ∧
      ∀ warning ∈ out.warnings, ¬ "Contrast:".toList <+: warning.toList := by
  obtain ⟨hexact, hwarnings⟩ := colors_are_readable
  have haccepts : Generate.accepts Generate.tinted .standard = true := by decide +kernel
  obtain ⟨out, hout⟩ := Generate.exists_generate_of_accepts haccepts
  exact ⟨hexact _ none true, out, hout,
    hwarnings Generate.tinted Catalog.standard .standard out hout⟩

end Screenwright
