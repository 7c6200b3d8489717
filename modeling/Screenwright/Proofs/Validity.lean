/-
Which of the colors that are read are valid ones.

A color that comes from hexadecimal digits is computed in range and needs no check.  One that comes
from a functional text is checked channel by channel, and by comparisons.  Those for lightness and
opacity ask on which side of a bound a number lies, so what is no number fails them, and what is
infinite lies outside.  The one for the chroma only asks whether it is below zero, and the hue is
not checked at all; both let through what is not finite, and taking away whole turns makes no
number of it.
-/
import Screenwright.Proofs.Colors
import Screenwright.Proofs.Floats.Angles
import Screenwright.Proofs.Hues

namespace Screenwright.Color

open Number

theorem isValid_iff {color : Color Float} (h : color.IsReadable) :
    color.isValid = true ↔ color.c.isFinite = true ∧ color.h.isFinite = true := by
  have hl : 0.0 ≤ color.l ∧ color.l ≤ 1.0 := h.lightness
  have ha : 0.0 ≤ color.alpha ∧ color.alpha ≤ 1.0 := h.opacity
  simp [isValid, h.lightness.isFinite, h.opacity.isFinite, hl, ha, h.chroma]

/-! ### Computed colors -/

/-- A hue from an angle. -/
theorem isFinite_hue {x y : Float} (hx : x.isFinite = true) (hy : y.isFinite = true) :
    (wrapHue (angle y x * (180.0 / halfTurn))).isFinite = true := by
  have hdegrees : Within 6 (180.0 / halfTurn) := by decide +kernel
  rw [isFinite_wrapHue]
  exact ((within_angle hy hx).mul hdegrees (by decide) (by decide)).isFinite

/-- **What is computed from hexadecimal digits is finite.** -/
theorem isFinite_ofRgba {color : Rgba} (h : color.IsProper) :
    (ofRgba color).c.isFinite = true ∧ (ofRgba color).h.isFinite = true := by
  obtain ⟨hl, hm, hs⟩ := within_cones h
  have hx := (within_mix (j := 2) (a := 1.9779984951) (b := 2.4285922050) (c := 0.4505937099)
    (by decide +kernel) (by decide +kernel) (by decide +kernel) hl hm hs (by decide)
    (by decide)).2.2
  have hy := (within_mix (j := 2) (a := 0.0259040371) (b := 0.7827717662) (c := 0.8086757660)
    (by decide +kernel) (by decide +kernel) (by decide +kernel) hl hm hs (by decide)
    (by decide)).2.1
  refine ⟨(within_hypotenuse hx hy (by decide) (by decide)).isFinite, ?_⟩
  unfold ofRgba
  dsimp only
  split
  · rfl
  · exact isFinite_hue hx.isFinite hy.isFinite

/-! ### Colors that are read -/

/-- The chroma and the hue that a functional text has words for; a text of hexadecimal digits has
none. -/
def unchecked (s : String) : List Float :=
  match functionBody? (Text.trimChars s.toList) with
  | some body => ((channelWords body).filterMap readChars).drop 1
  | none => []

variable {s : String} {color : Color Float}

theorem filterMap_of_mapM {words : List (List Char)} : ∀ {values : List Float},
    words.mapM readChars = some values → words.filterMap readChars = values := by
  induction words with
  | nil =>
      rintro values ⟨⟩
      rfl
  | cons word words ih =>
      intro values h
      rw [List.mapM_cons] at h
      obtain ⟨value, hvalue, h⟩ := Option.bind_eq_some_iff.mp h
      obtain ⟨rest, hrest, h⟩ := Option.bind_eq_some_iff.mp h
      cases h
      rw [List.filterMap_cons_some hvalue, ih hrest]

/-- **Every color that is read has its lightness and its opacity in range and no chroma below
zero, and it is valid exactly if the words for its chroma and its hue stand for finite numbers.** -/
theorem read_color_is_valid_iff (h : parse s = some color) :
    (0.0 ≤ color.l ∧ color.l ≤ 1.0 ∧ ¬ color.c < 0.0 ∧ 0.0 ≤ color.alpha ∧ color.alpha ≤ 1.0) ∧
      (color.isValid = true ↔ ∀ x ∈ unchecked s, x.isFinite = true) := by
  have hreadable := isReadable_of_parse h
  refine ⟨⟨hreadable.lightness.1, hreadable.lightness.2, hreadable.chroma, hreadable.opacity.1,
    hreadable.opacity.2⟩, (isValid_iff hreadable).trans ?_⟩
  unfold parse at h
  unfold unchecked
  dsimp only at h
  cases hbody : functionBody? (Text.trimChars s.toList) with
  | some body =>
      rw [hbody] at h
      obtain ⟨hue, hwords, hhue, -⟩ := ofFunctionBody_eq_some h
      dsimp only
      rw [filterMap_of_mapM hwords, hhue, isFinite_wrapHue]
      simp
  | none =>
      rw [hbody] at h
      obtain ⟨rgba, hrgba, rfl⟩ := Option.map_eq_some_iff.mp h
      simp [isFinite_ofRgba (Rgba.isProper_ofHexChars hrgba)]

theorem read_color_is_valid : ∃ color, parse "oklch(0.62 0.19 259.8 / 0.5)" = some color ∧
    color.isValid = true := by
  have hunchecked : ∀ x ∈ unchecked "oklch(0.62 0.19 259.8 / 0.5)", x.isFinite = true := by
    decide +kernel
  obtain ⟨color, h⟩ := Option.isSome_iff_exists.mp
    (show (parse "oklch(0.62 0.19 259.8 / 0.5)").isSome = true by decide +kernel)
  exact ⟨color, h, (read_color_is_valid_iff h).2.mpr hunchecked⟩

/-- The word `nan` passes for a chroma, and `inf` for a hue. -/
theorem read_color_of_special_words :
    (parse "oklch(0.5 nan 0)").map isValid = some false ∧
      (parse "oklch(0.5 0.1 inf)").map isValid = some false := by
  decide +kernel

end Screenwright.Color
