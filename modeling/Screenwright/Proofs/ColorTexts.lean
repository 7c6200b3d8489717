/-
Which color texts are kept when they are read and shown again.

The text of a color shows its channels to a few places, and what is read of it has the same places
to show.  But the hue is brought into one turn when it is read, so one that is shown as a full turn
comes back as zero; and an opacity that is read as full is left out, so one that is shown as `1.00`
comes back as nothing.  A color that was read from a text has no such channel, so its own text is
kept.
-/
import Screenwright.Proofs.Floats.Rereads
import Screenwright.Proofs.Validity

namespace Screenwright.Color

open Number
open Float.Model (UnpackedFloat)

/-! ### What a text shows -/

/-- The printed channels of a color. -/
def shownChannels (color : Color Float) : List String :=
  [fixed 3 color.l, fixed 3 color.c, fixed 1 color.h]

/-- The printed opacity of a color, where it is not left out. -/
def shownOpacity? (color : Color Float) : Option String :=
  if color.IsOpaque then none else some (fixed 2 color.alpha)

theorem words_eq_shown (color : Color Float) :
    channelWords (textBody color) = color.shownChannels.map String.toList ∧
      opacityWord? (textBody color) = color.shownOpacity?.map String.toList := by
  obtain ⟨hchannels, hopacity⟩ := words_textBody color
  refine ⟨hchannels, hopacity.trans ?_⟩
  unfold shownOpacity?
  split <;> rfl

/-- A text shows the printed channels and the printed opacity, and nothing else. -/
theorem text_eq_iff {x y : Color Float} : x.text = y.text ↔
    x.shownChannels = y.shownChannels ∧ x.shownOpacity? = y.shownOpacity? := by
  have hinj : Function.Injective String.toList := fun _ _ => String.toList_inj.mp
  constructor
  · intro htext
    rw [text_eq, text_eq, String.ofList_inj] at htext
    have hbody := List.append_cancel_right (List.append_cancel_left htext)
    obtain ⟨hchannels, hopacity⟩ := words_eq_shown x
    obtain ⟨hchannels', hopacity'⟩ := words_eq_shown y
    rw [hbody, hchannels'] at hchannels
    rw [hbody, hopacity'] at hopacity
    exact ⟨(List.map_injective_iff.mpr hinj hchannels).symm,
      (Option.map_injective hinj hopacity).symm⟩
  · rintro ⟨hchannels, hopacity⟩
    simp only [shownChannels, List.cons.injEq, and_true] at hchannels
    have hbody : textBody x = textBody y := by
      unfold textBody channelChars
      rw [hchannels.1, hchannels.2.1, hchannels.2.2]
      unfold shownOpacity? at hopacity
      split at hopacity <;> split at hopacity <;> simp_all
    rw [text_eq, text_eq, hbody]

/-! ### The hue -/

section Hue

variable {h : Float}

theorem units_turn (hsize : size h ≤ 360) : fixedUnits 1 h ≤ 3600 := by
  have hlow := (abs_le.mp (roundsTo_fixedUnits 1 h).1).2
  have hlt : (fixedUnits 1 h : ℚ) < (3601 : Nat) := by
    push_cast
    linarith
  exact Nat.le_of_lt_succ (by exact_mod_cast hlt)

/-- Which hues are shown below the full turn. -/
theorem units_lt_turn_iff (h : Float) : fixedUnits 1 h < 3600 ↔ size h < 359.95 := by
  rw [fixedUnits_lt_iff 1 h (by decide)]
  norm_num

/-- **A hue in one turn is shown the same again unless it is shown as a full turn**, and what is
read of it is never shown as one. -/
theorem hue_is_kept_iff (hfinite : h.isFinite = true) (hsign : ¬ h < 0.0) (hsize : size h ≤ 360) :
    (fixed 1 (wrapHue (reread 1 h)) = fixed 1 h ↔ size h < 359.95) ∧
      size (wrapHue (reread 1 h)) < 359.95 := by
  obtain ⟨hread, hread', -, hunits⟩ := reread_spec 1 (by decide) (by decide) hfinite hsign
  by_cases hlt : size h < 359.95
  · have hsize' : size (reread 1 h) < 359.95 := by
      rw [← units_lt_turn_iff, hunits]
      exact (units_lt_turn_iff h).mpr hlt
    obtain ⟨hwrap, hwrap', hwrapped⟩ := wrapHue_of_lt hread hread' (by linarith)
    refine ⟨iff_of_true ?_ hlt, by rwa [hwrapped]⟩
    rw [← fixed_reread 1 (by decide) (by decide) hfinite hsign]
    exact fixed_congr hwrap hread hwrap' (fixedUnits_congr hwrapped)
  · have hfull : fixedUnits 1 h = 3600 :=
      Nat.le_antisymm (units_turn hsize) (Nat.not_lt.mp (mt (units_lt_turn_iff h).mp hlt))
    obtain ⟨hpositive, hturn⟩ := reread_of_pos 1 hfinite hsign (by omega)
    rw [hfull, Nat.cast_one] at hturn
    have hwrap : size (wrapHue (ofDecimal 3600 (-1))) = 0 := by
      have hparts : (parts (wrapHue (ofDecimal 3600 (-1)))).significand = 0 := by decide +kernel
      rw [size, hparts, Nat.cast_zero, zero_mul]
    refine ⟨iff_of_false ?_ hlt, by rw [hturn, hwrap]; norm_num⟩
    rw [hturn, fixed_of_isFinite hfinite, hpositive, hfull]
    decide +kernel

end Hue

/-! ### The opacity -/

section Opacity

variable {x : Float} {r : ℚ}

theorem amount_abs (h : amount? x = some r) : amount? x.abs = some |r| := by
  unfold amount? at *
  cases hx : x.toModel.unpack with
  | notANumber => rw [hx] at h; cases h
  | infinity s => rw [hx] at h; cases h
  | zero s =>
      rw [hx] at h
      cases h
      show amountOf (Float.Model.pack (UnpackedFloat.abs x.toModel.unpack)).unpack = _
      rw [hx, UnpackedFloat.abs, unpack_pack_zero, abs_zero]
      rfl
  | finite s m e hm =>
      rw [hx] at h
      cases h
      show amountOf (Float.Model.pack (UnpackedFloat.abs x.toModel.unpack)).unpack = _
      rw [hx, UnpackedFloat.abs, unpack_pack_unpack hx, abs_mul,
        abs_of_pos (zpow_pos two_pos e : (0 : ℚ) < 2 ^ e), ← Int.cast_abs, Int.abs_eq_natAbs,
        natAbs_apply]
      rfl

/-- An opacity that is not shown as full is not taken for full. -/
theorem not_isOpaque {color : Color Float} (h : InUnit color.alpha)
    (hlt : size color.alpha < 0.995) : ¬ color.IsOpaque := by
  obtain ⟨a, ha⟩ := h.exists_amount
  have hone : amount? 1.0 = some 1 := by
    have hparts : parts 1.0 = ⟨false, pow2 52, -52⟩ := by decide +kernel
    rw [amount_eq_size (by decide), size, hparts, cast_pow2]
    norm_num
  have hsmall : amount? 2.220446049250313e-16 = some (2 ^ (-52 : ℤ)) := by
    have hparts : parts 2.220446049250313e-16 = ⟨false, pow2 52, -104⟩ := by decide +kernel
    rw [amount_eq_size (by decide +kernel), size, hparts, cast_pow2]
    norm_num
  obtain ⟨r, hr, hnear⟩ := rounds_sub h.within inUnit_one.within ha hone
  intro hwhole
  have hbelow := (abs_lt.mp (amount_lt_of_lt (amount_abs hr) hsmall hwhole)).1
  -- a float below zero would be nearer to the exact difference
  have hnear' := hnear (-1) (-8) (by decide)
  have ha' : a < 0.995 := (le_abs_self a).trans_lt (abs_amount ha ▸ hlt)
  norm_num at hbelow hnear' ha'
  rw [abs_of_pos (a := -(1 / 256) - (a - 1)) (by linarith)] at hnear'
  have hdistance := le_abs_self (r - (a - 1))
  linarith

/-- Which opacities are shown below the full one. -/
theorem units_lt_full_iff (x : Float) : fixedUnits 2 x < 100 ↔ size x < 0.995 := by
  rw [fixedUnits_lt_iff 2 x (by decide)]
  norm_num

/-- **An opacity is shown the same again unless it is shown as full**, and what is read of it is
never shown as full. -/
theorem opacity_is_kept_iff {color : Color Float} (h : InUnit color.alpha) :
    (color.readBack.shownOpacity? = color.shownOpacity? ↔
        color.IsOpaque ∨ size color.alpha < 0.995) ∧
      (color.readBack.IsOpaque ∨ size color.readBack.alpha < 0.995) := by
  obtain ⟨hread, -, -, hunits⟩ := reread_spec 2 (by decide) (by decide) h.isFinite h.not_lt_zero
  by_cases hwhole : color.IsOpaque
  · have halpha : color.readBack.alpha = 1.0 := if_pos hwhole
    have hwhole' : color.readBack.IsOpaque := by
      rw [IsOpaque, halpha]
      decide +kernel
    rw [shownOpacity?, shownOpacity?, if_pos hwhole, if_pos hwhole']
    exact ⟨iff_of_true rfl (Or.inl hwhole), Or.inl hwhole'⟩
  have halpha : color.readBack.alpha = reread 2 color.alpha := if_neg hwhole
  by_cases hlt : size color.alpha < 0.995
  · have hlt' : size color.readBack.alpha < 0.995 := by
      rw [halpha, ← units_lt_full_iff, hunits]
      exact (units_lt_full_iff _).mpr hlt
    have hwhole' : ¬ color.readBack.IsOpaque :=
      not_isOpaque (halpha ▸ inUnit_reread h (Or.inl rfl)) hlt'
    rw [shownOpacity?, shownOpacity?, if_neg hwhole, if_neg hwhole', halpha,
      fixed_reread 2 (by decide) (by decide) h.isFinite h.not_lt_zero]
    exact ⟨iff_of_true rfl (Or.inr hlt), Or.inr (halpha ▸ hlt')⟩
  · have hfull : fixedUnits 2 color.alpha = 100 :=
      Nat.le_antisymm (fixedUnits_le h) (Nat.not_lt.mp (mt (units_lt_full_iff _).mp hlt))
    have hone : color.readBack.alpha = ofDecimal 100 (-2) := by
      have hunits' := (reread_of_pos 2 h.isFinite h.not_lt_zero (by omega)).2
      rw [halpha, hunits', hfull]
      rfl
    have hwhole' : color.readBack.IsOpaque := by
      rw [IsOpaque, hone]
      decide +kernel
    rw [shownOpacity?, shownOpacity?, if_neg hwhole, if_pos hwhole']
    exact ⟨iff_of_false nofun (not_or.mpr ⟨hwhole, hlt⟩), Or.inl hwhole'⟩

end Opacity

/-! ### Texts -/

/-- What the channels of a color are like that was read from a text and is finite. -/
structure IsRead (color : Color Float) : Prop extends color.IsReadable where
  finite_chroma : color.c.isFinite = true
  finite_hue : color.h.isFinite = true
  hue_sign : ¬ color.h < 0.0
  hue_size : size color.h ≤ 360

/-- The hue is not shown as a full turn, and the opacity not as full. -/
structure KeepsText (color : Color Float) : Prop where
  hue : size color.h < 359.95
  opacity : color.IsOpaque ∨ size color.alpha < 0.995

section Texts

variable {s : String} {color : Color Float}

/-- The hue of a color that is read was brought into one turn, or it is zero. -/
theorem hue_of_parse (h : parse s = some color) :
    (∃ hue, color.h = wrapHue hue) ∨ color.h = 0.0 := by
  unfold parse at h
  dsimp only at h
  split at h
  next body hbody =>
    obtain ⟨hue, -, hhue, -⟩ := ofFunctionBody_eq_some h
    exact Or.inl ⟨hue, hhue⟩
  next hbody =>
    obtain ⟨rgba, -, rfl⟩ := Option.map_eq_some_iff.mp h
    unfold ofRgba
    dsimp only
    split
    · exact Or.inr rfl
    · exact Or.inl ⟨_, rfl⟩

theorem isRead_of_parse (h : parse s = some color) (hchroma : color.c.isFinite = true)
    (hhue : color.h.isFinite = true) : color.IsRead := by
  have hturn : ¬ color.h < 0.0 ∧ size color.h ≤ 360 := by
    rcases hue_of_parse h with ⟨hue, heq⟩ | heq
    · rw [heq, isFinite_wrapHue] at hhue
      rw [heq]
      exact (wrapHue_spec hhue).2
    · rw [heq, size_zero unpack_ofZero]
      exact ⟨by decide, by norm_num⟩
  exact ⟨isReadable_of_parse h, hchroma, hhue, hturn.1, hturn.2⟩

/-- What the text of a color is read as is finite. -/
theorem IsRead.isRead_readBack (h : color.IsRead) : color.readBack.IsRead := by
  have hchroma := reread_spec 3 (by decide) (by decide) h.finite_chroma h.chroma
  have hhue := reread_spec 1 (by decide) (by decide) h.finite_hue h.hue_sign
  exact isRead_of_parse (parse_text h.toIsReadable) hchroma.1 ((isFinite_wrapHue _).trans hhue.1)

theorem IsRead.keepsText_readBack (h : color.IsRead) : color.readBack.KeepsText :=
  ⟨(hue_is_kept_iff h.finite_hue h.hue_sign h.hue_size).2,
    (opacity_is_kept_iff h.opacity).2⟩

/-- The text is kept exactly if neither the hue nor the opacity is shown as full. -/
theorem IsRead.text_readBack_iff (h : color.IsRead) :
    color.readBack.text = color.text ↔ color.KeepsText := by
  have hl : fixed 3 (reread 3 color.l) = fixed 3 color.l :=
    fixed_reread 3 (by decide) (by decide) h.lightness.isFinite h.lightness.not_lt_zero
  have hc : fixed 3 (reread 3 color.c) = fixed 3 color.c :=
    fixed_reread 3 (by decide) (by decide) h.finite_chroma h.chroma
  have hchannels : color.readBack.shownChannels = color.shownChannels ↔
      fixed 1 (wrapHue (reread 1 color.h)) = fixed 1 color.h := by
    simp [shownChannels, readBack, hl, hc]
  rw [text_eq_iff, hchannels, (hue_is_kept_iff h.finite_hue h.hue_sign h.hue_size).1,
    (opacity_is_kept_iff h.opacity).1]
  exact ⟨fun ⟨hhue, hopacity⟩ => ⟨hhue, hopacity⟩, fun hkeeps => ⟨hkeeps.hue, hkeeps.opacity⟩⟩

/-- **The text of a finite color that was read is read again, and shown the same exactly if
neither the hue nor the opacity is shown as full**; what is shown after one reading stays. -/
theorem text_is_kept_iff (h : parse s = some color) (hchroma : color.c.isFinite = true)
    (hhue : color.h.isFinite = true) : ∃ y, parse color.text = some y ∧
      (y.text = color.text ↔ color.KeepsText) ∧ ∃ z, parse y.text = some z ∧ z.text = y.text := by
  have hread := isRead_of_parse h hchroma hhue
  have hread' := hread.isRead_readBack
  exact ⟨_, parse_text hread.toIsReadable, hread.text_readBack_iff,
    _, parse_text hread'.toIsReadable, hread'.text_readBack_iff.mpr hread.keepsText_readBack⟩

theorem text_of_violet : (parse "oklch(0.5 0.125 270 / 0.5)" = some ⟨0.5, 0.125, 270.0, 0.5⟩ ∧
    KeepsText ⟨0.5, 0.125, 270.0, 0.5⟩) ∧ ∃ y, parse (text ⟨0.5, 0.125, 270.0, 0.5⟩) = some y ∧
      y.text = text ⟨0.5, 0.125, 270.0, 0.5⟩ := by
  have hread : parse "oklch(0.5 0.125 270 / 0.5)" = some ⟨0.5, 0.125, 270.0, 0.5⟩ := by
    decide +kernel
  have hhue : parts 270.0 = ⟨false, 135 * pow2 45, -44⟩ := by decide +kernel
  have hopacity : parts 0.5 = ⟨false, pow2 52, -53⟩ := by decide +kernel
  have hkeeps : KeepsText ⟨0.5, 0.125, 270.0, 0.5⟩ := by
    refine ⟨?_, Or.inr ?_⟩
    · rw [size, hhue, Nat.cast_mul, cast_pow2]
      norm_num
    · rw [size, hopacity, cast_pow2]
      norm_num
  obtain ⟨y, hy, hkept, -⟩ := text_is_kept_iff hread (by decide +kernel) (by decide +kernel)
  exact ⟨⟨hread, hkeeps⟩, y, hy, hkept.mpr hkeeps⟩

/-- A hue just below the full turn, and an opacity just below the full one. -/
theorem text_of_full_channels :
    ((parse "oklch(0.5 0.1 359.97)").map text = some "oklch(0.500 0.100 360.0)" ∧
      (parse "oklch(0.500 0.100 360.0)").map text = some "oklch(0.500 0.100 0.0)") ∧
    (parse "oklch(0.5 0.1 20 / 0.997)").map text = some "oklch(0.500 0.100 20.0 / 1.00)" ∧
      (parse "oklch(0.500 0.100 20.0 / 1.00)").map text = some "oklch(0.500 0.100 20.0)" := by
  decide +kernel

end Texts

end Screenwright.Color
