/-
The slots of design tokens, spelled out.

Which slots there are is a matter of spelling: a plain name, a color in a state, a spring, or an
easing with a duration.  The check cuts a slot at its first dot, the colors cut it at the last one,
and motion looks for a duration ahead of an easing, and yet the three agree on every string: each
name is free of dots, so a slot has at most one.  What a slot stands for then has the shape that
lowering reads it as.
-/
import Screenwright.Proofs.Lowering.Agreement

namespace Screenwright

open Steps

namespace TokenKind

/-! ### Spelling -/

/-- How the slots of a kind are spelled. -/
inductive Spelled : TokenKind → String → Prop
  | plain {kind : TokenKind} {slot : String} (hslot : slot ∈ kind.slots) : Spelled kind slot
  | state {base state : String} (hbase : base ∈ colorSlots) (hstate : state ∈ colorStates) :
      Spelled .color (base ++ "." ++ state)
  | spring {spring : String} (hspring : spring ∈ springs) :
      Spelled .motion ("spring" ++ "." ++ spring)
  | timing {easing duration : String} (heasing : easing ∈ easings)
      (hduration : duration ∈ durations) : Spelled .motion (easing ++ "." ++ duration)

variable {kind : TokenKind} {slot : String}

theorem dot_not_mem_easing : ∀ easing ∈ easings, '.' ∉ easing.toList ∧ easing ≠ "spring" := by
  decide

theorem dot_not_mem_spring : '.' ∉ "spring".toList := by
  decide

theorem spelled_of_pair {first second : String} (h : kind.acceptsPair first second = true) :
    Spelled kind (first ++ "." ++ second) := by
  cases kind with
  | color =>
      simp only [acceptsPair, Bool.and_eq_true, List.contains_iff_mem] at h
      exact .state h.1 h.2
  | motion =>
      simp only [acceptsPair] at h
      split at h
      next hspring =>
        subst hspring
        exact .spring (List.contains_iff_mem.mp h)
      next =>
        simp only [Bool.and_eq_true, List.contains_iff_mem] at h
        exact .timing h.1 h.2
  | _ => cases h

theorem accepts_of_pair {first second : String} (hdot : '.' ∉ first.toList)
    (h : kind.acceptsPair first second = true) : kind.accepts (first ++ "." ++ second) = true :=
  accepts_iff.mpr (Or.inr ⟨first, second, Text.splitFirst_append second hdot, h⟩)

/-- **A kind accepts what is spelled as one of its slots.** -/
theorem accepts_iff_spelled : kind.accepts slot = true ↔ Spelled kind slot := by
  constructor
  · intro h
    rcases accepts_iff.mp h with hslot | ⟨first, second, hsplit, hpair⟩
    · exact .plain hslot
    · rw [Text.eq_of_splitFirst hsplit]
      exact spelled_of_pair hpair
  · intro h
    cases h with
    | plain hslot => exact accepts_iff.mpr (Or.inl hslot)
    | @state base state hbase hstate =>
        refine accepts_of_pair (Palette.dot_not_mem_slot base hbase) ?_
        simp [acceptsPair, hbase, hstate]
    | @spring spring hspring =>
        refine accepts_of_pair dot_not_mem_spring ?_
        simp [acceptsPair, hspring]
    | @timing easing duration heasing hduration =>
        obtain ⟨hdot, hne⟩ := dot_not_mem_easing easing heasing
        refine accepts_of_pair hdot ?_
        simp [acceptsPair, hne, heasing, hduration]

/-! ### Dots -/

theorem dot_not_mem_plain : ∀ slot ∈ kind.slots, '.' ∉ slot.toList := by
  cases kind <;> decide

theorem count_dot_pair {first second : String} (hfirst : '.' ∉ first.toList)
    (hsecond : '.' ∉ second.toList) : (first ++ "." ++ second).toList.count '.' = 1 := by
  simp [List.count_eq_zero.mpr hfirst, List.count_eq_zero.mpr hsecond]

/-- A slot has at most one dot. -/
theorem Spelled.count_dot_le (h : Spelled kind slot) : slot.toList.count '.' ≤ 1 := by
  have hspring : ∀ spring ∈ springs, '.' ∉ spring.toList := by decide
  have hmotion : ∀ slot ∈ motion.slots, '.' ∉ slot.toList := dot_not_mem_plain
  cases h with
  | plain hslot =>
      rw [List.count_eq_zero.mpr (dot_not_mem_plain slot hslot)]
      exact Nat.zero_le 1
  | state hbase hstate =>
      exact Nat.le_of_eq (count_dot_pair (Palette.dot_not_mem_slot _ hbase)
        (Palette.dot_not_mem_state _ hstate))
  | spring h => exact Nat.le_of_eq (count_dot_pair dot_not_mem_spring (hspring _ h))
  | timing heasing hduration =>
      exact Nat.le_of_eq (count_dot_pair (dot_not_mem_easing _ heasing).1
        (hmotion _ (List.mem_append_left _ hduration)))

end TokenKind

/-! ### Reading -/

namespace Setting

/-- Whether lowering reads a slot, by the reader for the tokens of its kind. -/
def reads (s : Setting) (node : String) (ref : TokenRef) : Bool :=
  match ref.kind with
  | .color => (s.color node ref).isOk
  | .spacing | .radius | .borderWidth | .letterSpacing => (s.dimension node ref).isOk
  | .lineHeight => (s.factor node ref).isOk
  | .font => (s.font node ref).isOk
  | .shadow => (s.shadow node ref).isOk
  | .motion => (s.motion node ref).isOk

variable {s : Setting} {node : String}

/-- **With generated tokens, lowering reads the accepted slots and no others.** -/
theorem reads_iff_accepts (h : s.Generated) {kind : TokenKind} {slot : String} :
    s.reads node ⟨kind, slot⟩ = true ↔ kind.accepts slot = true := by
  have hlength (hkind : kind.isLength = true) :
      (s.dimension node ⟨kind, slot⟩).isOk = true ↔ kind.accepts slot = true :=
    isOk_iff.trans ⟨fun ⟨x, hx⟩ => gives_dimension h x hx, dimension_eq_ok node h.ready hkind⟩
  cases kind with
  | color => exact isOk_iff.trans ⟨fun ⟨v, hv⟩ => gives_color h v hv, color_eq_ok node h.ready⟩
  | lineHeight =>
      exact isOk_iff.trans ⟨fun ⟨x, hx⟩ => gives_factor h x hx, factor_eq_ok node h.ready⟩
  | font => exact isOk_iff.trans ⟨fun ⟨v, hv⟩ => gives_font h v hv, font_eq_ok node h.ready⟩
  | shadow => exact isOk_iff.trans ⟨fun ⟨m, hm⟩ => gives_shadow h m hm, shadow_eq_ok node h.ready⟩
  | motion => exact isOk_iff.trans ⟨fun ⟨v, hv⟩ => gives_motion h v hv, motion_eq_ok node h.ready⟩
  | spacing | radius | borderWidth | letterSpacing => exact hlength rfl

end Setting

namespace DesignTokens

/-- **Accepted slots and generated tokens agree.**  Whatever the tokens are made from, a slot stands
for a token iff its kind accepts it, which is a matter of its spelling.  The token has the shape of
its kind, so that lowering reads it; and a slot with more than one dot stands for none. -/
theorem resolve_iff_accepts (name version : String) (inputs : TokenInputs) (kind : TokenKind)
    (slot : String) :
    ((∃ token, (generate name version inputs).resolve kind slot = .ok token) ↔
      kind.accepts slot = true) ∧
    (kind.accepts slot = true ↔ kind.Spelled slot) ∧
    (∀ token, (generate name version inputs).resolve kind slot = .ok token →
      kind.holds token = true) ∧
    (∀ (s : Setting) (node : String),
      { s with tokens := generate name version inputs }.reads node ⟨kind, slot⟩ = true ↔
        kind.accepts slot = true) ∧
    (1 < slot.toList.count '.' →
      (generate name version inputs).resolve kind slot = .error ⟨kind, slot⟩) := by
  refine ⟨⟨fun ⟨_, h⟩ => accepts_of_resolve h, fun h => ?_⟩, TokenKind.accepts_iff_spelled,
    fun token htoken => ?_, fun s node => Setting.reads_iff_accepts ⟨name, version, inputs, rfl⟩,
    fun hdots => ?_⟩
  · obtain ⟨token, htoken, -⟩ := exists_resolve name version inputs h
    exact ⟨token, htoken⟩
  · obtain ⟨token', htoken', hholds⟩ :=
      exists_resolve name version inputs (accepts_of_resolve htoken)
    rw [htoken] at htoken'
    cases htoken'
    exact hholds
  · cases hresolve : (generate name version inputs).resolve kind slot with
    | ok token =>
        have hspelled := TokenKind.accepts_iff_spelled.mp (accepts_of_resolve hresolve)
        exact absurd hspelled.count_dot_le (Nat.not_le.mpr hdots)
    | error e =>
        unfold resolve at hresolve
        split at hresolve
        · cases hresolve
        · exact hresolve.symm ▸ rfl

/-- A color in a state stands for a color; a state of a state stands for nothing. -/
theorem resolve_of_hover :
    (∃ token, (generate "Notes" "1.0.0" (.ofPrimary ⟨0.5, 0.1, 30.0, 1.0⟩)).resolve .color
      "primary.hover" = .ok token ∧ TokenKind.color.holds token = true) ∧
    (generate "Notes" "1.0.0" (.ofPrimary ⟨0.5, 0.1, 30.0, 1.0⟩)).resolve .color
      "primary.hover.pressed" = .error ⟨.color, "primary.hover.pressed"⟩ := by
  have hslots := resolve_iff_accepts "Notes" "1.0.0" (.ofPrimary ⟨0.5, 0.1, 30.0, 1.0⟩) .color
  obtain ⟨token, htoken⟩ := (hslots "primary.hover").1.mpr (by decide)
  exact ⟨⟨token, htoken, (hslots "primary.hover").2.2.1 token htoken⟩,
    (hslots "primary.hover.pressed").2.2.2.2 (by decide)⟩

end DesignTokens

end Screenwright
