/-
Design tokens: a slot that a kind accepts stands for a token of that kind.

Whether a slot is accepted is decided from lists of names, before there are any tokens.
What the slot stands for is looked up in the generated tables.  The two agree because the
tables are made over the same names whatever the inputs are, so acceptance alone promises
a token, and one of the shape that the kind is used for.  For the same reason no slot stands
for a token that was not accepted.
-/
import Screenwright.Design.Tokens
import Screenwright.Proofs.Tables

namespace Screenwright

/-- Whether a token has the shape that tokens of the kind have. -/
def TokenKind.holds : TokenKind → Token → Bool
  | color, .color _ => true
  | spacing, .dimension _ => true
  | radius, .dimension _ => true
  | borderWidth, .dimension _ => true
  | letterSpacing, .dimension _ => true
  | lineHeight, .number _ => true
  | font, .font _ => true
  | shadow, .shadow _ => true
  | motion, .motion _ => true
  | _, _ => false

/-! ### Slots made of two names -/

namespace Text

theorem eq_of_cutFirst {sep : Char} {cs before after : List Char}
    (h : cutFirst sep cs = some (before, after)) : cs = before ++ sep :: after := by
  induction cs generalizing before with
  | nil => simp [cutFirst] at h
  | cons c cs ih =>
      simp only [cutFirst] at h
      split at h
      next hc =>
        cases h
        rw [hc, List.nil_append]
      · obtain ⟨⟨a, b⟩, hcut, heq⟩ := Option.map_eq_some_iff.mp h
        cases heq
        rw [ih hcut, List.cons_append]

theorem cutFirst_append {sep : Char} {before : List Char} (after : List Char)
    (h : sep ∉ before) : cutFirst sep (before ++ sep :: after) = some (before, after) := by
  induction before with
  | nil => simp [cutFirst]
  | cons c cs ih =>
      rw [List.mem_cons, not_or] at h
      have hne : ¬ c = sep := fun e => h.1 e.symm
      rw [List.cons_append, cutFirst, if_neg hne, ih h.2]
      rfl

/-- A separator that does not come again is the last one. -/
theorem splitLast_append {sep : Char} {second : String} (first : String)
    (h : sep ∉ second.toList) :
    splitLast sep (first ++ String.ofList [sep] ++ second) = some (first, second) := by
  have hrev : (first ++ String.ofList [sep] ++ second).toList.reverse =
      second.toList.reverse ++ sep :: first.toList.reverse := by simp
  rw [splitLast, cutLast, hrev, cutFirst_append _ (by simpa using h)]
  simp

/-- A string is what its two parts are, put together. -/
theorem eq_of_splitFirst {sep : Char} {s first second : String}
    (h : splitFirst sep s = some (first, second)) :
    s = first ++ String.ofList [sep] ++ second := by
  obtain ⟨⟨a, b⟩, hcut, heq⟩ := Option.map_eq_some_iff.mp h
  cases heq
  apply String.toList_injective
  rw [eq_of_cutFirst hcut]
  simp

/-- A separator that does not come before is the first one. -/
theorem splitFirst_append {sep : Char} {first : String} (second : String)
    (h : sep ∉ first.toList) :
    splitFirst sep (first ++ String.ofList [sep] ++ second) = some (first, second) := by
  have hlist : (first ++ String.ofList [sep] ++ second).toList =
      first.toList ++ sep :: second.toList := by simp
  rw [splitFirst, hlist, cutFirst_append _ h]
  simp

theorem eq_of_splitLast {sep : Char} {s first second : String}
    (h : splitLast sep s = some (first, second)) :
    s = first ++ String.ofList [sep] ++ second := by
  obtain ⟨⟨a, b⟩, hcut, heq⟩ := Option.map_eq_some_iff.mp h
  cases heq
  obtain ⟨⟨after, before⟩, hrev, heq⟩ := Option.map_eq_some_iff.mp hcut
  cases heq
  apply String.toList_injective
  rw [← List.reverse_reverse s.toList, eq_of_cutFirst hrev]
  simp

end Text

/-- An accepted slot is a plain one or a pair that belongs together. -/
theorem TokenKind.accepts_iff {kind : TokenKind} {slot : String} :
    kind.accepts slot = true ↔ slot ∈ kind.slots ∨
      ∃ first second, Text.splitFirst '.' slot = some (first, second) ∧
        kind.acceptsPair first second = true := by
  simp only [accepts, Bool.or_eq_true, List.contains_iff_mem]
  refine or_congr_right ?_
  cases Text.splitFirst '.' slot with
  | none => simp
  | some parts =>
      obtain ⟨first, second⟩ := parts
      simp

/-- Only colors and motion have slots made of two names. -/
theorem TokenKind.mem_slots_of_accepts {kind : TokenKind} {slot : String}
    (h : kind.accepts slot = true) (hc : kind ≠ .color) (hm : kind ≠ .motion) :
    slot ∈ kind.slots := by
  rcases TokenKind.accepts_iff.mp h with h | ⟨first, second, -, h⟩
  · exact h
  · cases kind with
    | color => exact absurd rfl hc
    | motion => exact absurd rfl hm
    | _ => simp [acceptsPair] at h

/-! ### Colors -/

namespace Palette

variable {α : Type} [Measure α]

theorem names_generate (primary : Color α) (accent : Option (Color α)) (dark : Bool) :
    Entries.names (generate primary accent dark).slots = TokenKind.colorSlots := by
  cases dark <;> rfl

theorem dot_not_mem_slot : ∀ slot ∈ TokenKind.colorSlots, '.' ∉ slot.toList := by
  decide

theorem dot_not_mem_state : ∀ suffix ∈ TokenKind.colorStates, '.' ∉ suffix.toList := by
  decide

theorem exists_state : ∀ suffix ∈ TokenKind.colorStates,
    ∃ state, ColorState.ofSuffix? suffix = some state := by
  intro suffix h
  simp only [TokenKind.colorStates, List.mem_cons, List.not_mem_nil, or_false] at h
  rcases h with rfl | rfl | rfl
  · exact ⟨.hover, rfl⟩
  · exact ⟨.pressed, rfl⟩
  · exact ⟨.disabled, rfl⟩

/-- Every accepted color slot has a color. -/
theorem exists_get? (primary : Color α) (accent : Option (Color α)) (dark : Bool)
    {slot : String} (h : TokenKind.color.accepts slot = true) :
    ∃ color, (generate primary accent dark).get? slot = some color := by
  have hnames := names_generate primary accent dark
  unfold get?
  cases hl : (generate primary accent dark).slots.lookup slot with
  | some color => exact ⟨color, rfl⟩
  | none =>
      rcases TokenKind.accepts_iff.mp h with hslot | ⟨first, second, hsplit, hpair⟩
      · have hmem : slot ∈ TokenKind.colorSlots := hslot
        obtain ⟨color, hcolor⟩ := Entries.exists_lookup (hnames ▸ hmem)
        rw [hl] at hcolor
        cases hcolor
      · simp only [TokenKind.acceptsPair, Bool.and_eq_true, List.contains_iff_mem] at hpair
        obtain ⟨color, hcolor⟩ := Entries.exists_lookup (hnames ▸ hpair.1)
        obtain ⟨state, hstate⟩ := exists_state second hpair.2
        -- The slot was cut at its first dot; no state has one, so it is also the last.
        have hlast := Text.splitLast_append first (dot_not_mem_state second hpair.2)
        rw [← Text.eq_of_splitFirst hsplit] at hlast
        exact ⟨color.inState state, by simp [hlast, hstate, hcolor]⟩

theorem mem_states_of_ofSuffix? {suffix : String} {state : ColorState}
    (h : ColorState.ofSuffix? suffix = some state) : suffix ∈ TokenKind.colorStates := by
  unfold ColorState.ofSuffix? at h
  split at h
  · exact .head _
  · exact .tail _ (.head _)
  · exact .tail _ (.tail _ (.head _))
  · cases h

/-- Only accepted color slots have a color. -/
theorem accepts_of_get? {primary : Color α} {accent : Option (Color α)} {dark : Bool}
    {slot : String} {color : Color α}
    (h : (generate primary accent dark).get? slot = some color) :
    TokenKind.color.accepts slot = true := by
  have hnames := names_generate primary accent dark
  unfold get? at h
  cases hl : (generate primary accent dark).slots.lookup slot with
  | some plain =>
      have hslot : slot ∈ TokenKind.colorSlots := hnames ▸ Entries.mem_names_of_lookup hl
      exact TokenKind.accepts_iff.mpr (Or.inl hslot)
  | none =>
      simp only [hl, Option.bind_eq_bind, Option.bind_eq_some_iff, Prod.exists] at h
      obtain ⟨base, suffix, hlast, state, hstate, plain, hbase, -⟩ := h
      have hslot : base ∈ TokenKind.colorSlots := hnames ▸ Entries.mem_names_of_lookup hbase
      -- The slot was cut at its last dot; no plain slot has one, so it is also the first.
      have hfirst := Text.splitFirst_append suffix (dot_not_mem_slot base hslot)
      rw [← Text.eq_of_splitLast hlast] at hfirst
      refine TokenKind.accepts_iff.mpr (Or.inr ⟨base, suffix, hfirst, ?_⟩)
      simp only [TokenKind.acceptsPair, Bool.and_eq_true, List.contains_iff_mem]
      exact ⟨hslot, mem_states_of_ofSuffix? hstate⟩

end Palette

/-! ### Motion -/

namespace Motion

theorem names_easings : Entries.names standard.easings = TokenKind.easings := rfl

theorem names_durations : Entries.names standard.durations = TokenKind.durations := rfl

theorem names_springs : Entries.names standard.springs = TokenKind.springs := rfl

theorem exists_timing {easing duration : String} (he : easing ∈ TokenKind.easings)
    (hd : duration ∈ TokenKind.durations) :
    ∃ animation, standard.timing? easing duration = some animation := by
  obtain ⟨curve, hcurve⟩ := Entries.exists_lookup (names_easings ▸ he)
  obtain ⟨seconds, hseconds⟩ := Entries.exists_lookup (names_durations ▸ hd)
  exact ⟨.timing curve seconds, by simp [timing?, hcurve, hseconds]⟩

theorem isSome_get?_plain : ∀ slot ∈ TokenKind.motion.slots, (standard.get? slot).isSome := by
  decide

/-- Every accepted motion slot has an animation. -/
theorem exists_get? {slot : String} (h : TokenKind.motion.accepts slot = true) :
    ∃ animation, standard.get? slot = some animation := by
  rcases TokenKind.accepts_iff.mp h with hslot | ⟨first, second, hsplit, hpair⟩
  · exact Option.isSome_iff_exists.mp (isSome_get?_plain slot hslot)
  · simp only [get?, hsplit]
    simp only [TokenKind.acceptsPair] at hpair
    split at hpair
    next hspring =>
      rw [List.contains_iff_mem] at hpair
      obtain ⟨spring, hlookup⟩ := Entries.exists_lookup (names_springs ▸ hpair)
      exact ⟨.spring spring, by rw [if_pos hspring, hlookup, Option.map_some]⟩
    next hspring =>
      rw [if_neg hspring]
      simp only [Bool.and_eq_true, List.contains_iff_mem] at hpair
      exact exists_timing hpair.1 hpair.2

theorem mem_of_timing? {easing duration : String} {animation : Animation}
    (h : standard.timing? easing duration = some animation) :
    easing ∈ TokenKind.easings ∧ duration ∈ TokenKind.durations := by
  simp only [timing?, Option.bind_eq_bind, Option.bind_eq_some_iff] at h
  obtain ⟨curve, hcurve, seconds, hseconds, -⟩ := h
  exact ⟨names_easings ▸ Entries.mem_names_of_lookup hcurve,
    names_durations ▸ Entries.mem_names_of_lookup hseconds⟩

/-- Only accepted motion slots have an animation. -/
theorem accepts_of_get? {slot : String} {animation : Animation}
    (h : standard.get? slot = some animation) : TokenKind.motion.accepts slot = true := by
  rw [TokenKind.accepts_iff]
  unfold get? at h
  split at h
  next first second hsplit =>
    refine Or.inr ⟨first, second, hsplit, ?_⟩
    simp only [TokenKind.acceptsPair]
    split at h
    next hspring =>
      obtain ⟨spring, hlookup, -⟩ := Option.map_eq_some_iff.mp h
      rw [if_pos hspring, List.contains_iff_mem, ← names_springs]
      exact Entries.mem_names_of_lookup hlookup
    next hspring =>
      rw [if_neg hspring, Bool.and_eq_true, List.contains_iff_mem, List.contains_iff_mem]
      exact mem_of_timing? h
  next =>
    refine Or.inl (List.mem_append.mpr ?_)
    split at h
    · exact Or.inl (mem_of_timing? h).2
    · exact Or.inr (mem_of_timing? h).1

end Motion

/-! ### Text -/

namespace Typography

variable {α : Type} [Measure α]

theorem names_styles_append_names_scale (baseSize ratio : α) :
    Entries.names (generate baseSize ratio).styles ++
      Entries.names (generate baseSize ratio).scale = TokenKind.font.slots := rfl

/-- Every font slot is a style or a step of the scale. -/
theorem exists_font? (baseSize ratio : α) {slot : String} (h : slot ∈ TokenKind.font.slots) :
    ∃ style, (generate baseSize ratio).font? slot = some style := by
  unfold font?
  cases hl : (generate baseSize ratio).styles.lookup slot with
  | some style => exact ⟨style, rfl⟩
  | none =>
      rw [← names_styles_append_names_scale baseSize ratio, List.mem_append] at h
      rcases h with h | h
      · obtain ⟨style, hstyle⟩ := Entries.exists_lookup h
        rw [hl] at hstyle
        cases hstyle
      · obtain ⟨size, hsize⟩ := Entries.exists_lookup h
        exact ⟨⟨slot, size, .regular, .sans, normalHeight, 0.0⟩, by rw [hsize, Option.map_some]⟩

theorem mem_slots_of_font? {baseSize ratio : α} {slot : String} {style : TextStyle α}
    (h : (generate baseSize ratio).font? slot = some style) : slot ∈ TokenKind.font.slots := by
  rw [← names_styles_append_names_scale baseSize ratio, List.mem_append]
  unfold font? at h
  split at h
  next hstyle => exact Or.inl (Entries.mem_names_of_lookup hstyle)
  next =>
    obtain ⟨size, hsize, -⟩ := Option.map_eq_some_iff.mp h
    exact Or.inr (Entries.mem_names_of_lookup hsize)

end Typography

/-! ### All kinds -/

namespace DesignTokens

/-- **An accepted slot stands for a token of its kind, whatever the tokens are made from.** -/
theorem exists_resolve (name version : String) (inputs : TokenInputs) {kind : TokenKind}
    {slot : String} (h : kind.accepts slot = true) :
    ∃ token, (generate name version inputs).resolve kind slot = .ok token ∧
      kind.holds token = true := by
  have hfind : ∃ token, (generate name version inputs).find? kind slot = some token ∧
      kind.holds token = true := by
    -- A table that is made over the slots of the kind has a value for each of them.
    have htable : ∀ {α : Type} (table : Entries α), Entries.names table = kind.slots →
        kind ≠ .color → kind ≠ .motion → ∃ value, table.lookup slot = some value := by
      intro α table hnames hc hm
      exact Entries.exists_lookup (hnames ▸ TokenKind.mem_slots_of_accepts h hc hm)
    cases kind with
    | color =>
        obtain ⟨color, hcolor⟩ :=
          Palette.exists_get? inputs.primary inputs.accent inputs.dark h
        exact ⟨.color color, by simp [find?, generate, hcolor], rfl⟩
    | spacing =>
        obtain ⟨x, hx⟩ := htable (Spacing.generate inputs.baseUnit).scale rfl
          (by decide) (by decide)
        exact ⟨.dimension x, by simp [find?, generate, hx], rfl⟩
    | font =>
        obtain ⟨style, hstyle⟩ := Typography.exists_font? inputs.baseFontSize
          Typography.defaultRatio (TokenKind.mem_slots_of_accepts h (by decide) (by decide))
        exact ⟨.font style, by simp [find?, generate, hstyle], rfl⟩
    | radius =>
        obtain ⟨x, hx⟩ := htable (Spacing.generate inputs.baseUnit).radii rfl
          (by decide) (by decide)
        exact ⟨.dimension x, by simp [find?, generate, hx], rfl⟩
    | shadow =>
        obtain ⟨x, hx⟩ := htable (Elevation.generate inputs.shadowIntensity).levels rfl
          (by decide) (by decide)
        exact ⟨.shadow x, by simp [find?, generate, hx], rfl⟩
    | motion =>
        obtain ⟨animation, hanimation⟩ := Motion.exists_get? h
        exact ⟨.motion animation, by simp [find?, generate, hanimation], rfl⟩
    | lineHeight =>
        obtain ⟨x, hx⟩ := htable (Typography.heights : Entries Float) rfl
          (by decide) (by decide)
        exact ⟨.number x, by simp [find?, generate, Typography.generate, hx], rfl⟩
    | letterSpacing =>
        obtain ⟨x, hx⟩ := htable (Typography.spacings : Entries Float) rfl
          (by decide) (by decide)
        exact ⟨.dimension (Measure.roundHundredths (x * inputs.baseFontSize)),
          by simp [find?, generate, Typography.generate, Typography.tracking?, hx], rfl⟩
    | borderWidth =>
        obtain ⟨x, hx⟩ := htable (Spacing.generate inputs.baseUnit).borderWidths rfl
          (by decide) (by decide)
        exact ⟨.dimension x, by simp [find?, generate, hx], rfl⟩
  obtain ⟨token, htoken, hholds⟩ := hfind
  exact ⟨token, by rw [resolve, htoken], hholds⟩

/-- Only an accepted slot stands for a token. -/
theorem accepts_of_resolve {name version : String} {inputs : TokenInputs} {kind : TokenKind}
    {slot : String} {token : Token}
    (h : (generate name version inputs).resolve kind slot = .ok token) :
    kind.accepts slot = true := by
  have hfind : (generate name version inputs).find? kind slot = some token := by
    unfold resolve at h
    split at h
    next hfind =>
      cases h
      exact hfind
    · cases h
  have htable : ∀ {α : Type} {table : Entries α} {f : α → Token},
      (table.lookup slot).map f = some token → Entries.names table = kind.slots →
        kind.accepts slot = true := by
    intro α table f hmap hnames
    obtain ⟨value, hvalue, -⟩ := Option.map_eq_some_iff.mp hmap
    exact TokenKind.accepts_iff.mpr (Or.inl (hnames ▸ Entries.mem_names_of_lookup hvalue))
  cases kind with
  | color =>
      obtain ⟨color, hcolor, -⟩ := Option.map_eq_some_iff.mp hfind
      exact Palette.accepts_of_get? hcolor
  | spacing => exact htable hfind rfl
  | font =>
      obtain ⟨style, hstyle, -⟩ := Option.map_eq_some_iff.mp hfind
      exact TokenKind.accepts_iff.mpr (Or.inl (Typography.mem_slots_of_font? hstyle))
  | radius => exact htable hfind rfl
  | shadow => exact htable hfind rfl
  | motion =>
      obtain ⟨animation, hanimation, -⟩ := Option.map_eq_some_iff.mp hfind
      exact Motion.accepts_of_get? hanimation
  | lineHeight => exact htable hfind rfl
  | letterSpacing =>
      obtain ⟨x, hx, -⟩ := Option.map_eq_some_iff.mp hfind
      obtain ⟨em, hem, -⟩ := Option.map_eq_some_iff.mp hx
      have hnames : Entries.names (Typography.spacings : Entries Float) =
          TokenKind.letterSpacing.slots := rfl
      exact TokenKind.accepts_iff.mpr (Or.inl (hnames ▸ Entries.mem_names_of_lookup hem))
  | borderWidth => exact htable hfind rfl

end DesignTokens

end Screenwright
