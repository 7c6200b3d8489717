/-
Modifiers that have passed their check are lowered.

The check reads a table of forms and never looks at tokens, scopes or handlers; lowering
reads the arguments one by one and knows no table.  Here the two are matched: an
argument that fits its shape is one that the reader of that shape reads, and a modifier
whose arguments fit one of its forms comes through.  Two premises are not the modifier's
own: the path that an animation watches has to be in scope, and the action that a
gesture triggers has to be fine.
-/
import Screenwright.Proofs.Lowering.Uses
import Screenwright.Proofs.Tokens

namespace Screenwright

open Steps

/-- Whether the tokens of the kind are lengths. -/
def TokenKind.isLength : TokenKind → Bool
  | spacing | radius | borderWidth | letterSpacing => true
  | _ => false

namespace Setting

/-- The tokens of the setting hold what the slots promise. -/
def Ready (s : Setting) : Prop :=
  ∀ (kind : TokenKind) (slot : String), kind.accepts slot = true →
    ∃ token, s.tokens.resolve kind slot = .ok token ∧ kind.holds token = true

variable {s : Setting} {slot : String} (node : String)

/-! ### Tokens -/

theorem token_eq_ok {kind : TokenKind} (hready : s.Ready) (h : kind.accepts slot = true) :
    ∃ token, s.token node ⟨kind, slot⟩ = .ok token ∧ kind.holds token = true := by
  obtain ⟨token, htoken, hholds⟩ := hready kind slot h
  exact ⟨token, by rw [Setting.token, htoken], hholds⟩

theorem dimension_eq_ok {kind : TokenKind} (hready : s.Ready) (hkind : kind.isLength = true)
    (h : kind.accepts slot = true) : ∃ x, s.dimension node ⟨kind, slot⟩ = .ok x := by
  obtain ⟨token, htoken, hholds⟩ := token_eq_ok node hready h
  unfold dimension
  rw [htoken, ok_bind]
  cases token with
  | dimension x => exact ⟨x, rfl⟩
  | _ => cases kind <;> simp [TokenKind.isLength, TokenKind.holds] at hkind hholds

theorem color_eq_ok (hready : s.Ready) (h : TokenKind.color.accepts slot = true) :
    ∃ v, s.color node ⟨.color, slot⟩ = .ok v := by
  obtain ⟨token, htoken, hholds⟩ := token_eq_ok node hready h
  unfold color
  rw [htoken, ok_bind]
  cases token with
  | color c => exact ⟨.color c.toRgba, rfl⟩
  | _ => simp [TokenKind.holds] at hholds

theorem factor_eq_ok (hready : s.Ready) (h : TokenKind.lineHeight.accepts slot = true) :
    ∃ x, s.factor node ⟨.lineHeight, slot⟩ = .ok x := by
  obtain ⟨token, htoken, hholds⟩ := token_eq_ok node hready h
  unfold factor
  rw [htoken, ok_bind]
  cases token with
  | number x => exact ⟨x, rfl⟩
  | _ => simp [TokenKind.holds] at hholds

theorem font_eq_ok (hready : s.Ready) (h : TokenKind.font.accepts slot = true) :
    ∃ v, s.font node ⟨.font, slot⟩ = .ok v := by
  obtain ⟨token, htoken, hholds⟩ := token_eq_ok node hready h
  unfold font
  rw [htoken, ok_bind]
  cases token with
  | font style => exact ⟨_, rfl⟩
  | _ => simp [TokenKind.holds] at hholds

theorem shadow_eq_ok (hready : s.Ready) (h : TokenKind.shadow.accepts slot = true) :
    ∃ m, s.shadow node ⟨.shadow, slot⟩ = .ok m := by
  obtain ⟨token, htoken, hholds⟩ := token_eq_ok node hready h
  unfold shadow
  rw [htoken, ok_bind]
  cases token with
  | shadow shadow => exact ⟨shadowModifier shadow, rfl⟩
  | _ => simp [TokenKind.holds] at hholds

theorem motion_eq_ok (hready : s.Ready) (h : TokenKind.motion.accepts slot = true) :
    ∃ v, s.motion node ⟨.motion, slot⟩ = .ok v := by
  obtain ⟨token, htoken, hholds⟩ := token_eq_ok node hready h
  unfold motion
  rw [htoken, ok_bind]
  cases token with
  | motion animation => exact ⟨animationValue animation, rfl⟩
  | _ => simp [TokenKind.holds] at hholds

end Setting

/-! ### What the shapes accept -/

namespace ArgShape

variable {value : Json}

theorem exists_finite (h : (finite value).map (fun _ => ()) = .ok ()) :
    ∃ x, value.float? = some x ∧ x.isFinite = true := by
  obtain ⟨x, hx, -⟩ := map_eq_ok.mp h
  unfold finite at hx
  split at hx
  next y hy =>
    split at hx
    next hfinite => exact ⟨y, hy, hfinite⟩
    · cases hx
  · cases hx

theorem exists_slot {kind : TokenKind} (h : checkToken kind value = .ok ()) :
    ∃ slot, value = .string slot ∧ kind.accepts slot = true := by
  unfold checkToken at h
  split at h
  next slot =>
    split at h
    next haccepts => exact ⟨slot, rfl, haccepts⟩
    · cases h
  · cases h

theorem exists_fraction (h : fraction.check value = .ok ()) :
    ∃ x, value.float? = some x ∧ x.isFinite = true ∧ (0.0 ≤ x && x ≤ 1.0) = true := by
  obtain ⟨x, hx, hrange⟩ := bind_eq_ok.mp h
  have hcheck : (finite value).map (fun _ => ()) = .ok () := by rw [hx]; rfl
  obtain ⟨y, hy, hfinite⟩ := exists_finite hcheck
  have hxy : x = y := by
    simp only [finite, hy, hfinite, if_true] at hx
    cases hx
    rfl
  split at hrange
  next hin => exact ⟨y, hy, hfinite, hxy ▸ hin⟩
  · cases hrange

theorem exists_count (h : count.check value = .ok ()) :
    ∃ n, value.int? = some n ∧ 1 ≤ n := by
  simp only [check] at h
  split at h
  next n hn =>
    split at h
    next hpos => exact ⟨n, hn, hpos⟩
    · cases h
  · cases h

theorem exists_bool (h : bool.check value = .ok ()) : ∃ b, value.bool? = some b := by
  simp only [check] at h
  split at h
  next hsome => exact Option.isSome_iff_exists.mp hsome
  · cases h

theorem exists_text (h : text.check value = .ok ()) : ∃ s, value.string? = some s := by
  simp only [check] at h
  split at h
  next hsome => exact Option.isSome_iff_exists.mp hsome
  · cases h

theorem exists_edge (h : edge.check value = .ok ()) :
    ∃ name, value.string? = some name ∧ Modifier.edges.contains name = true := by
  simp only [check] at h
  split at h
  next name hname =>
    split at h
    next hedge => exact ⟨name, hname, hedge⟩
    · cases h
  · cases h

theorem exists_frame (h : frame.check value = .ok ()) : ∃ f, Frame.read value = .ok f := by
  simp only [check] at h
  split at h
  next f hf => exact ⟨f, hf⟩
  · cases h

theorem exists_path (h : path.check value = .ok ()) :
    ∃ p, value.string? = some p ∧ isPath p = true := by
  simp only [check] at h
  split at h
  next p hp =>
    split at h
    next hpath => exact ⟨p, hp, hpath⟩
    · cases h
  · cases h

theorem exists_action (h : action.check value = .ok ()) :
    ∃ a, Action.ofJson value = .ok a ∧ a.check = .ok () := by
  simp only [check] at h
  split at h
  · cases h
  next a ha =>
    split at h
    next hcheck => exact ⟨a, ha, hcheck⟩
    · cases h

end ArgShape

/-! ### The form of a modifier -/

/-- The arguments have the shapes of a form. -/
def Modifier.Fit (form : List ArgShape) (args : List Json) : Prop :=
  List.Forall₂ (fun shape value => ArgShape.check shape value = .ok ()) form args

/-- The arguments fit one of the forms. -/
def Modifier.Takes (forms : List (List ArgShape)) (args : List Json) : Prop :=
  ∃ form ∈ forms, Fit form args

theorem Modifier.fit_of_checkArgs {shapes : List ArgShape} :
    ∀ {position : Nat} {args : List Json}, shapes.length = args.length →
      checkArgs position shapes args = .ok () → Fit shapes args := by
  induction shapes with
  | nil =>
      intro position args hlength _
      rw [List.length_nil] at hlength
      rw [List.length_eq_zero_iff.mp hlength.symm]
      exact .nil
  | cons shape shapes ih =>
      intro position args hlength h
      cases args with
      | nil => cases hlength
      | cons value values =>
          simp only [checkArgs] at h
          split at h
          · cases h
          next hvalue => exact .cons hvalue (ih (by simpa using hlength) h)

/-- A checked modifier is one of the table, and its arguments fit. -/
theorem Modifier.takes_of_check {m : Modifier} (h : m.check = .ok ()) :
    ∃ forms, signatures.lookup m.name = some forms ∧ Takes forms m.args := by
  simp only [check] at h
  split at h
  · cases h
  next forms hforms =>
    split at h
    · cases h
    next form hform =>
      have hlength : form.length = m.args.length := by
        simpa using List.find?_some hform
      exact ⟨forms, hforms, form, List.mem_of_find?_eq_some hform, fit_of_checkArgs hlength h⟩

namespace Modifier.Fit

variable {a b c : ArgShape} {args : List Json}

theorem nil (h : Fit [] args) : args = [] :=
  List.forall₂_nil_left_iff.mp h

theorem one (h : Fit [a] args) : ∃ x, args = [x] ∧ a.check x = .ok () := by
  obtain ⟨x, rest, hx, hrest, rfl⟩ := List.forall₂_cons_left_iff.mp h
  rw [nil hrest]
  exact ⟨x, rfl, hx⟩

theorem two (h : Fit [a, b] args) :
    ∃ x y, args = [x, y] ∧ a.check x = .ok () ∧ b.check y = .ok () := by
  obtain ⟨x, rest, hx, hrest, rfl⟩ := List.forall₂_cons_left_iff.mp h
  obtain ⟨y, rfl, hy⟩ := one hrest
  exact ⟨x, y, rfl, hx, hy⟩

theorem three (h : Fit [a, b, c] args) :
    ∃ x y z, args = [x, y, z] ∧ a.check x = .ok () ∧ b.check y = .ok () ∧ c.check z = .ok () := by
  obtain ⟨x, rest, hx, hrest, rfl⟩ := List.forall₂_cons_left_iff.mp h
  obtain ⟨y, z, rfl, hy, hz⟩ := two hrest
  exact ⟨x, y, z, rfl, hx, hy, hz⟩

end Modifier.Fit

theorem Modifier.takes_one {form : List ArgShape} {args : List Json} (h : Takes [form] args) :
    Fit form args := by
  obtain ⟨_, hmem, hfit⟩ := h
  rwa [List.mem_singleton.mp hmem] at hfit

theorem Modifier.takes_two {form form' : List ArgShape} {args : List Json}
    (h : Takes [form, form'] args) : Fit form args ∨ Fit form' args := by
  obtain ⟨_, hmem, hfit⟩ := h
  rcases List.mem_pair.mp hmem with rfl | rfl
  · exact Or.inl hfit
  · exact Or.inr hfit

/-- A checked modifier that triggers an action takes that action, which is checked too. -/
theorem Modifier.exists_action_of_check {m : Modifier} (h : m.check = .ok ())
    (htriggers : m.triggers = true) :
    ∃ value a, m.args = [value] ∧ Action.ofJson value = .ok a ∧ a.check = .ok () ∧
      m.action? = some a := by
  obtain ⟨forms, hforms, htakes⟩ := takes_of_check h
  have hform : signatures.lookup m.name = some [[.action]] := by
    simp only [triggers, Bool.or_eq_true, decide_eq_true_eq] at htriggers
    rcases htriggers with hname | hname
    · rw [hname]; rfl
    · rw [hname]; rfl
  rw [hform] at hforms
  cases hforms
  obtain ⟨value, hargs, hvalue⟩ := (takes_one htakes).one
  obtain ⟨a, ha, hcheck⟩ := ArgShape.exists_action hvalue
  refine ⟨value, a, hargs, ha, hcheck, ?_⟩
  rw [action?, if_pos htriggers, hargs, List.head?_cons, Option.bind_some, ha]
  rfl

namespace ModifierUse

variable {u : ModifierUse} {s : Setting} {index : Nat} {value : Json}

/-! ### Reading arguments -/

theorem arg?_eq_some (index : Nat) {args : List Json} (hargs : u.modifier.args = args)
    (h : args[index]? = some value) : u.arg? index = some value := by
  rw [arg?, hargs, h]

theorem string_eq_ok {text : String} (harg : u.arg? index = some value)
    (h : value.string? = some text) : u.string index = .ok text := by
  rw [string, harg, Option.bind_some, h]

theorem number_eq_ok {x : Float} (harg : u.arg? index = some value)
    (h : value.float? = some x) (hfinite : x.isFinite = true) : u.number index = .ok x := by
  rw [number, harg, Option.bind_some, h]
  exact if_pos hfinite

theorem color_eq_ok (hready : s.Ready) (harg : u.arg? index = some value)
    (h : (ArgShape.token .color).check value = .ok ()) : ∃ v, u.color s index = .ok v := by
  obtain ⟨slot, rfl, haccepts⟩ := ArgShape.exists_slot h
  obtain ⟨v, hv⟩ := Setting.color_eq_ok u.node hready haccepts
  exact ⟨v, by rw [color, token, string_eq_ok harg rfl]; exact hv⟩

theorem length_eq_ok {kind : TokenKind} (hready : s.Ready) (hkind : kind.isLength = true)
    (harg : u.arg? index = some value) (h : (ArgShape.length kind).check value = .ok ()) :
    ∃ x, u.length s index kind = .ok x := by
  unfold length
  rw [harg]
  cases value with
  | int n =>
      obtain ⟨x, hx, hfinite⟩ := ArgShape.exists_finite h
      exact ⟨x, number_eq_ok harg hx hfinite⟩
  | float y =>
      obtain ⟨x, hx, hfinite⟩ := ArgShape.exists_finite h
      exact ⟨x, number_eq_ok harg hx hfinite⟩
  | string text =>
      have hcheck : ArgShape.checkToken kind (.string text) = .ok () := h
      obtain ⟨_, ⟨⟩, haccepts⟩ := ArgShape.exists_slot hcheck
      exact Setting.dimension_eq_ok _ hready hkind haccepts
  | _ => cases h

theorem checkCount_eq_ok {low high : Nat} (hlow : low ≤ u.modifier.args.length)
    (hhigh : u.modifier.args.length ≤ high) : u.checkCount low high = .ok () := by
  simp [checkCount, hlow, hhigh]

/-! ### Lowering each modifier -/

section Lowered

open Modifier (Takes)

theorem opacity_eq_ok (h : Takes [[.fraction]] u.modifier.args) : ∃ m, u.opacity = .ok m := by
  obtain ⟨value, hargs, hvalue⟩ := (Modifier.takes_one h).one
  obtain ⟨x, hx, hfinite, hrange⟩ := ArgShape.exists_fraction hvalue
  have hread := number_eq_ok (arg?_eq_some 0 hargs rfl) hx hfinite
  exact ⟨_, by simp only [opacity, checkCount, hargs, hread, ok_bind, hrange]; rfl⟩

theorem frame_eq_ok (h : Takes [[.frame]] u.modifier.args) : ∃ m, u.frame = .ok m := by
  obtain ⟨value, hargs, hvalue⟩ := (Modifier.takes_one h).one
  obtain ⟨f, hf⟩ := ArgShape.exists_frame hvalue
  have harg := arg?_eq_some 0 hargs rfl
  exact ⟨_, by simp only [frame, checkCount, hargs, harg, Option.getD_some, hf]; rfl⟩

theorem fillWidth_eq_ok (h : Takes [[]] u.modifier.args) : ∃ m, u.fillWidth = .ok m := by
  have hargs := (Modifier.takes_one h).nil
  exact ⟨_, by simp only [fillWidth, checkCount, hargs]; rfl⟩

theorem simple_eq_ok (h : Takes [[]] u.modifier.args) : ∃ m, u.simple = .ok m := by
  have hargs := (Modifier.takes_one h).nil
  exact ⟨_, by simp only [simple, checkCount, hargs]; rfl⟩

theorem lineLimit_eq_ok (h : Takes [[.count]] u.modifier.args) : ∃ m, u.lineLimit = .ok m := by
  obtain ⟨value, hargs, hvalue⟩ := (Modifier.takes_one h).one
  obtain ⟨n, hn, hpos⟩ := ArgShape.exists_count hvalue
  have harg := arg?_eq_some 0 hargs rfl
  exact ⟨_, by
    simp only [lineLimit, checkCount, hargs, harg, Option.bind_some, hn, hpos]; rfl⟩

theorem scale_eq_ok (h : Takes [[.number]] u.modifier.args) : ∃ m, u.scale = .ok m := by
  obtain ⟨value, hargs, hvalue⟩ := (Modifier.takes_one h).one
  obtain ⟨x, hx, hfinite⟩ := ArgShape.exists_finite hvalue
  have hread := number_eq_ok (arg?_eq_some 0 hargs rfl) hx hfinite
  exact ⟨_, by simp only [scale, checkCount, hargs, hread]; rfl⟩

theorem rotation_eq_ok (h : Takes [[.number]] u.modifier.args) : ∃ m, u.rotation = .ok m := by
  obtain ⟨value, hargs, hvalue⟩ := (Modifier.takes_one h).one
  obtain ⟨x, hx, hfinite⟩ := ArgShape.exists_finite hvalue
  have hread := number_eq_ok (arg?_eq_some 0 hargs rfl) hx hfinite
  exact ⟨_, by simp only [rotation, checkCount, hargs, hread]; rfl⟩

theorem disabled_eq_ok (h : Takes [[], [.bool]] u.modifier.args) : ∃ m, u.disabled = .ok m := by
  rcases Modifier.takes_two h with h | h
  · have hargs := h.nil
    exact ⟨_, by simp only [disabled, boolOrTrue, arg?, checkCount, hargs]; rfl⟩
  · obtain ⟨value, hargs, hvalue⟩ := h.one
    obtain ⟨b, hb⟩ := ArgShape.exists_bool hvalue
    have harg := arg?_eq_some 0 hargs rfl
    exact ⟨_, by simp only [disabled, boolOrTrue, harg, checkCount, hargs, hb]; rfl⟩

theorem texted_eq_ok (h : Takes [[.text]] u.modifier.args) : ∃ m, u.texted = .ok m := by
  obtain ⟨value, hargs, hvalue⟩ := (Modifier.takes_one h).one
  obtain ⟨text, htext⟩ := ArgShape.exists_text hvalue
  have hread := string_eq_ok (arg?_eq_some 0 hargs rfl) htext
  exact ⟨_, by simp only [texted, checkCount, hargs, hread]; rfl⟩

variable (hready : s.Ready)

include hready

theorem padding_eq_ok
    (h : Takes [[], [.length .spacing], [.edge, .length .spacing]] u.modifier.args) :
    ∃ m, u.padding s = .ok m := by
  obtain ⟨form, hform, h⟩ := h
  simp only [List.mem_cons, List.not_mem_nil, or_false] at hform
  rcases hform with rfl | rfl | rfl
  · have hargs := h.nil
    exact ⟨_, by simp only [padding, checkCount, hargs]; rfl⟩
  · obtain ⟨amount, hargs, hamount⟩ := h.one
    obtain ⟨x, hx⟩ := length_eq_ok hready rfl (arg?_eq_some 0 hargs rfl) hamount
    exact ⟨_, by simp only [padding, checkCount, hargs, hx]; rfl⟩
  · obtain ⟨edge, amount, hargs, hedge, hamount⟩ := h.two
    obtain ⟨x, hx⟩ := length_eq_ok hready rfl (arg?_eq_some 1 hargs rfl) hamount
    obtain ⟨name, hname, hin⟩ := ArgShape.exists_edge hedge
    have hread := string_eq_ok (arg?_eq_some 0 hargs rfl) hname
    exact ⟨_, by simp only [padding, checkCount, hargs, hx, edgeArgs, hread, ok_bind, hin]; rfl⟩

theorem background_eq_ok (h : Takes [[.token .color], [.token .color, .length .radius]]
    u.modifier.args) : ∃ m, u.background s = .ok m := by
  rcases Modifier.takes_two h with h | h
  · obtain ⟨slot, hargs, hslot⟩ := h.one
    obtain ⟨v, hv⟩ := color_eq_ok hready (arg?_eq_some 0 hargs rfl) hslot
    exact ⟨_, by simp only [background, checkCount, hargs, hv, arg?]; rfl⟩
  · obtain ⟨slot, radius, hargs, hslot, hradius⟩ := h.two
    obtain ⟨v, hv⟩ := color_eq_ok hready (arg?_eq_some 0 hargs rfl) hslot
    obtain ⟨x, hx⟩ := length_eq_ok hready rfl (arg?_eq_some 1 hargs rfl) hradius
    exact ⟨_, by simp only [background, checkCount, hargs, hv, hx, arg?]; rfl⟩

theorem tinted_eq_ok (h : Takes [[.token .color]] u.modifier.args) :
    ∃ m, u.tinted s = .ok m := by
  obtain ⟨slot, hargs, hslot⟩ := (Modifier.takes_one h).one
  obtain ⟨v, hv⟩ := color_eq_ok hready (arg?_eq_some 0 hargs rfl) hslot
  exact ⟨_, by simp only [tinted, checkCount, hargs, hv]; rfl⟩

theorem font_eq_ok (h : Takes [[.token .font]] u.modifier.args) : ∃ m, u.font s = .ok m := by
  obtain ⟨value, hargs, hvalue⟩ := (Modifier.takes_one h).one
  obtain ⟨slot, rfl, haccepts⟩ := ArgShape.exists_slot hvalue
  have hread := string_eq_ok (arg?_eq_some 0 hargs rfl) rfl
  obtain ⟨v, hv⟩ := Setting.font_eq_ok u.node hready haccepts
  exact ⟨_, by simp only [font, token, checkCount, hargs, hread, Except.map, ok_bind, hv]; rfl⟩

theorem cornerRadius_eq_ok (h : Takes [[.length .radius]] u.modifier.args) :
    ∃ m, u.cornerRadius s = .ok m := by
  obtain ⟨radius, hargs, hradius⟩ := (Modifier.takes_one h).one
  obtain ⟨x, hx⟩ := length_eq_ok hready rfl (arg?_eq_some 0 hargs rfl) hradius
  exact ⟨_, by simp only [cornerRadius, checkCount, hargs, hx]; rfl⟩

theorem shadow_eq_ok (h : Takes [[.token .shadow]] u.modifier.args) :
    ∃ m, u.shadow s = .ok m := by
  obtain ⟨value, hargs, hvalue⟩ := (Modifier.takes_one h).one
  obtain ⟨slot, rfl, haccepts⟩ := ArgShape.exists_slot hvalue
  have hread := string_eq_ok (arg?_eq_some 0 hargs rfl) rfl
  obtain ⟨m, hm⟩ := Setting.shadow_eq_ok u.node hready haccepts
  exact ⟨m, by simp only [shadow, token, checkCount, hargs, hread, Except.map, ok_bind, hm]; rfl⟩

theorem border_eq_ok (h : Takes [[.token .color, .length .borderWidth],
    [.token .color, .length .borderWidth, .length .radius]] u.modifier.args) :
    ∃ m, u.border s = .ok m := by
  rcases Modifier.takes_two h with h | h
  · obtain ⟨slot, width, hargs, hslot, hwidth⟩ := h.two
    obtain ⟨v, hv⟩ := color_eq_ok hready (arg?_eq_some 0 hargs rfl) hslot
    obtain ⟨x, hx⟩ := length_eq_ok hready rfl (arg?_eq_some 1 hargs rfl) hwidth
    exact ⟨_, by simp only [border, checkCount, hargs, hv, hx, arg?]; rfl⟩
  · obtain ⟨slot, width, radius, hargs, hslot, hwidth, hradius⟩ := h.three
    obtain ⟨v, hv⟩ := color_eq_ok hready (arg?_eq_some 0 hargs rfl) hslot
    obtain ⟨x, hx⟩ := length_eq_ok hready rfl (arg?_eq_some 1 hargs rfl) hwidth
    obtain ⟨y, hy⟩ := length_eq_ok hready rfl (arg?_eq_some 2 hargs rfl) hradius
    exact ⟨_, by simp only [border, checkCount, hargs, hv, hx, hy, arg?]; rfl⟩

theorem animation_eq_ok (h : Takes [[.token .motion, .path]] u.modifier.args)
    (hscope : ∀ path, u.modifier.args[1]?.bind Json.string? = some path →
      ∃ bound, s.scope.lookup path = .ok bound) : ∃ m, u.animation s = .ok m := by
  obtain ⟨value, path, hargs, hvalue, hpath⟩ := (Modifier.takes_one h).two
  obtain ⟨slot, rfl, haccepts⟩ := ArgShape.exists_slot hvalue
  have hread := string_eq_ok (arg?_eq_some 0 hargs rfl) rfl
  obtain ⟨v, hv⟩ := Setting.motion_eq_ok u.node hready haccepts
  obtain ⟨text, htext, -⟩ := ArgShape.exists_path hpath
  have hread' := string_eq_ok (arg?_eq_some 1 hargs rfl) htext
  obtain ⟨bound, hbound⟩ := hscope text (by rw [hargs]; exact htext)
  exact ⟨_, by
    simp only [animation, token, checkCount, hargs, hread, Except.map, ok_bind, hv, hread', hbound]
    rfl⟩

theorem lineHeight_eq_ok (h : Takes [[.token .lineHeight]] u.modifier.args) :
    ∃ m, u.lineHeight s = .ok m := by
  obtain ⟨value, hargs, hvalue⟩ := (Modifier.takes_one h).one
  obtain ⟨slot, rfl, haccepts⟩ := ArgShape.exists_slot hvalue
  have hread := string_eq_ok (arg?_eq_some 0 hargs rfl) rfl
  obtain ⟨x, hx⟩ := Setting.factor_eq_ok u.node hready haccepts
  exact ⟨_, by
    simp only [lineHeight, token, checkCount, hargs, hread, Except.map, ok_bind, hx]; rfl⟩

theorem tracking_eq_ok (h : Takes [[.length .letterSpacing]] u.modifier.args) :
    ∃ m, u.tracking s = .ok m := by
  obtain ⟨space, hargs, hspace⟩ := (Modifier.takes_one h).one
  obtain ⟨x, hx⟩ := length_eq_ok hready rfl (arg?_eq_some 0 hargs rfl) hspace
  exact ⟨_, by simp only [tracking, checkCount, hargs, hx]; rfl⟩

end Lowered

/-! ### All modifiers -/

variable {φ : String → HandlerParams}

/-- What lowering a modifier has to do: its uses are the action that it triggers. -/
def IsLowered (u : ModifierUse) (s : Setting) (φ : String → HandlerParams) : Prop :=
  Lowers s φ (u.lower s) (u.modifier.action?.toList.map (.action u.node))

/-- What a modifier that triggers nothing comes to is read, and nothing is written down. -/
theorem lower_eq_pure (hready : s.Ready) (hcheck : u.modifier.check = .ok ())
    (htriggers : u.modifier.triggers = false)
    (hscope : u.modifier.name = "animation" →
      ∀ path, u.modifier.args[1]?.bind Json.string? = some path →
        ∃ bound, s.scope.lookup path = .ok bound) : ∃ m, u.lower s = pure m := by
  obtain ⟨forms, hforms, htakes⟩ := Modifier.takes_of_check hcheck
  have hread : ∀ {x : Except BuildError Swift.ViewModifier}, (∃ m, x = .ok m) →
      u.lower s = liftM x → ∃ m, u.lower s = pure m := by
    rintro x ⟨m, rfl⟩ hlower
    exact ⟨m, hlower⟩
  have hmem := Entries.mem_of_lookup hforms
  simp only [Modifier.signatures, List.mem_cons, Prod.mk.injEq, List.not_mem_nil, or_false] at hmem
  rcases hmem with ⟨hname, rfl⟩ | ⟨hname, rfl⟩ | ⟨hname, rfl⟩ | ⟨hname, rfl⟩ | ⟨hname, rfl⟩ |
    ⟨hname, rfl⟩ | ⟨hname, rfl⟩ | ⟨hname, rfl⟩ | ⟨hname, rfl⟩ | ⟨hname, rfl⟩ |
    ⟨hname, rfl⟩ | ⟨hname, rfl⟩ | ⟨hname, rfl⟩ | ⟨hname, rfl⟩ | ⟨hname, rfl⟩ |
    ⟨hname, rfl⟩ | ⟨hname, rfl⟩ | ⟨hname, rfl⟩ | ⟨hname, rfl⟩ | ⟨hname, rfl⟩ |
    ⟨hname, rfl⟩ | ⟨hname, rfl⟩ | ⟨hname, rfl⟩ | ⟨hname, rfl⟩ | ⟨hname, rfl⟩
  · exact hread (padding_eq_ok hready htakes) (by simp only [lower, hname])
  · exact hread (background_eq_ok hready htakes) (by simp only [lower, hname])
  · exact hread (tinted_eq_ok hready htakes) (by simp only [lower, hname])
  · exact hread (tinted_eq_ok hready htakes) (by simp only [lower, hname])
  · exact hread (font_eq_ok hready htakes) (by simp only [lower, hname])
  · exact hread (cornerRadius_eq_ok hready htakes) (by simp only [lower, hname])
  · exact hread (shadow_eq_ok hready htakes) (by simp only [lower, hname])
  · exact hread (opacity_eq_ok htakes) (by simp only [lower, hname])
  · exact hread (frame_eq_ok htakes) (by simp only [lower, hname])
  · exact hread (fillWidth_eq_ok htakes) (by simp only [lower, hname])
  · exact hread (border_eq_ok hready htakes) (by simp only [lower, hname])
  · exact hread (animation_eq_ok hready htakes (hscope hname)) (by simp only [lower, hname])
  · exact hread (lineHeight_eq_ok hready htakes) (by simp only [lower, hname])
  · exact hread (tracking_eq_ok hready htakes) (by simp only [lower, hname])
  · exact hread (simple_eq_ok htakes) (by simp only [lower, hname])
  · exact hread (simple_eq_ok htakes) (by simp only [lower, hname])
  · exact hread (lineLimit_eq_ok htakes) (by simp only [lower, hname])
  · exact hread (scale_eq_ok htakes) (by simp only [lower, hname])
  · exact hread (rotation_eq_ok htakes) (by simp only [lower, hname])
  · exact hread (disabled_eq_ok htakes) (by simp only [lower, hname])
  · exact hread (simple_eq_ok htakes) (by simp only [lower, hname])
  · exact hread (texted_eq_ok htakes) (by simp only [lower, hname])
  · exact hread (texted_eq_ok htakes) (by simp only [lower, hname])
  · simp [Modifier.triggers, hname] at htriggers
  · simp [Modifier.triggers, hname] at htriggers

/-- A modifier that triggers an action is lowered to that action. -/
theorem lower_eq_triggered (htriggers : u.modifier.triggers = true) :
    u.lower s = u.triggered s := by
  simp only [Modifier.triggers, Bool.or_eq_true, decide_eq_true_eq] at htriggers
  rcases htriggers with hname | hname
  · simp only [lower, hname]
  · simp only [lower, hname]

/-- A checked modifier takes its action as its only argument. -/
theorem triggered_eq {a : Action} (hargs : u.modifier.args = [value])
    (ha : Action.ofJson value = .ok a) :
    u.triggered s = (s.action u.node a >>= fun body =>
      pure (.plain u.modifier.name [Swift.labeled "perform" (.action body)])) := by
  have hcount : u.checkCount 1 1 = .ok () :=
    checkCount_eq_ok (by simp [hargs]) (by simp [hargs])
  rw [triggered, arg?_eq_some 0 hargs rfl, Option.getD_some, ha, hcount]
  rfl

/-- **A checked modifier is lowered, and its uses are the action that it triggers.** -/
theorem isLowered (hready : s.Ready) (hcheck : u.modifier.check = .ok ())
    (hscope : u.modifier.name = "animation" →
      ∀ path, u.modifier.args[1]?.bind Json.string? = some path →
        ∃ bound, s.scope.lookup path = .ok bound)
    (hfine : ∀ a, u.modifier.action? = some a → s.FineAction φ a) : u.IsLowered s φ := by
  cases htriggers : u.modifier.triggers with
  | false =>
      have hnone : u.modifier.action? = none := if_neg (by simp [htriggers])
      obtain ⟨m, hm⟩ := lower_eq_pure hready hcheck htriggers hscope
      rw [IsLowered, hm, hnone]
      exact .ret m
  | true =>
      obtain ⟨value, a, hargs, ha, -, haction⟩ :=
        Modifier.exists_action_of_check hcheck htriggers
      rw [IsLowered, lower_eq_triggered htriggers, triggered_eq hargs ha, haction]
      exact (Setting.lowers_action (hfine a haction)).bind_ret

end ModifierUse

/-- The modifiers of an element are lowered one after the other. -/
theorem Setting.lowers_userModifiers {s : Setting} {φ : String → HandlerParams} {e : Element}
    (hready : s.Ready) (hcheck : ∀ m ∈ e.modifiers, m.check = .ok ())
    (hscope : ∀ path ∈ e.animationPaths, ∃ bound, s.scope.lookup path = .ok bound)
    (hfine : ∀ use ∈ e.modifierUses, s.Fine φ use) :
    Lowers s φ (s.userModifiers e) e.modifierUses := by
  have hlowers : Lowers s φ (e.modifiers.mapM fun m => ModifierUse.lower ⟨e.id, m⟩ s)
      (e.modifiers.flatMap fun m => m.action?.toList.map (.action e.id)) := by
      refine .mapM fun m hm => ?_
      refine ModifierUse.isLowered hready (hcheck m hm) ?_ ?_
      · intro hname path hpath
        refine hscope path (List.mem_filterMap.mpr ⟨m, ?_, hpath⟩)
        exact List.mem_filter.mpr ⟨hm, by simpa using hname⟩
      · intro a ha
        refine hfine (.action e.id a) (List.mem_map.mpr ⟨a, ?_, rfl⟩)
        exact List.mem_filterMap.mpr ⟨m, hm, ha⟩
  have huses : e.modifierUses =
      e.modifiers.flatMap fun m => m.action?.toList.map (.action e.id) := by
    rw [Element.modifierUses, List.filterMap_eq_flatMap_toList, List.map_flatMap]
  rw [huses]
  exact hlowers

end Screenwright
