/-
The check of modifiers and their lowering agree.

A modifier is told twice what its arguments are: once by the table of forms that the check goes
through, and once by the readers that lowering runs one after the other.  That the check suffices
for lowering is known; here the other half is added.  What a reader has read has the shape that
the table asks for at its place, and the number of arguments, which lowering looks at first,
singles out the form.  A path is the one argument where this is not in the reader itself: lowering
looks it up, and a path that is found is made of names that the scope declares.

Lowering knows more than the table, and so it may still refuse a modifier that was checked.
`Escapes` lists the ways, and all of them concern what the arguments refer to.
-/
import Screenwright.Proofs.Lowering.Keeps
import Screenwright.Proofs.Lowering.Modifiers

namespace Screenwright

open Steps

/-! ### Paths that are found -/

/-- All names that a path can be made of are identifiers. -/
structure Scope.Identifiers (scope : Scope) : Prop where
  parameters : ∀ name ∈ scope.parameters.names, Names.isIdentifier name = true
  state : ∀ name ∈ scope.state.names, Names.isIdentifier name = true
  inferred : ∀ name ∈ scope.inferred.names, Names.isIdentifier name = true
  properties : ∀ model ∈ scope.models, ∀ property ∈ model.properties,
    Names.isIdentifier property.name = true

namespace Scope

variable {scope : Scope}

theorem isIdentifier_of_partType (h : scope.Identifiers) {type part : ValueType} {name : String}
    (hpart : partType scope.models type name = .ok part) : Names.isIdentifier name = true := by
  obtain ⟨model, hmodel, property, hproperty, -, rfl, -⟩ := exists_of_partType hpart
  exact h.properties model hmodel property hproperty

theorem isIdentifier_of_follow (h : scope.Identifiers) {names : List String} :
    ∀ {type part : ValueType}, follow scope.models type names = .ok part →
      ∀ name ∈ names, Names.isIdentifier name = true := by
  induction names with
  | nil => exact fun _ _ hmem => nomatch hmem
  | cons name rest ih =>
      intro type part hfollow
      simp only [follow] at hfollow
      split at hfollow
      · cases hfollow
      next hpart =>
        rw [List.forall_mem_cons]
        exact ⟨isIdentifier_of_partType h hpart, ih hfollow⟩

/-- The root of a path and its further names. -/
theorem segmentsOf_eq (path : String) : DataBinding.segmentsOf path =
    DataBinding.rootOf path :: (DataBinding.segmentsOf path).tail := by
  cases hsegments : DataBinding.segmentsOf path with
  | nil =>
      rw [DataBinding.segmentsOf, Text.segments, List.map_eq_nil_iff] at hsegments
      exact absurd hsegments (Text.segmentsOf_ne_nil '.' path.toList)
  | cons root rest => rw [DataBinding.rootOf, hsegments]; rfl

theorem isPath_of_root {path : String}
    (hroot : Names.isIdentifier (DataBinding.rootOf path) = true)
    (hrest : ∀ name ∈ (DataBinding.segmentsOf path).tail, Names.isIdentifier name = true) :
    ArgShape.isPath path = true := by
  rw [ArgShape.isPath, segmentsOf_eq, List.all_cons, hroot, Bool.true_and, List.all_eq_true]
  exact hrest

/-- A path that is found is made of identifiers. -/
theorem isPath_of_lookup (h : scope.Identifiers) {path : String} {bound : Bound}
    (hlookup : scope.lookup path = .ok bound) : ArgShape.isPath path = true := by
  simp only [lookup] at hlookup
  split at hlookup
  next v hstate =>
    obtain ⟨type, htype, -⟩ := map_eq_ok.mp hlookup
    exact isPath_of_root (h.state _ (Entries.mem_names_of_lookup hstate))
      (isIdentifier_of_follow h htype)
  next =>
    split at hlookup
    next type hinferred =>
      split at hinferred
      next hwhole =>
        have hrest : (DataBinding.segmentsOf path).tail = [] := by
          rw [← List.length_eq_zero_iff, List.length_tail]
          omega
        refine isPath_of_root (h.inferred _ (Entries.mem_names_of_lookup hinferred)) ?_
        rw [hrest]
        exact List.forall_mem_nil _
      · cases hinferred
    next =>
      split at hlookup
      next v hparameter =>
        obtain ⟨type, htype, -⟩ := map_eq_ok.mp hlookup
        exact isPath_of_root (h.parameters _ (Entries.mem_names_of_lookup hparameter))
          (isIdentifier_of_follow h htype)
      · cases hlookup

end Scope

/-! ### Tokens that are found -/

namespace Setting

/-- The tokens of the setting are made from some inputs. -/
def Generated (s : Setting) : Prop :=
  ∃ name version inputs, s.tokens = DesignTokens.generate name version inputs

variable {s : Setting} {node : String} {ref : TokenRef}

theorem Generated.ready (h : s.Generated) : s.Ready := by
  obtain ⟨name, version, inputs, heq⟩ := h
  intro kind slot haccepts
  rw [heq]
  exact DesignTokens.exists_resolve name version inputs haccepts

variable (h : s.Generated)

include h

theorem gives_token : Gives (s.token node ref) fun _ => ref.kind.accepts ref.slot = true := by
  obtain ⟨name, version, inputs, heq⟩ := h
  intro token htoken
  unfold Setting.token at htoken
  split at htoken
  next hresolve =>
    rw [heq] at hresolve
    exact DesignTokens.accepts_of_resolve hresolve
  · cases htoken

theorem gives_color : Gives (s.color node ref) fun _ => ref.kind.accepts ref.slot = true :=
  (gives_token h).bind fun _ haccepts _ _ => haccepts

theorem gives_dimension :
    Gives (s.dimension node ref) fun _ => ref.kind.accepts ref.slot = true :=
  (gives_token h).bind fun _ haccepts _ _ => haccepts

theorem gives_factor : Gives (s.factor node ref) fun _ => ref.kind.accepts ref.slot = true :=
  (gives_token h).bind fun _ haccepts _ _ => haccepts

theorem gives_font : Gives (s.font node ref) fun _ => ref.kind.accepts ref.slot = true :=
  (gives_token h).bind fun _ haccepts _ _ => haccepts

theorem gives_shadow : Gives (s.shadow node ref) fun _ => ref.kind.accepts ref.slot = true :=
  (gives_token h).bind fun _ haccepts _ _ => haccepts

theorem gives_motion : Gives (s.motion node ref) fun _ => ref.kind.accepts ref.slot = true :=
  (gives_token h).bind fun _ haccepts _ _ => haccepts

omit h in
/-- An action that is lowered passes its check. -/
theorem keeps_action (s : Setting) (node : String) (a : Action) :
    Keeps (fun _ => True) (s.action node a) fun _ => a.check = .ok () := by
  cases a with
  | custom name args =>
      change Keeps _ (s.customAction node name args) _
      unfold customAction
      by_cases husable : Names.isUsable name = true
      · simp only [husable]
        refine Keeps.read fun ledger => ?_
        split
        · exact Keeps.error_bind
        · split
          · exact Keeps.error
          next params hparams =>
            refine fun _ _ _ _ _ => ⟨?_, trivial⟩
            simp [Action.check, husable, hparams, Except.map]
      · rw [if_neg husable]
        exact Keeps.error_bind
  | _ => exact fun _ _ _ _ _ => ⟨rfl, trivial⟩

end Setting

namespace ModifierUse

variable {u : ModifierUse} {s : Setting} {index : Nat}

/-! ### What a reader has read -/

/-- The argument at the index has the shape. -/
def Has (u : ModifierUse) (index : Nat) (shape : ArgShape) : Prop :=
  ∃ value, u.arg? index = some value ∧ shape.check value = .ok ()

theorem gives_checkCount {low high : Nat} : Gives (u.checkCount low high) fun _ =>
    low ≤ u.modifier.args.length ∧ u.modifier.args.length ≤ high := by
  intro _ h
  simp only [checkCount] at h
  split at h
  next hcount => simpa using hcount
  · cases h

theorem exists_arg (h : index < u.modifier.args.length) : ∃ value, u.arg? index = some value :=
  ⟨_, List.getElem?_eq_getElem h⟩

theorem gives_string : Gives (u.string index) fun text => u.arg? index = some (.string text) := by
  intro text h
  unfold string at h
  split at h
  next found hfound =>
    cases h
    obtain ⟨value, hvalue, htext⟩ := Option.bind_eq_some_iff.mp hfound
    cases value with
    | string t =>
        cases htext
        exact hvalue
    | _ => cases htext
  · cases h

theorem gives_number : Gives (u.number index) fun x =>
    ∃ value, u.arg? index = some value ∧ ArgShape.finite value = .ok x := by
  intro x h
  unfold number at h
  split at h
  next y hy =>
    obtain ⟨value, hvalue, hfloat⟩ := Option.bind_eq_some_iff.mp hy
    split at h
    next hfinite =>
      cases h
      exact ⟨value, hvalue, by rw [ArgShape.finite, hfloat]; exact if_pos hfinite⟩
    · cases h
  · cases h

theorem gives_finite : Gives (u.number index) fun _ => u.Has index .number := by
  intro x h
  obtain ⟨value, harg, hfinite⟩ := gives_number x h
  exact ⟨value, harg, by rw [ArgShape.check, hfinite]; rfl⟩

theorem gives_slot {kind : TokenKind} : Gives (u.token index kind) fun ref =>
    ref.kind = kind ∧ u.arg? index = some (.string ref.slot) :=
  Gives.map fun text htext => ⟨rfl, gives_string text htext⟩

theorem has_token {ref : TokenRef} {kind : TokenKind}
    (hslot : ref.kind = kind ∧ u.arg? index = some (.string ref.slot))
    (haccepts : ref.kind.accepts ref.slot = true) : u.Has index (.token kind) := by
  obtain ⟨rfl, harg⟩ := hslot
  exact ⟨_, harg, if_pos haccepts⟩

theorem gives_color (h : s.Generated) :
    Gives (u.color s index) fun _ => u.Has index (.token .color) :=
  gives_slot.bind fun _ hslot _ hcolor => has_token hslot (Setting.gives_color h _ hcolor)

theorem gives_length (h : s.Generated) {kind : TokenKind} :
    Gives (u.length s index kind) fun _ => u.Has index (.length kind) := by
  have hnumber : ∀ {value : Json} {x : Float}, u.arg? index = some value →
      u.number index = .ok x → (ArgShape.finite value).map (fun _ => ()) = .ok () := by
    intro value x harg hx
    obtain ⟨value', harg', hfinite⟩ := gives_number x hx
    rw [harg] at harg'
    cases harg'
    rw [hfinite]
    rfl
  intro x hx
  unfold length at hx
  split at hx
  next slot harg =>
    exact ⟨_, harg, if_pos (Setting.gives_dimension h x hx)⟩
  next n harg => exact ⟨_, harg, hnumber harg hx⟩
  next y harg => exact ⟨_, harg, hnumber harg hx⟩
  · cases hx

theorem gives_boolOrTrue :
    Gives (u.boolOrTrue index) fun _ => u.arg? index = none ∨ u.Has index .bool := by
  intro b h
  unfold boolOrTrue at h
  split at h
  next harg => exact Or.inl harg
  next value harg =>
    split at h
    next hbool => exact Or.inr ⟨value, harg, by rw [ArgShape.check, hbool]; rfl⟩
    · cases h

theorem gives_edgeArgs : Gives (u.edgeArgs index) fun _ => u.Has index .edge := by
  refine gives_string.bind fun edge harg => ?_
  by_cases hedge : Modifier.edges.contains edge = true
  · exact fun _ _ => ⟨_, harg, if_pos hedge⟩
  · rw [if_neg hedge]
    exact Gives.error_bind

end ModifierUse

/-! ### The form of the arguments -/

namespace Modifier

/-- The forms of a modifier are told apart by the number of arguments. -/
theorem nodup_lengths : ∀ entry ∈ signatures, (entry.2.map List.length).Nodup := by
  decide

theorem Fit.length {form : List ArgShape} {args : List Json} (h : Fit form args) :
    form.length = args.length :=
  List.Forall₂.length_eq h

theorem checkArgs_of_fit {form : List ArgShape} {args : List Json} (h : Fit form args) :
    ∀ position, checkArgs position form args = .ok () := by
  induction h with
  | nil => exact fun _ => rfl
  | cons hvalue _ ih =>
      intro position
      simp only [checkArgs, hvalue]
      exact ih (position + 1)

/-- A modifier of the table whose arguments fit passes the check. -/
theorem check_of_takes {m : Modifier} {forms : List (List ArgShape)}
    (hforms : signatures.lookup m.name = some forms) (h : Takes forms m.args) :
    m.check = .ok () := by
  obtain ⟨form, hmem, hfit⟩ := h
  have hnodup := nodup_lengths _ (Entries.mem_of_lookup hforms)
  have hfind := find?_key_eq_some List.length hnodup hmem
  rw [hfit.length] at hfind
  rw [check, hforms]
  simp only [hfind]
  exact checkArgs_of_fit hfit 1

end Modifier

namespace ModifierUse

open Modifier (Fit Takes)

variable {u : ModifierUse} {s : Setting} {a b c : ArgShape}

theorem fit_nil (hcount : u.modifier.args.length ≤ 0) : Fit [] u.modifier.args := by
  rw [List.length_eq_zero_iff.mp (Nat.le_zero.mp hcount)]
  exact List.Forall₂.nil

theorem fit_one (hcount : u.modifier.args.length ≤ 1) (ha : u.Has 0 a) :
    Fit [a] u.modifier.args := by
  obtain ⟨x, hx, hcheck⟩ := ha
  unfold arg? at hx
  match u.modifier.args, hcount, hx with
  | [_], _, rfl => exact .cons hcheck .nil

theorem fit_two (hcount : u.modifier.args.length ≤ 2) (ha : u.Has 0 a) (hb : u.Has 1 b) :
    Fit [a, b] u.modifier.args := by
  obtain ⟨x, hx, hcheckx⟩ := ha
  obtain ⟨y, hy, hchecky⟩ := hb
  unfold arg? at hx hy
  match u.modifier.args, hcount, hx, hy with
  | [_, _], _, rfl, rfl => exact .cons hcheckx (.cons hchecky .nil)

theorem fit_three (hcount : u.modifier.args.length ≤ 3) (ha : u.Has 0 a) (hb : u.Has 1 b)
    (hc : u.Has 2 c) : Fit [a, b, c] u.modifier.args := by
  obtain ⟨x, hx, hcheckx⟩ := ha
  obtain ⟨y, hy, hchecky⟩ := hb
  obtain ⟨z, hz, hcheckz⟩ := hc
  unfold arg? at hx hy hz
  match u.modifier.args, hcount, hx, hy, hz with
  | [_, _, _], _, rfl, rfl, rfl => exact .cons hcheckx (.cons hchecky (.cons hcheckz .nil))

/-! ### What each modifier has read -/

theorem gives_opacity : Gives u.opacity fun _ => Takes [[.fraction]] u.modifier.args := by
  refine gives_checkCount.bind fun _ hcount => gives_number.bind fun x hx => ?_
  obtain ⟨value, harg, hfinite⟩ := hx
  by_cases hrange : (0.0 ≤ x && x ≤ 1.0) = true
  · refine fun _ _ => ⟨_, .head _, fit_one hcount.2 ⟨value, harg, ?_⟩⟩
    rw [ArgShape.check, hfinite, ok_bind, if_pos hrange]
    rfl
  · rw [if_neg hrange]
    exact Gives.error_bind

theorem gives_frame : Gives u.frame fun _ => Takes [[.frame]] u.modifier.args := by
  refine gives_checkCount.bind fun _ hcount => ?_
  obtain ⟨value, harg⟩ := exists_arg hcount.1
  rw [harg, Option.getD_some]
  split
  · exact Gives.error
  next frame hframe =>
    refine fun _ _ => ⟨_, .head _, fit_one hcount.2 ⟨value, harg, ?_⟩⟩
    simp only [ArgShape.check, hframe]

theorem gives_fillWidth : Gives u.fillWidth fun _ => Takes [[]] u.modifier.args :=
  gives_checkCount.bind fun _ hcount _ _ => ⟨_, .head _, fit_nil hcount.2⟩

theorem gives_simple : Gives u.simple fun _ => Takes [[]] u.modifier.args :=
  gives_checkCount.bind fun _ hcount _ _ => ⟨_, .head _, fit_nil hcount.2⟩

theorem gives_lineLimit : Gives u.lineLimit fun _ => Takes [[.count]] u.modifier.args := by
  refine gives_checkCount.bind fun _ hcount => ?_
  split
  next n hn =>
    obtain ⟨value, harg, hint⟩ := Option.bind_eq_some_iff.mp hn
    split
    next hpos =>
      refine fun _ _ => ⟨_, .head _, fit_one hcount.2 ⟨value, harg, ?_⟩⟩
      simp only [ArgShape.check, hint, if_pos hpos]
    · exact Gives.error
  · exact Gives.error

theorem gives_scale : Gives u.scale fun _ => Takes [[.number]] u.modifier.args :=
  gives_checkCount.bind fun _ hcount => gives_finite.bind fun _ hx _ _ =>
    ⟨_, .head _, fit_one hcount.2 hx⟩

theorem gives_rotation : Gives u.rotation fun _ => Takes [[.number]] u.modifier.args :=
  gives_checkCount.bind fun _ hcount => gives_finite.bind fun _ hx _ _ =>
    ⟨_, .head _, fit_one hcount.2 hx⟩

theorem gives_disabled : Gives u.disabled fun _ => Takes [[], [.bool]] u.modifier.args := by
  refine gives_checkCount.bind fun _ hcount => gives_boolOrTrue.bind fun _ hread _ _ => ?_
  rcases hread with hnone | hbool
  · exact ⟨_, .head _, fit_nil (List.getElem?_eq_none_iff.mp hnone)⟩
  · exact ⟨_, .tail _ (.head _), fit_one hcount.2 hbool⟩

theorem gives_texted : Gives u.texted fun _ => Takes [[.text]] u.modifier.args :=
  gives_checkCount.bind fun _ hcount => gives_string.bind fun _ harg _ _ =>
    ⟨_, .head _, fit_one hcount.2 ⟨_, harg, rfl⟩⟩

section Generated

variable (h : s.Generated)

include h

theorem gives_padding : Gives (u.padding s) fun _ =>
    Takes [[], [.length .spacing], [.edge, .length .spacing]] u.modifier.args := by
  refine gives_checkCount.bind fun _ hcount => ?_
  split
  next hnone => exact fun _ _ => ⟨_, .head _, fit_nil (Nat.le_of_eq hnone)⟩
  next hone =>
    exact (gives_length h).bind fun _ hamount _ _ =>
      ⟨_, .tail _ (.head _), fit_one (Nat.le_of_eq hone) hamount⟩
  next =>
    exact gives_edgeArgs.bind fun _ hedge => (gives_length h).bind fun _ hamount _ _ =>
      ⟨_, .tail _ (.tail _ (.head _)), fit_two hcount.2 hedge hamount⟩

theorem gives_background : Gives (u.background s) fun _ =>
    Takes [[.token .color], [.token .color, .length .radius]] u.modifier.args := by
  refine gives_checkCount.bind fun _ hcount => (gives_color h).bind fun _ hcolor => ?_
  split
  next hnone =>
    have hone : u.modifier.args.length ≤ 1 :=
      List.getElem?_eq_none_iff.mp (Option.isNone_iff_eq_none.mp hnone)
    exact fun _ _ => ⟨_, .head _, fit_one hone hcolor⟩
  next =>
    exact (gives_length h).bind fun _ hradius _ _ =>
      ⟨_, .tail _ (.head _), fit_two hcount.2 hcolor hradius⟩

theorem gives_tinted : Gives (u.tinted s) fun _ => Takes [[.token .color]] u.modifier.args :=
  gives_checkCount.bind fun _ hcount => (gives_color h).bind fun _ hcolor _ _ =>
    ⟨_, .head _, fit_one hcount.2 hcolor⟩

theorem gives_font : Gives (u.font s) fun _ => Takes [[.token .font]] u.modifier.args :=
  gives_checkCount.bind fun _ hcount => gives_slot.bind fun _ hslot =>
    (Setting.gives_font h).bind fun _ haccepts _ _ =>
      ⟨_, .head _, fit_one hcount.2 (has_token hslot haccepts)⟩

theorem gives_cornerRadius :
    Gives (u.cornerRadius s) fun _ => Takes [[.length .radius]] u.modifier.args :=
  gives_checkCount.bind fun _ hcount => (gives_length h).bind fun _ hradius _ _ =>
    ⟨_, .head _, fit_one hcount.2 hradius⟩

theorem gives_shadow : Gives (u.shadow s) fun _ => Takes [[.token .shadow]] u.modifier.args :=
  gives_checkCount.bind fun _ hcount => gives_slot.bind fun _ hslot _ hshadow =>
    ⟨_, .head _, fit_one hcount.2 (has_token hslot (Setting.gives_shadow h _ hshadow))⟩

theorem gives_border : Gives (u.border s) fun _ =>
    Takes [[.token .color, .length .borderWidth],
      [.token .color, .length .borderWidth, .length .radius]] u.modifier.args := by
  refine gives_checkCount.bind fun _ hcount => (gives_color h).bind fun _ hcolor =>
    (gives_length h).bind fun _ hwidth => ?_
  split
  next hnone =>
    have htwo : u.modifier.args.length ≤ 2 :=
      List.getElem?_eq_none_iff.mp (Option.isNone_iff_eq_none.mp hnone)
    exact fun _ _ => ⟨_, .head _, fit_two htwo hcolor hwidth⟩
  next =>
    exact (gives_length h).bind fun _ hradius _ _ =>
      ⟨_, .tail _ (.head _), fit_three hcount.2 hcolor hwidth hradius⟩

theorem gives_lineHeight :
    Gives (u.lineHeight s) fun _ => Takes [[.token .lineHeight]] u.modifier.args :=
  gives_checkCount.bind fun _ hcount => gives_slot.bind fun _ hslot =>
    (Setting.gives_factor h).bind fun _ haccepts _ _ =>
      ⟨_, .head _, fit_one hcount.2 (has_token hslot haccepts)⟩

theorem gives_tracking :
    Gives (u.tracking s) fun _ => Takes [[.length .letterSpacing]] u.modifier.args :=
  gives_checkCount.bind fun _ hcount => (gives_length h).bind fun _ hspace _ _ =>
    ⟨_, .head _, fit_one hcount.2 hspace⟩

theorem gives_animation (hnames : s.scope.Identifiers) :
    Gives (u.animation s) fun _ => Takes [[.token .motion, .path]] u.modifier.args := by
  refine gives_checkCount.bind fun _ hcount => gives_slot.bind fun _ hslot =>
    (Setting.gives_motion h).bind fun _ haccepts => gives_string.bind fun path hpath => ?_
  split
  · exact Gives.error
  next bound hbound =>
    refine fun _ _ => ⟨_, .head _, fit_two hcount.2 (has_token hslot haccepts) ⟨_, hpath, ?_⟩⟩
    exact if_pos (Scope.isPath_of_lookup hnames hbound)

end Generated

theorem keeps_triggered :
    Keeps (fun _ => True) (u.triggered s) fun _ => Takes [[.action]] u.modifier.args := by
  refine (Keeps.lift gives_checkCount).bind fun _ hcount => ?_
  obtain ⟨value, harg⟩ := exists_arg hcount.1
  rw [harg, Option.getD_some]
  split
  · exact Keeps.error
  next action haction =>
    refine (Setting.keeps_action s u.node action).bind fun body hcheck => .ret ?_
    refine ⟨_, .head _, fit_one hcount.2 ⟨value, harg, ?_⟩⟩
    simp only [ArgShape.check, haction, hcheck]

/-- A modifier that is lowered passes the check. -/
theorem keeps_lower (h : s.Generated) (hnames : s.scope.Identifiers) :
    Keeps (fun _ => True) (u.lower s) fun _ => u.modifier.check = .ok () := by
  have hlift : ∀ {x : Except BuildError Swift.ViewModifier} {forms : List (List ArgShape)},
      Gives x (fun _ => Takes forms u.modifier.args) →
      Modifier.signatures.lookup u.modifier.name = some forms →
      Keeps (fun _ => True) (liftM x : Build Swift.ViewModifier) fun _ =>
        u.modifier.check = .ok () :=
    fun hx hforms => .lift fun m hm => Modifier.check_of_takes hforms (hx m hm)
  unfold lower
  split
  next hname => exact hlift (gives_padding h) (by rw [hname]; rfl)
  next hname => exact hlift (gives_background h) (by rw [hname]; rfl)
  next hname => exact hlift (gives_tinted h) (by rw [hname]; rfl)
  next hname => exact hlift (gives_tinted h) (by rw [hname]; rfl)
  next hname => exact hlift (gives_font h) (by rw [hname]; rfl)
  next hname => exact hlift (gives_cornerRadius h) (by rw [hname]; rfl)
  next hname => exact hlift (gives_shadow h) (by rw [hname]; rfl)
  next hname => exact hlift gives_opacity (by rw [hname]; rfl)
  next hname => exact hlift gives_frame (by rw [hname]; rfl)
  next hname => exact hlift gives_fillWidth (by rw [hname]; rfl)
  next hname => exact hlift (gives_border h) (by rw [hname]; rfl)
  next hname => exact hlift (gives_animation h hnames) (by rw [hname]; rfl)
  next hname => exact hlift (gives_lineHeight h) (by rw [hname]; rfl)
  next hname => exact hlift (gives_tracking h) (by rw [hname]; rfl)
  next hname => exact hlift gives_simple (by rw [hname]; rfl)
  next hname => exact hlift gives_simple (by rw [hname]; rfl)
  next hname => exact hlift gives_lineLimit (by rw [hname]; rfl)
  next hname => exact hlift gives_scale (by rw [hname]; rfl)
  next hname => exact hlift gives_rotation (by rw [hname]; rfl)
  next hname => exact hlift gives_disabled (by rw [hname]; rfl)
  next hname => exact hlift gives_simple (by rw [hname]; rfl)
  next hname => exact hlift gives_texted (by rw [hname]; rfl)
  next hname => exact hlift gives_texted (by rw [hname]; rfl)
  next hname => exact keeps_triggered.weaken fun _ => Modifier.check_of_takes (by rw [hname]; rfl)
  next hname => exact keeps_triggered.weaken fun _ => Modifier.check_of_takes (by rw [hname]; rfl)
  · exact Keeps.error

end ModifierUse

/-! ### What a checked modifier may still fail on -/

namespace Setting

/-- Why a checked action is not lowered: the screen it leads to is unknown, or the handler it calls
does not go together with what the view has. -/
inductive Escapes (s : Setting) (node : String) (ledger : Ledger) : Action → BuildError → Prop
  | dangling {a : Action} {target : String} {kind : ReferenceKind}
      (htarget : a.reference? = some (target, kind)) (hscreen : s.screens.lookup target = none) :
      Escapes s node ledger a (.danglingEdge node target)
  | conflict {name : String} {args : Entries Json} {params : HandlerParams}
      (hparams : Action.handlerParams args = .ok params)
      (hclash : s.isTaken ledger name = true ∨
        ∃ first, ledger.handlers.lookup name = some first ∧ first ≠ params) :
      Escapes s node ledger (.custom name args) (.conflictingHandler node name)

variable {s : Setting}

theorem exists_of_check_custom {name : String} {args : Entries Json}
    (h : (Action.custom name args).check = .ok ()) :
    Names.isUsable name = true ∧ ∃ params, Action.handlerParams args = .ok params := by
  cases husable : Names.isUsable name with
  | false => simp [Action.check, husable] at h
  | true =>
      simp only [Action.check, husable] at h
      obtain ⟨params, hparams, -⟩ := map_eq_ok.mp h
      exact ⟨rfl, params, hparams⟩

/-- A checked action is lowered or escapes. -/
theorem run_action (node : String) {a : Action} (hcheck : a.check = .ok ()) (ledger : Ledger) :
    (∃ body after, (s.action node a).run ledger = .ok (body, after)) ∨
      ∃ e, (s.action node a).run ledger = .error e ∧ s.Escapes node ledger a e := by
  cases a with
  | navigate target =>
      cases hlookup : s.screens.lookup target with
      | some names => exact Or.inl ⟨_, _, by simp [action, Setting.target, hlookup]; rfl⟩
      | none =>
          exact Or.inr ⟨_, by simp [action, Setting.target, hlookup]; rfl, .dangling rfl hlookup⟩
  | presentSheet target =>
      cases hlookup : s.screens.lookup target with
      | some names => exact Or.inl ⟨_, _, by simp [action, Setting.target, hlookup]; rfl⟩
      | none =>
          exact Or.inr ⟨_, by simp [action, Setting.target, hlookup]; rfl, .dangling rfl hlookup⟩
  | dismiss => exact Or.inl ⟨_, _, rfl⟩
  | custom name args =>
      obtain ⟨husable, params, hparams⟩ := exists_of_check_custom hcheck
      cases htaken : s.isTaken ledger name with
      | true =>
          refine Or.inr ⟨.conflictingHandler node name, ?_, .conflict hparams (Or.inl htaken)⟩
          simp [action, customAction, husable, htaken]
          rfl
      | false =>
          cases hlookup : ledger.handlers.lookup name with
          | none =>
              refine Or.inl ⟨[.invoke name (args.filterMap handlerArg)],
                { ledger with handlers := ledger.handlers ++ [(name, params)] }, ?_⟩
              simp [action, customAction, husable, htaken, hparams, addHandler, hlookup]
              rfl
          | some first =>
              by_cases hsame : first = params
              · refine Or.inl ⟨[.invoke name (args.filterMap handlerArg)], ledger, ?_⟩
                simp [action, customAction, husable, htaken, hparams, addHandler, hlookup, hsame]
                rfl
              · refine Or.inr ⟨.conflictingHandler node name, ?_,
                  .conflict hparams (Or.inr ⟨first, hlookup, hsame⟩)⟩
                simp [action, customAction, husable, htaken, hparams, addHandler, hlookup, hsame]
                rfl

end Setting

namespace ModifierUse

variable {u : ModifierUse} {s : Setting}

/-- Why a checked modifier is not lowered: its action escapes, or the path it watches is not
found. -/
inductive Escapes (u : ModifierUse) (s : Setting) (ledger : Ledger) : BuildError → Prop
  | action {a : Action} {e : BuildError} (haction : u.modifier.action? = some a)
      (he : s.Escapes u.node ledger a e) : Escapes u s ledger e
  | path {path : String} {fault : PathFault} (hname : u.modifier.name = "animation")
      (hpath : u.modifier.args[1]? = some (.string path))
      (hfault : s.scope.lookup path = .error fault) :
      Escapes u s ledger (.invalidArgs u.node "animation" (.badPath fault))

/-- An animation of a path that is not found fails on the path. -/
theorem animation_eq_error (hready : s.Ready)
    (h : Modifier.Takes [[.token .motion, .path]] u.modifier.args) {path : String}
    (hpath : u.modifier.args[1]? = some (.string path)) {fault : PathFault}
    (hfault : s.scope.lookup path = .error fault) :
    u.animation s = .error (u.invalid (.badPath fault)) := by
  obtain ⟨value, watched, hargs, hvalue, -⟩ := (Modifier.takes_one h).two
  obtain ⟨slot, rfl, haccepts⟩ := ArgShape.exists_slot hvalue
  have hread := string_eq_ok (arg?_eq_some 0 hargs rfl) rfl
  obtain ⟨v, hv⟩ := Setting.motion_eq_ok u.node hready haccepts
  have hread' : u.string 1 = .ok path := string_eq_ok hpath rfl
  simp only [animation, token, checkCount, hargs, hread, Except.map, ok_bind, hv, hread', hfault]
  rfl

/-- A checked modifier is lowered or escapes. -/
theorem run_lower (hready : s.Ready) (hcheck : u.modifier.check = .ok ()) (ledger : Ledger) :
    (∃ m after, (u.lower s).run ledger = .ok (m, after)) ∨
      ∃ e, (u.lower s).run ledger = .error e ∧ u.Escapes s ledger e := by
  cases htriggers : u.modifier.triggers with
  | true =>
      obtain ⟨value, a, hargs, ha, hacheck, haction⟩ :=
        Modifier.exists_action_of_check hcheck htriggers
      rw [lower_eq_triggered htriggers, triggered_eq hargs ha]
      rcases Setting.run_action (s := s) u.node hacheck ledger with
        ⟨body, after, hrun⟩ | ⟨e, hrun, he⟩
      · exact Or.inl ⟨_, after, by rw [StateT.run_bind, hrun]; rfl⟩
      · exact Or.inr ⟨e, by rw [StateT.run_bind, hrun]; rfl, .action haction he⟩
  | false =>
      by_cases hscope : u.modifier.name = "animation" →
          ∀ path, u.modifier.args[1]?.bind Json.string? = some path →
            ∃ bound, s.scope.lookup path = .ok bound
      · obtain ⟨m, hm⟩ := lower_eq_pure hready hcheck htriggers hscope
        exact Or.inl ⟨m, ledger, by rw [hm]; rfl⟩
      · push Not at hscope
        obtain ⟨hname, path, hpath, hmissing⟩ := hscope
        have harg : u.modifier.args[1]? = some (.string path) := by
          obtain ⟨value, hvalue, hstring⟩ := Option.bind_eq_some_iff.mp hpath
          cases value with
          | string text =>
              cases hstring
              exact hvalue
          | _ => cases hstring
        cases hlookup : s.scope.lookup path with
        | ok bound => exact absurd hlookup (hmissing bound)
        | error fault =>
            obtain ⟨forms, hforms, htakes⟩ := Modifier.takes_of_check hcheck
            rw [hname] at hforms
            cases hforms
            have herror := animation_eq_error hready htakes harg hlookup
            rw [invalid, hname] at herror
            refine Or.inr ⟨_, ?_, .path hname harg hlookup⟩
            simp only [lower, hname, herror]
            rfl

/-- **The check and the lowering of a modifier agree.**  What is lowered passes the check, and what
passes the check is lowered, but for a screen that is unknown, a handler that clashes, and a path
that an animation watches and that is not found. -/
theorem lower_agrees_with_check (u : ModifierUse) (s : Setting) (hgenerated : s.Generated)
    (hnames : s.scope.Identifiers) (ledger : Ledger) :
    ((∃ m after, (u.lower s).run ledger = .ok (m, after)) → u.modifier.check = .ok ()) ∧
    (u.modifier.check = .ok () →
      (∃ m after, (u.lower s).run ledger = .ok (m, after)) ∨
        ∃ e, (u.lower s).run ledger = .error e ∧ u.Escapes s ledger e) := by
  refine ⟨?_, fun hcheck => run_lower hgenerated.ready hcheck ledger⟩
  rintro ⟨m, after, hrun⟩
  exact (keeps_lower hgenerated hnames ledger m after trivial hrun).1

/-- A screen with a switch as its state. -/
def hallway : Setting where
  screenId := "hallway"
  tokens := .generate "Hallway" "1.0" (.ofPrimary (.solid 0.6 0.1 240.0))
  screens := []
  scope := { models := [], parameters := [], state := [("isLit", ⟨"isLit", .bool, none⟩)],
             inferred := [], environment := [] }
  bound := []

/-- An animation of what is at the path. -/
def glow (path : String) : ModifierUse :=
  ⟨"lamp", ⟨"animation", [.string "spring.snappy", .string path]⟩⟩

/-- An animation of the switch is lowered, and so it passes the check.  With the name of the switch
misspelled it passes too, and then it escapes. -/
theorem glow_agrees : hallway.Generated ∧ hallway.scope.Identifiers ∧
    (∃ m, ((glow "isLit").lower hallway).run .empty = .ok (m, .empty)) ∧
    (glow "isLit").modifier.check = .ok () ∧ (glow "isLot").modifier.check = .ok () ∧
    ∃ e, ((glow "isLot").lower hallway).run .empty = .error e ∧
      (glow "isLot").Escapes hallway .empty e := by
  have hgenerated : hallway.Generated := ⟨_, _, _, rfl⟩
  have hnames : hallway.scope.Identifiers := by
    refine ⟨?_, ?_, ?_, ?_⟩ <;> decide
  obtain ⟨m, hm⟩ : ∃ m, ((glow "isLit").lower hallway).run .empty = .ok (m, .empty) := ⟨_, rfl⟩
  have hlit :=
    (lower_agrees_with_check (glow "isLit") hallway hgenerated hnames .empty).1 ⟨m, _, hm⟩
  have hlot : (glow "isLot").modifier.check = .ok () := rfl
  refine ⟨hgenerated, hnames, ⟨m, hm⟩, hlit, hlot, ?_⟩
  rcases (lower_agrees_with_check (glow "isLot") hallway hgenerated hnames .empty).2 hlot with
    ⟨_, _, hrun⟩ | herror
  · cases hrun
  · exact herror

end ModifierUse

end Screenwright
