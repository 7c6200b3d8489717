/-
What lowered trees do is what their uses have them do.

A component puts its view together from parts that do nothing, texts, colors, bindings and
the like, and from parts that do: bodies of actions, links, tabs, and the content that it is
given.  The first are `Idle`; once they are out of the way, the effects of a view are those
of its other parts in the order in which these were lowered, and so those of the recorded
uses.
-/
import Screenwright.Proofs.Lowering.Components
import Screenwright.Proofs.Lowering.Effects

namespace Screenwright

open Steps Swift

/-! ### Parts that do nothing -/

/-- No statement is inside the value. -/
abbrev Swift.Value.Idle (value : Value) : Prop :=
  value.statements = []

theorem idle_literal? {value : PropValue} {v : Value} (h : value.literal? = some v) : v.Idle := by
  cases value with
  | strings items =>
      cases h
      rw [Value.Idle, Value.statements]
      induction items with
      | nil => rfl
      | cons item items ih =>
          rw [List.map_cons, valueStatements, ih]
          rfl
  | string s => cases h; rfl
  | number x => cases h; rfl
  | integer n => cases h; rfl
  | bool b => cases h; rfl
  | _ => cases h

@[simp]
theorem flatMap_nothing {α β : Type} (xs : List α) : xs.flatMap (fun _ => ([] : List β)) = [] :=
  List.flatMap_eq_nil_iff.mpr fun _ _ => rfl

section Optional

variable {α : Type} {toValue : α → Value} {value : Option α}

@[simp]
theorem argEffects_optionalArg {label : String} :
    argEffects (optionalArg label toValue value) =
      value.toList.flatMap fun a => (toValue a).statements.map .run := by
  cases value with
  | none => rfl
  | some a => simp [optionalArg, labeled]

@[simp]
theorem modifierEffects_optionalModifier {name : String} :
    modifierEffects (optionalModifier name toValue value) =
      value.toList.flatMap fun a => (toValue a).statements.map .run := by
  cases value with
  | none => rfl
  | some a => simp [optionalModifier, ViewModifier.single, bare]

/-- A value that is idle wherever it is there adds nothing. -/
theorem effects_of_idle {found : Option Value} (h : ∀ v, found = some v → v.Idle) :
    (found.toList.flatMap fun v => v.statements.map Effect.run) = [] := by
  refine List.flatMap_eq_nil_iff.mpr fun v hv => ?_
  rw [h v (Option.mem_toList.mp hv)]
  rfl

end Optional

@[simp]
theorem effects_tabLabel (item : TabItem) : (tabLabel item).effects = [] := rfl

theorem effects_singleView (views : List View) :
    (singleView views).effects = viewEffects views := by
  unfold singleView
  split
  · rfl
  · simp
  · simp [View.ofContent]

namespace Setting

variable {s : Setting} {e : Element} {name : String}

theorem idle_text? {v : Value} (h : s.text? e name = some v) : v.Idle := by
  unfold text? at h
  split at h
  · cases h
    rfl
  · obtain ⟨text, -, rfl⟩ := Option.map_eq_some_iff.mp h
    rfl

@[simp]
theorem idle_text : (s.text e name).statements = [] := by
  unfold text
  cases h : s.text? e name with
  | none => rfl
  | some v => exact idle_text? h

theorem idle_read? {v : Value} (h : s.read? e name = some v) : v.Idle := by
  unfold read? at h
  split at h
  · cases h
    rfl
  · obtain ⟨value, -, hv⟩ := Option.bind_eq_some_iff.mp h
    exact idle_literal? hv

@[simp]
theorem idle_write : (s.write e name).statements = [] := by
  unfold write
  split
  next bound _ =>
    unfold Bound.write
    split <;> rfl
  · rw [Value.statements]
    cases h : (e.prop? name).bind PropValue.literal? with
    | none => rfl
    | some v =>
        obtain ⟨value, -, hv⟩ := Option.bind_eq_some_iff.mp h
        exact idle_literal? hv

/-! ### Tokens -/

variable {node : String}

theorem color_idle (ref : TokenRef) : Gives (s.color node ref) Value.Idle := by
  refine Gives.step fun token => ?_
  cases token with
  | color c => exact .ret rfl
  | _ => exact .error

theorem font_idle (ref : TokenRef) : Gives (s.font node ref) Value.Idle := by
  refine Gives.step fun token => ?_
  cases token with
  | font style => exact .ret rfl
  | _ => exact .error

theorem motion_idle (ref : TokenRef) : Gives (s.motion node ref) Value.Idle := by
  refine Gives.step fun token => ?_
  cases token with
  | motion animation => cases animation <;> exact .ret rfl
  | _ => exact .error

theorem shadow_idle (ref : TokenRef) : Gives (s.shadow node ref) fun m => m.effects = [] := by
  refine Gives.step fun token => ?_
  cases token with
  | shadow shadow => exact .ret rfl
  | _ => exact .error

@[simp]
theorem idle_shape (radius : Float) : (shape radius).statements = [] := by
  unfold shape
  split <;> rfl

theorem color?_idle : Gives (s.color? e name) fun found => ∀ v, found = some v → v.Idle :=
  tokenProp_gives fun ref => s.color_idle ref

theorem font?_idle : Gives (s.font? e name) fun found => ∀ v, found = some v → v.Idle :=
  tokenProp_gives fun ref => s.font_idle ref

theorem shadow?_idle :
    Gives (s.shadow? e name) fun found => ∀ m, found = some m → m.effects = [] :=
  tokenProp_gives fun ref => s.shadow_idle ref

end Setting

/-! ### Modifiers -/

namespace ModifierUse

variable {u : ModifierUse} {s : Setting}

/-- The modifier does nothing. -/
abbrev GivesIdle (x : Except BuildError ViewModifier) : Prop :=
  Gives x fun m => m.effects = []

theorem color_idle {index : Nat} : Gives (u.color s index) Value.Idle :=
  Gives.step fun ref => Setting.color_idle ref

theorem padding_idle : GivesIdle (u.padding s) := by
  refine Gives.step fun _ => ?_
  split
  · exact .ret rfl
  · exact Gives.step fun _ => .ret rfl
  · refine Gives.bind (p := fun edge => argEffects edge = []) ?_ ?_
    · refine Gives.step fun edge => ?_
      dsimp only
      split
      · split
        · exact .ret rfl
        · exact .ret rfl
      · exact .error_bind
    · exact fun edge hedge => Gives.step fun amount => .ret (by simp [ViewModifier.plain, bare, hedge])

theorem background_idle : GivesIdle (u.background s) := by
  refine Gives.step fun _ => color_idle.bind fun color hcolor => ?_
  have hcolor : color.statements = [] := hcolor
  split
  · exact .ret (by simp [ViewModifier.plain, bare, hcolor])
  · exact Gives.step fun _ => .ret (by simp [ViewModifier.plain, bare, labeled, hcolor])

theorem tinted_idle : GivesIdle (u.tinted s) := by
  refine Gives.step fun _ => color_idle.bind fun color hcolor => .ret ?_
  simpa [ViewModifier.single, bare] using hcolor

theorem font_idle : GivesIdle (u.font s) := by
  refine Gives.step fun _ => Gives.step fun ref => (Setting.font_idle ref).bind ?_
  intro font hfont
  exact .ret (by simpa [ViewModifier.single, bare] using hfont)

theorem cornerRadius_idle : GivesIdle (u.cornerRadius s) := by
  refine Gives.step fun _ => Gives.step fun radius => .ret ?_
  simp [ViewModifier.single, bare]

theorem opacity_idle : GivesIdle u.opacity := by
  refine Gives.step fun _ => Gives.step fun x => ?_
  dsimp only
  split
  · exact .ret rfl
  · exact .error_bind

theorem frame_idle : GivesIdle u.frame := by
  refine Gives.step fun _ => ?_
  split
  · exact .error
  next frame _ =>
    refine .ret ?_
    have hdimensions : argEffects (frame.dimensions.map dimensionArg) = [] := by
      refine argEffects_eq_nil fun arg harg => ?_
      obtain ⟨dimension, -, rfl⟩ := List.mem_map.mp harg
      obtain ⟨key, points⟩ := dimension
      cases points <;> rfl
    have halignment : argEffects (optionalArg "alignment" .member frame.alignment) = [] := by
      simp
    rw [ViewModifier.plain, ViewModifier.effects, argEffects_append, hdimensions]
    exact congrArg (· ++ []) halignment

theorem border_idle : GivesIdle (u.border s) := by
  refine Gives.step fun _ => color_idle.bind fun color hcolor => Gives.step fun width => ?_
  have hcolor : color.statements = [] := hcolor
  split
  · exact .ret (by simp [ViewModifier.plain, bare, labeled, hcolor])
  · exact Gives.step fun _ => .ret (by simp [ViewModifier.single, bare, labeled, hcolor])

theorem animation_idle : GivesIdle (u.animation s) := by
  refine Gives.step fun _ => Gives.step fun ref => (Setting.motion_idle ref).bind ?_
  intro curve hcurve
  have hcurve : curve.statements = [] := hcurve
  refine Gives.step fun _ => ?_
  split
  · exact .error
  · exact .ret (by simp [ViewModifier.plain, bare, labeled, Bound.read, hcurve])

theorem simple_idle : GivesIdle u.simple :=
  Gives.step fun _ => .ret rfl

theorem lineLimit_idle : GivesIdle u.lineLimit := by
  refine Gives.step fun _ => ?_
  split
  · split
    · exact .ret rfl
    · exact .error
  · exact .error

theorem texted_idle : GivesIdle u.texted :=
  Gives.step fun _ => Gives.step fun _ => .ret rfl

theorem triggered_emits : EmitsAs s (u.triggered s) ViewModifier.effects := by
  refine Emits.step fun _ => ?_
  split
  · exact .error
  next action _ =>
    refine (Setting.action_emits u.node action).bind fun body effects hbody => .ret ?_
    simpa [ViewModifier.plain, labeled] using hbody

/-- **A modifier does what its uses have it do.** -/
theorem lower_emits : EmitsAs s (u.lower s) ViewModifier.effects := by
  unfold lower
  split
  next => exact .lift padding_idle
  next => exact .lift background_idle
  next => exact .lift tinted_idle
  next => exact .lift tinted_idle
  next => exact .lift font_idle
  next => exact .lift cornerRadius_idle
  next => exact .lift (Gives.step fun _ => Gives.step fun ref => Setting.shadow_idle ref)
  next => exact .lift opacity_idle
  next => exact .lift frame_idle
  next => exact .lift (Gives.step fun _ => .ret rfl)
  next => exact .lift border_idle
  next => exact .lift animation_idle
  next => exact .lift (Gives.step fun _ => Gives.step fun _ => Gives.step fun _ => .ret rfl)
  next => exact .lift (Gives.step fun _ => Gives.step fun _ => .ret rfl)
  next => exact .lift simple_idle
  next => exact .lift simple_idle
  next => exact .lift lineLimit_idle
  next => exact .lift (Gives.step fun _ => Gives.step fun _ => .ret rfl)
  next => exact .lift (Gives.step fun _ => Gives.step fun _ => .ret rfl)
  next => exact .lift (Gives.step fun _ => Gives.step fun _ => .ret rfl)
  next => exact .lift simple_idle
  next => exact .lift texted_idle
  next => exact .lift texted_idle
  next => exact triggered_emits
  next => exact triggered_emits
  next => exact .error

end ModifierUse

/-! ### Components -/

namespace Setting

section Kinds

variable {s : Setting} {e : Element} {content : Build (List View)}

theorem userModifiers_emits : EmitsAs s (s.userModifiers e) modifierEffects := by
  have h : EmitsAs s (s.userModifiers e) fun ms => ms.flatMap ViewModifier.effects :=
    Emits.mapM fun _ _ => ModifierUse.lower_emits
  simpa only [← modifierEffects_eq_flatMap] using h

theorem stack_emits {kind : ContainerKind} (hkind : kind = .vStack ∨ kind = .hStack)
    (hcontent : EmitsAs s content viewEffects) :
    EmitsAs s (s.stack e kind content) View.effects := by
  refine Emits.step fun spacing => hcontent.bind fun views effects hviews => .ret ?_
  rcases hkind with rfl | rfl
  · simp [View.ofContent, hviews]
  · simp [View.ofContent, hviews]

theorem layers_emits (hcontent : EmitsAs s content viewEffects) :
    EmitsAs s (layers e content) View.effects := by
  refine hcontent.bind fun views effects hviews => .ret ?_
  simp [View.ofContent, hviews]

theorem scroll_emits (hcontent : EmitsAs s content viewEffects) :
    EmitsAs s (scroll e content) View.effects := by
  refine hcontent.bind fun views effects hviews => .ret ?_
  have hrow : viewEffects (if (e.text? "axis" = some "horizontal" && 1 < views.length) = true then
      [.ofContent .hStack [] views] else views) = viewEffects views := by
    split
    · simp [View.ofContent]
    · rfl
  have hargs : argEffects ((if e.text? "axis" = some "horizontal" then
        [bare (.member "horizontal")] else []) ++
      (if e.bool? "showsIndicators" = some false then
        [labeled "showsIndicators" (.bool false)] else [])) = [] := by
    split <;> split <;> rfl
  rw [View.ofContent, View.effects, hargs, hrow]
  simpa using hviews

theorem grid_emits (hcontent : EmitsAs s content viewEffects) :
    EmitsAs s (s.grid e content) View.effects := by
  refine Emits.step fun spacing => hcontent.bind fun views effects hviews => .ret ?_
  simp [View.ofContent, bare, labeled, hviews]

theorem list_emits (hcontent : EmitsAs s content viewEffects) :
    EmitsAs s (list e content) View.effects := by
  refine hcontent.bind fun views effects hviews => .ret ?_
  simp [View.ofContent, hviews]

theorem section_emits (hcontent : EmitsAs s content viewEffects) :
    EmitsAs s («section» e content) View.effects := by
  refine hcontent.bind fun views effects hviews => .ret ?_
  have htitled : ∀ label : String, closureEffects ((e.text? label).map fun title =>
      Closure.named label [View.text (.string title)]).toList = [] := by
    intro label
    cases e.text? label with
    | none => rfl
    | some title => rfl
  simp [htitled, hviews]

theorem spacer_emits : EmitsAs s (s.spacer e) View.effects :=
  Emits.step fun length => .ret (by simp)

theorem conditional_emits (hcontent : EmitsAs s content viewEffects) :
    EmitsAs s (s.conditional e content) View.effects := by
  refine hcontent.bind fun views effects hviews => .ret ?_
  have hcondition : ((s.read? e "condition").getD (.bool false)).statements = [] := by
    cases hread : s.read? e "condition" with
    | none => rfl
    | some v => exact idle_read? hread
  -- The two branches share the content out between them.
  have hbranches : viewEffects (views.take 1) ++ viewEffects (views.drop 1) = effects := by
    rw [viewEffects_eq_flatMap, viewEffects_eq_flatMap, ← List.flatMap_append,
      List.take_append_drop, ← viewEffects_eq_flatMap]
    exact hviews
  rw [View.effects, hcondition, List.map_nil, List.nil_append, List.append_nil]
  exact hbranches

/-! ### Navigation -/

theorem navigationStack_emits (hcontent : EmitsAs s content viewEffects) :
    EmitsAs s (s.navigationStack e content) View.effects := by
  refine hcontent.bind fun views effects hviews => ?_
  have htitle := effects_of_idle fun v (hv : s.text? e "title" = some v) => idle_text? hv
  dsimp only
  split
  · exact .ret (by simp [View.ofContent, hviews])
  · refine .ret ?_
    split
    · simpa [View.ofContent, htitle] using hviews
    · simpa [View.ofContent, htitle] using hviews

theorem addEdge_emits {node target : String} {kind : Swift.EdgeKind} {use : Use} {effect : Effect}
    (hdoes : s.Does use effect)
    (h : ∀ ledger : Ledger, s.recordEdge ledger node target kind = s.record ledger use ∧
      ledger.Serves use) :
    Emits s (s.addEdge node target kind) fun _ effects => effects = [effect] := by
  refine Emits.one use hdoes fun ledger u after hrun => ?_
  cases hrun
  exact ⟨(h ledger).1, (h _).2, rfl⟩

/-- A link pushes the route of its target. -/
theorem navigationLink_emits (hcontent : EmitsAs s content viewEffects) :
    EmitsAs s (s.navigationLink e content) View.effects := by
  refine Emits.after (target_gives_lookup e.id _) fun names hnames => ?_
  refine (addEdge_emits (.link hnames) fun _ => ⟨rfl, trivial⟩).bind fun _ link hlink => ?_
  refine hcontent.bind fun views effects hviews => ?_
  have htitle : ((s.text? e "title").getD (.string names.title)).statements = [] := by
    cases htext : s.text? e "title" with
    | none => rfl
    | some v => exact idle_text? htext
  dsimp only
  split
  next hempty =>
    refine .ret ?_
    have hnone : effects = [] := by
      rw [← hviews, List.isEmpty_iff.mp hempty]
      rfl
    simp [linkEffects, bare, labeled, htitle, hlink, hnone]
  · exact .ret (by simp [View.ofContent, linkEffects, labeled, hlink, hviews])

/-- A tab makes the view of its target. -/
theorem tab_emits (node : String) (item : TabItem) :
    EmitsAs s (s.tab node item) View.effects := by
  refine Emits.after (target_gives_lookup node _) fun names hnames => ?_
  refine (addEdge_emits (.tab hnames) fun _ => ⟨rfl, trivial⟩).bind fun _ tab htab => .ret ?_
  simp [Closure.first, htab]

theorem tabView_emits : EmitsAs s (s.tabView e) View.effects := by
  refine Emits.bind (Emits.mapM fun item _ => tab_emits e.id item) fun views effects hviews => .ret ?_
  simpa [View.ofContent, viewEffects_eq_flatMap] using hviews

theorem menu_emits (hcontent : EmitsAs s content viewEffects) :
    EmitsAs s (s.menu e content) View.effects := by
  refine hcontent.bind fun views effects hviews => .ret ?_
  simp [View.ofContent, bare, hviews]

/-! ### Primitives -/

theorem textView_emits : EmitsAs s (s.textView e) View.effects := by
  refine Emits.after font?_idle fun font hfont => Emits.after color?_idle fun color hcolor => ?_
  refine .ret ?_
  have hfont := effects_of_idle hfont
  have hcolor := effects_of_idle hcolor
  simp [View.text, bare, hfont, hcolor]

theorem image_emits : EmitsAs s (s.image e) View.effects := by
  refine Emits.after color?_idle fun color hcolor => .ret ?_
  have hcolor := effects_of_idle hcolor
  have hresizable : modifierEffects
      (if e.bool? "resizable" = some true then [.plain "resizable" []] else []) = [] := by
    split <;> rfl
  have hmode : modifierEffects ((e.text? "contentMode").map fun mode =>
      ViewModifier.plain "aspectRatio" [labeled "contentMode" (.member mode)]).toList = [] := by
    cases e.text? "contentMode" <;> rfl
  rw [effects_modify, modifierEffects_append, modifierEffects_append, hresizable, hmode,
    modifierEffects_optionalModifier]
  show _ ++ ([] ++ [] ++ _) = [] ++ []
  split
  · exact hcolor
  · exact hcolor

/-- No action does nothing. -/
theorem nothing_emits : EmitsBody s (pure []) :=
  .ret rfl

theorem button_emits (hcontent : EmitsAs s content viewEffects) :
    EmitsAs s (s.button e content) View.effects := by
  unfold button
  split
  on_goal 1 => refine (action_emits e.id _).bind ?_
  on_goal 2 => refine (nothing_emits (s := s)).bind ?_
  -- Behind the action both cases go on in the same way.
  all_goals
    intro body first hbody
    refine hcontent.bind fun views effects hviews => ?_
    refine Emits.after color?_idle fun tint htint => .ret ?_
    have htint := effects_of_idle htint
    have hbody : (bodyStatements body).map Effect.run = first := hbody
    rw [effects_modify, modifierEffects_append, modifierEffects_optionalModifier,
      modifierEffects_optionalModifier]
    split
    next hempty =>
      have hnone : effects = [] := by
        rw [← hviews, List.isEmpty_iff.mp hempty]
        rfl
      simp [bare, labeled, htint, hbody, hnone]
    · simp [View.ofContent, labeled, htint, hbody, hviews]

/-! ### Input and display -/

theorem effects_toggle : (s.toggle e).effects = [] := by
  simp [toggle, bare, labeled]

theorem effects_picker : (s.picker e).effects = [] := by
  have hoptions : ∀ options : List String, viewEffects (options.map pickerOption) = [] := by
    intro options
    rw [viewEffects_eq_flatMap, List.flatMap_map]
    exact List.flatMap_eq_nil_iff.mpr fun _ _ => rfl
  simp [picker, View.ofContent, bare, labeled, hoptions]

theorem effects_slider : (s.slider e).effects = [] := by
  simp [slider, labeled]

theorem effects_stepper : (s.stepper e).effects = [] := by
  unfold stepper
  dsimp only
  split
  · simp [bare, labeled]
  · simp [bare, labeled]

theorem effects_field {kind : LeafKind} (hkind : kind = .textField ∨ kind = .secureField) :
    (s.field e kind).effects = [] := by
  rcases hkind with rfl | rfl
  · simp [field, bare, labeled]
  · simp [field, bare, labeled]

theorem effects_progressView : (s.progressView e).effects = [] := by
  have hlabel : argEffects ((s.text? e "label").map bare).toList = [] := by
    refine argEffects_eq_nil fun arg harg => ?_
    obtain ⟨v, hv, rfl⟩ := Option.map_eq_some_iff.mp (Option.mem_toList.mp harg)
    exact idle_text? hv
  unfold progressView
  dsimp only
  split
  next value hvalue =>
    have hidle : value.statements = [] := idle_read? hvalue
    simp [labeled, hlabel, hidle]
  · simp [hlabel]

theorem card_emits (hcontent : EmitsAs s content viewEffects) :
    EmitsAs s (s.card e content) View.effects := by
  refine Emits.step fun padding => Emits.step fun spacing => Emits.step fun radius => ?_
  refine Emits.after color?_idle fun background hbackground => ?_
  refine Emits.after shadow?_idle fun shadow hshadow => ?_
  refine hcontent.bind fun views effects hviews => .ret ?_
  have hbackground : modifierEffects (background.map fun color =>
      ViewModifier.plain "background" [bare color,
        labeled "in" (shape (radius.getD 0.0))]).toList = [] := by
    cases background with
    | none => rfl
    | some color =>
        have hidle : color.statements = [] := hbackground color rfl
        simp [ViewModifier.plain, bare, labeled, hidle]
  have hshadow : modifierEffects shadow.toList = [] := by
    cases shadow with
    | none => rfl
    | some m => simp [hshadow m rfl]
  rw [effects_modify, modifierEffects_append, modifierEffects_append, hbackground, hshadow]
  simp [View.ofContent, ViewModifier.single, ViewModifier.plain, bare, labeled, hviews]

theorem effects_emptyState : (s.emptyState e).effects = [] := by
  have hmessage := effects_of_idle fun v (hv : s.text? e "message" = some v) => idle_text? hv
  simp [emptyState, bare, labeled, hmessage]

/-- **A component does what its uses and its content have it do.** -/
theorem component_emits (hcontent : EmitsAs s content viewEffects) :
    EmitsAs s (s.component e content) View.effects := by
  unfold component
  cases e.kind with
  | vStack => exact stack_emits (.inl rfl) hcontent
  | hStack => exact stack_emits (.inr rfl) hcontent
  | zStack => exact layers_emits hcontent
  | scrollView => exact scroll_emits hcontent
  | grid => exact grid_emits hcontent
  | list => exact list_emits hcontent
  | «section» => exact section_emits hcontent
  | form =>
      refine hcontent.bind fun views effects hviews => .ret ?_
      simp [View.ofContent, hviews]
  | spacer => exact spacer_emits
  | divider => exact .ret rfl
  | conditional => exact conditional_emits hcontent
  | navigationStack => exact navigationStack_emits hcontent
  | navigationLink => exact navigationLink_emits hcontent
  | tabView => exact tabView_emits
  | menu => exact menu_emits hcontent
  | text => exact textView_emits
  | label => exact .ret (by simp [Setting.label, bare, labeled])
  | image => exact image_emits
  | button => exact button_emits hcontent
  | toggle => exact .ret effects_toggle
  | picker => exact .ret effects_picker
  | slider => exact .ret effects_slider
  | stepper => exact .ret effects_stepper
  | textField => exact .ret (effects_field (.inl rfl))
  | secureField => exact .ret (effects_field (.inr rfl))
  | progressView => exact .ret effects_progressView
  | card => exact card_emits hcontent
  | emptyState => exact .ret effects_emptyState
  | sheet => exact .ret rfl
  | fullScreenCover => exact .ret rfl
  | alert => exact .ret rfl
  | confirmationDialog => exact .ret rfl
  | toolbar => exact .ret rfl

/-! ### Presentations -/

variable {nested : Build (List ViewModifier)}

theorem modifierEffects_detents : modifierEffects (detents e) = [] := by
  unfold detents
  dsimp only
  split
  · rfl
  · rfl
  · rfl

theorem cover_emits {name : String} (hcontent : EmitsAs s content viewEffects)
    (hnested : EmitsAs s nested modifierEffects) :
    EmitsAs s (s.cover e name content nested) modifierEffects := by
  refine hcontent.bind fun views effects hviews => ?_
  refine userModifiers_emits.bind fun user more huser => ?_
  refine hnested.bind fun hoisted last hhoisted => .ret ?_
  simp [labeled, Closure.first, effects_singleView, modifierEffects_detents, hviews, huser,
    hhoisted]

theorem actionButton_emits (node : String) (item : ActionItem) :
    EmitsAs s (s.actionButton node item) View.effects := by
  unfold actionButton
  split
  on_goal 1 => refine (action_emits node _).bind ?_
  on_goal 2 => refine nothing_emits.bind ?_
  all_goals
    intro body first hbody
    have hbody : (bodyStatements body).map Effect.run = first := hbody
    exact .ret (by simp [bare, labeled, hbody])

theorem dialog_emits {name : String} {extra : List Arg} (hextra : argEffects extra = []) :
    EmitsAs s (s.dialog e name extra) modifierEffects := by
  refine Emits.step fun _ => ?_
  refine Emits.bind (Emits.mapM fun item _ => actionButton_emits e.id item) ?_
  intro buttons effects hbuttons
  refine .ret ?_
  have hmessage : closureEffects ((s.text? e "message").map fun m =>
      Closure.named "message" [View.text m]).toList = [] := by
    cases htext : s.text? e "message" with
    | none => rfl
    | some v =>
        have hidle : v.statements = [] := idle_text? htext
        simp [Closure.named, View.text, bare, hidle]
  simp [bare, labeled, Closure.first, viewEffects_eq_flatMap, hextra, hmessage, hbuttons]

theorem toolbar_emits (hcontent : EmitsAs s content viewEffects)
    (hnested : EmitsAs s nested modifierEffects) :
    EmitsAs s (toolbar e content nested) modifierEffects := by
  refine Emits.step fun _ => hcontent.bind fun views effects hviews => ?_
  refine hnested.bind fun hoisted last hhoisted => .ret ?_
  simp [View.ofContent, labeled, Closure.first, hviews, hhoisted]

/-- **A presentation does what its uses and its content have it do.** -/
theorem presentation_emits (hcontent : EmitsAs s content viewEffects)
    (hnested : EmitsAs s nested modifierEffects) :
    EmitsAs s (s.presentation e content nested) modifierEffects := by
  unfold presentation
  cases e.kind with
  | sheet => exact cover_emits hcontent hnested
  | fullScreenCover => exact cover_emits hcontent hnested
  | alert => exact dialog_emits rfl
  | confirmationDialog => exact dialog_emits rfl
  | toolbar => exact toolbar_emits hcontent hnested
  | _ => exact .error

end Kinds

/-! ### Trees -/

mutual

/-- A lowered tree does what its uses have it do, and so do the modifiers by which it is
presented. -/
theorem tree_emits (s : Setting) : ∀ t : Tree Element,
    EmitsAs s (lower s t) View.effects ∧ EmitsAs s (present s t) modifierEffects
  | .node e ts => by
    obtain ⟨hcontent, hpresented⟩ := trees_emit s ts
    constructor
    · refine (component_emits hcontent).bind fun base first hbase => ?_
      refine userModifiers_emits.bind fun user second huser => ?_
      refine hpresented.bind fun hoisted third hhoisted => .ret ?_
      rw [effects_modify, effects_modify, hbase, huser, hhoisted]
      simp
    · exact presentation_emits hcontent hpresented

/-- `tree_emits` for the children of a node. -/
theorem trees_emit (s : Setting) : ∀ ts : List (Tree Element),
    EmitsAs s (lowerContent s ts) viewEffects ∧
      EmitsAs s (lowerPresented s ts) modifierEffects
  | [] => ⟨.ret rfl, .ret rfl⟩
  | t :: ts => by
    obtain ⟨hview, hpresentation⟩ := tree_emits s t
    obtain ⟨hcontent, hpresented⟩ := trees_emit s ts
    rw [lowerContent, lowerPresented]
    constructor
    · split
      · exact hcontent
      · refine hview.bind fun view first hview => hcontent.bind fun views rest hviews => .ret ?_
        rw [viewEffects, hview, hviews, List.append_nil]
    · split
      · refine hpresentation.bind fun own first hown => hpresented.bind fun others rest hothers => ?_
        refine .ret ?_
        rw [modifierEffects_append, hown, hothers, List.append_nil]
      · exact hpresented

end

/-- **The view of a screen does what the uses of its tree have it do, in the order in which
they were recorded.** -/
theorem root_emits (s : Setting) (root : Tree Element) :
    EmitsAs s (lowerRoot s root) View.effects := by
  obtain ⟨hview, hpresentation⟩ := tree_emits s root
  unfold lowerRoot
  split
  · refine hpresentation.bind fun hoisted effects hhoisted => .ret ?_
    simp [hhoisted]
  · exact hview

end Setting

/-! ### Screens -/

/-- How the view of a screen comes about, whatever the catalog: its bindings are resolved, its
body does what some uses have it do, and the view is finished from the ledger that recording
them leaves, which serves all of them. -/
structure Emitted (cx : BuildContext) (screen : Screen) (tree : NormalTree) (view : ScreenView)
    (s : Setting) (order : List Use) (body : View) : Prop where
  bindings : (Scope.ofScreen screen cx.models).bindAll cx.catalog [] tree.bindings =
    .ok (s.bound, s.scope)
  screens : s.screens = cx.screens
  serves : ∀ use ∈ order, (order.foldl s.record .empty).Serves use
  does : List.Forall₂ s.Does order body.effects
  finish : s.finish screen body (order.foldl s.record .empty) = .ok view

/-- **Every view comes about in this way.** -/
theorem exists_emitted {cx : BuildContext} {screen : Screen} {tree : NormalTree}
    {view : ScreenView} (h : buildScreen cx screen tree = .ok view) :
    ∃ s order body, Emitted cx screen tree view s order body := by
  obtain ⟨⟨bound, scope⟩, hbindings, h⟩ := bind_eq_ok.mp h
  obtain ⟨⟨body, ledger⟩, hrun, hfinish⟩ := bind_eq_ok.mp h
  obtain ⟨order, effects, rfl, hserves, hdoes, rfl⟩ :=
    Setting.root_emits _ tree.root .empty body _ hrun
  exact ⟨_, order, body, hbindings, rfl, hserves, hdoes, hfinish⟩

end Screenwright
