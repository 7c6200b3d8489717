/-
What lowering reads and writes can stand in code.

The texts that lowering takes from its surroundings rather than from an element are the
names of screens, the paths of bindings, and the flags and handlers that it writes down
itself.  `Yields` says of a lowering that what it gives meets a condition, and that a ledger
that was tame before is tame afterwards.  Tokens, actions and modifiers come first.
-/
import Mathlib.Tactic.Common
import Screenwright.Proofs.Lexical.Views
import Screenwright.Proofs.Lowering.Keeps
import Screenwright.Proofs.Lowering.Modifiers

namespace Screenwright

open Steps Swift

/-! ### Surroundings -/

/-- The names and paths of the setting can stand in code. -/
structure Setting.Tame (s : Setting) : Prop where
  screens : ∀ target names, s.screens.lookup target = some names → names.Tame
  bound : ∀ node property bound, s.bound? node property = some bound → Plain bound.path

/-- The names that have been written down can stand in code. -/
structure Ledger.Tame (ledger : Ledger) : Prop where
  /-- The flags of the sheets and the types of their views. -/
  sheets : ∀ entry ∈ ledger.sheets, Plain entry.1 ∧ Plain entry.2
  /-- The handlers with the names and the types of their parameters. -/
  handlers : ∀ entry ∈ ledger.handlers,
    Plain entry.1 ∧ ∀ param ∈ entry.2, Plain param.1 ∧ Plain param.2

theorem Ledger.tame_empty : Ledger.empty.Tame :=
  ⟨by simp [empty], by simp [empty]⟩

/-- What the lowering gives meets the condition, and it keeps the ledger tame. -/
abbrev Yields {α : Type} (m : Build α) (p : α → Prop) : Prop :=
  Keeps Ledger.Tame m p

namespace Setting

variable {s : Setting} {node : String}

/-! ### Tokens -/

theorem color_gives (ref : TokenRef) : Gives (s.color node ref) Value.Tame := by
  refine Gives.step fun token => ?_
  cases token with
  | color c => exact .ret (Value.tame_color _)
  | _ => exact .error

theorem font_gives (ref : TokenRef) : Gives (s.font node ref) Value.Tame := by
  refine Gives.step fun token => ?_
  cases token with
  | font style =>
      refine .ret (Value.tame_font _ ?_ ?_)
      · cases style.weight <;> exact plain_of_all rfl
      · cases style.family <;> exact plain_of_all rfl
  | _ => exact .error

theorem tame_shadowModifier (shadow : Shadow) : (shadowModifier shadow).Tame := by
  refine ViewModifier.tame_plain (plain_of_all rfl) ?_
  simp only [List.forall_mem_cons, List.not_mem_nil, false_implies, implies_true, and_true]
  exact ⟨tame_labeled (plain_of_all rfl) (Value.tame_color _),
    tame_labeled (plain_of_all rfl) (Value.tame_number _),
    tame_labeled (plain_of_all rfl) (Value.tame_number _),
    tame_labeled (plain_of_all rfl) (Value.tame_number _)⟩

theorem shadow_gives (ref : TokenRef) : Gives (s.shadow node ref) ViewModifier.Tame := by
  refine Gives.step fun token => ?_
  cases token with
  | shadow shadow => exact .ret (tame_shadowModifier shadow)
  | _ => exact .error

theorem tame_animationValue (animation : Animation) : (animationValue animation).Tame := by
  cases animation with
  | spring spring =>
      refine Value.tame_call (plain_of_all rfl) ?_
      simp only [List.forall_mem_cons, List.not_mem_nil, false_implies, implies_true, and_true]
      exact ⟨tame_labeled (plain_of_all rfl) (Value.tame_number _),
        tame_labeled (plain_of_all rfl) (Value.tame_number _)⟩
  | timing curve duration =>
      refine Value.tame_call (plain_of_all rfl) ?_
      simp only [List.forall_mem_cons, List.not_mem_nil, false_implies, implies_true, and_true]
      exact ⟨tame_bare (Value.tame_number _), tame_bare (Value.tame_number _),
        tame_bare (Value.tame_number _), tame_bare (Value.tame_number _),
        tame_labeled (plain_of_all rfl) (Value.tame_number _)⟩

theorem motion_gives (ref : TokenRef) : Gives (s.motion node ref) Value.Tame := by
  refine Gives.step fun token => ?_
  cases token with
  | motion animation => exact .ret (tame_animationValue animation)
  | _ => exact .error

theorem tame_shape (radius : Float) : (shape radius).Tame := by
  unfold shape
  split
  · exact Value.tame_call (plain_of_all rfl) (by simp)
  · exact Value.tame_call (plain_of_all rfl)
      (List.forall_mem_singleton.mpr (tame_labeled (plain_of_all rfl) (Value.tame_number _)))

/-! ### Actions -/

theorem target_gives (hs : s.Tame) (target : String) :
    Gives (s.target node target) ScreenNames.Tame := by
  intro names hnames
  unfold Setting.target at hnames
  split at hnames
  next found hfound =>
    cases hnames
    exact hs.screens target names hfound
  · cases hnames

theorem addEdge_yields (target : String) (kind : Swift.EdgeKind) :
    Yields (s.addEdge node target kind) fun _ => True :=
  Keeps.write fun _ h => ⟨h.sheets, h.handlers⟩

theorem plain_paramType? {value : Json} {type : String}
    (h : Action.paramType? value = some type) : Plain type := by
  cases value with
  | int n =>
      simp only [Action.paramType?, Option.some.injEq] at h
      rw [← h]
      split <;> exact plain_of_all rfl
  | string _ => cases h; exact plain_of_all rfl
  | bool _ => cases h; exact plain_of_all rfl
  | float _ => cases h; exact plain_of_all rfl
  | _ => cases h

theorem plain_handlerParam {name : String} {value : Json} {param : String × String}
    (h : Action.handlerParam name value = .ok param) :
    Plain name ∧ Plain param.1 ∧ Plain param.2 := by
  unfold Action.handlerParam at h
  split at h
  · cases h
  next husable =>
    have hname : Plain name := Names.plain_of_isUsable (by simpa using husable)
    split at h
    next type htype =>
      cases h
      exact ⟨hname, hname, plain_paramType? htype⟩
    · cases h

/-- The parameters of a handler are named by identifiers. -/
theorem plain_handlerParams {args : Entries Json} {params : HandlerParams}
    (h : Action.handlerParams args = .ok params) :
    (∀ arg ∈ args, Plain arg.1) ∧ ∀ param ∈ params, Plain param.1 ∧ Plain param.2 := by
  constructor
  · intro arg harg
    obtain ⟨param, -, hparam⟩ := exists_of_mapM_eq_ok h arg harg
    exact (plain_handlerParam hparam).1
  · exact forall_of_mapM_eq_ok h fun arg _ param hparam => (plain_handlerParam hparam).2

theorem tame_handlerArg {entry : String × Json} {arg : Arg} (hname : Plain entry.1)
    (h : handlerArg entry = some arg) : TameArg arg := by
  obtain ⟨name, value⟩ := entry
  cases value with
  | string text => cases h; exact tame_labeled hname (Value.tame_string text)
  | bool b => cases h; exact tame_labeled hname (Value.tame_bool b)
  | int n =>
      cases h
      refine tame_labeled hname ?_
      split
      · exact Value.tame_int n
      · exact Value.tame_number _
  | float x => cases h; exact tame_labeled hname (Value.tame_number x)
  | _ => cases h

theorem addHandler_yields {name : String} {params : HandlerParams} (hname : Plain name)
    (hparams : ∀ param ∈ params, Plain param.1 ∧ Plain param.2) :
    Yields (addHandler node name params) fun _ => True := by
  intro ledger u after hledger hrun
  refine ⟨trivial, ?_⟩
  rw [addHandler, StateT.run_bind, StateT.run_get, pure_eq_ok, ok_bind] at hrun
  cases hold : ledger.handlers.lookup name with
  | some first =>
      rw [hold] at hrun
      by_cases heq : first = params
      · simp only [heq, if_true] at hrun
        cases hrun
        exact hledger
      · simp only [heq, if_false] at hrun
        cases hrun
  | none =>
      rw [hold] at hrun
      cases hrun
      refine ⟨hledger.sheets, fun entry hentry => ?_⟩
      rcases List.mem_append.mp hentry with hentry | hentry
      · exact hledger.handlers entry hentry
      · rw [List.mem_singleton.mp hentry]
        exact ⟨hname, hparams⟩

theorem customAction_yields (name : String) (args : Entries Json) :
    Yields (s.customAction node name args) TameStatements := by
  unfold customAction
  dsimp only
  split
  next husable =>
    have hname := Names.plain_of_isUsable husable
    refine Keeps.read fun ledger => ?_
    split
    · exact .error_bind
    · split
      · exact .error
      next params hparams =>
        obtain ⟨hargs, hall⟩ := plain_handlerParams hparams
        refine (addHandler_yields hname hall).bind fun _ _ => .ret ?_
        refine List.forall_mem_singleton.mpr (Statement.tame_invoke hname fun arg harg => ?_)
        obtain ⟨entry, hentry, harg⟩ := List.mem_filterMap.mp harg
        exact tame_handlerArg (hargs entry hentry) harg
  · exact .error_bind

/-- **An action is lowered to statements that can stand in code.** -/
theorem action_yields (hs : s.Tame) (a : Action) :
    Yields (s.action node a) TameStatements := by
  cases a with
  | navigate target =>
      refine (Keeps.lift (target_gives hs target)).bind fun names hnames => ?_
      refine (addEdge_yields target .push).bind fun _ _ => ?_
      refine Keeps.bind (p := fun _ => True) ?_ fun _ _ => .ret ?_
      · exact Keeps.write fun _ h => ⟨h.sheets, h.handlers⟩
      · exact List.forall_mem_singleton.mpr (Statement.tame_navigate hnames.routeCase)
  | presentSheet target =>
      refine (Keeps.lift (target_gives hs target)).bind fun names hnames => ?_
      have hflag := names.plain_presentationFlag
      refine Keeps.bind (p := fun _ => True) ?_ fun _ _ => ?_
      · refine Keeps.write fun ledger h => ⟨fun entry hentry => ?_, h.handlers⟩
        rcases Entries.mem_putNew hentry with hentry | rfl
        · exact h.sheets entry hentry
        · exact ⟨hflag, hnames.viewType⟩
      refine (addEdge_yields target .sheet).bind fun _ _ => .ret ?_
      exact List.forall_mem_singleton.mpr (Statement.tame_present hflag)
  | dismiss =>
      refine Keeps.bind (p := fun _ => True) ?_ fun _ _ => .ret ?_
      · exact Keeps.write fun _ h => ⟨h.sheets, h.handlers⟩
      · exact List.forall_mem_singleton.mpr Statement.tame_dismiss
  | custom name args => exact customAction_yields name args

end Setting

/-! ### Frames -/

namespace Frame

theorem mem_of_readDimensions {fields : Entries Json} {keys : List String} :
    Gives (readDimensions fields keys) fun dimensions => ∀ d ∈ dimensions, d.1 ∈ keys := by
  induction keys with
  | nil => exact .ret (by simp)
  | cons key keys ih =>
      unfold readDimensions
      split
      · exact fun dimensions h d hd => List.mem_cons_of_mem _ (ih dimensions h d hd)
      · refine Gives.step fun dimension => ih.bind fun rest hrest => .ret ?_
        rw [List.forall_mem_cons]
        exact ⟨List.mem_cons_self, fun d hd => List.mem_cons_of_mem _ (hrest d hd)⟩

theorem plain_of_readAlignment {fields : Entries Json} :
    Gives (readAlignment fields) fun alignment => ∀ a, alignment = some a → Plain a := by
  unfold readAlignment
  split
  · exact .ret (by simp)
  · split
    next hmem =>
      refine .ret fun a ha => ?_
      cases ha
      exact plain_of_mem rfl (by simpa using hmem)
    · exact .error
  · exact .error

/-- The words of a frame come from fixed lists. -/
theorem plain_of_read {value : Json} : Gives (read value) fun frame =>
    (∀ d ∈ frame.dimensions, Plain d.1) ∧ ∀ a, frame.alignment = some a → Plain a := by
  have hkeys : ∀ isFlexible : Bool, ∀ key ∈ (if isFlexible then flexibleKeys else fixedKeys),
      Plain key := by
    intro isFlexible key hkey
    cases isFlexible with
    | true => exact plain_of_mem rfl hkey
    | false => exact plain_of_mem rfl hkey
  unfold read
  split
  · dsimp only
    split
    · exact .error_bind
    · split
      · exact .error_bind
      · refine mem_of_readDimensions.bind fun dimensions hmem => ?_
        split
        · exact .error_bind
        · refine plain_of_readAlignment.bind fun alignment halignment => .ret ⟨?_, halignment⟩
          exact fun d hd => hkeys _ d.1 (hmem d hd)
  · exact .error

end Frame

/-- Looking up a path gives a binding to that path. -/
theorem Scope.path_of_lookup {scope : Scope} {path : String} {bound : Bound}
    (h : scope.lookup path = .ok bound) : bound.path = path := by
  unfold lookup at h
  dsimp only at h
  split at h
  · obtain ⟨_, -, rfl⟩ := map_eq_ok.mp h
    rfl
  · split at h
    · cases h
      rfl
    · split at h
      · obtain ⟨_, -, rfl⟩ := map_eq_ok.mp h
        rfl
      · cases h

namespace ModifierUse

variable {u : ModifierUse} {s : Setting}

/-! ### Modifiers -/

theorem color_gives (index : Nat) : Gives (u.color s index) Value.Tame :=
  Gives.step fun ref => s.color_gives ref

theorem padding_gives : Gives (u.padding s) ViewModifier.Tame := by
  refine Gives.step fun _ => ?_
  split
  · exact .ret (ViewModifier.tame_plain (plain_of_all rfl) (by simp))
  · refine Gives.step fun amount => .ret ?_
    exact ViewModifier.tame_single (plain_of_all rfl) (Value.tame_number amount)
  · have hedge : Gives (u.edgeArgs 0) fun args => ∀ arg ∈ args, TameArg arg := by
      refine Gives.step fun edge => ?_
      dsimp only
      split
      next hmem =>
        have hplain : Plain edge := plain_of_mem rfl (by simpa using hmem)
        refine .ret ?_
        split
        · simp
        · exact List.forall_mem_singleton.mpr (tame_bare (Value.tame_member hplain))
      · exact .error_bind
    refine hedge.bind fun edge hedge => Gives.step fun amount => .ret ?_
    refine ViewModifier.tame_plain (plain_of_all rfl) ?_
    rw [List.forall_mem_append]
    exact ⟨hedge, List.forall_mem_singleton.mpr (tame_bare (Value.tame_number amount))⟩

theorem background_gives : Gives (u.background s) ViewModifier.Tame := by
  refine Gives.step fun _ => (color_gives 0).bind fun color hcolor => ?_
  split
  · exact .ret (ViewModifier.tame_single (plain_of_all rfl) hcolor)
  · refine Gives.step fun radius => .ret (ViewModifier.tame_plain (plain_of_all rfl) ?_)
    rw [List.forall_mem_cons, List.forall_mem_singleton]
    exact ⟨tame_bare hcolor, tame_labeled (plain_of_all rfl) (Setting.tame_shape radius)⟩

theorem tinted_gives (hname : Plain u.modifier.name) : Gives (u.tinted s) ViewModifier.Tame := by
  refine Gives.step fun _ => (color_gives 0).bind fun color hcolor => .ret ?_
  exact ViewModifier.tame_single hname hcolor

theorem font_gives : Gives (u.font s) ViewModifier.Tame := by
  refine Gives.step fun _ => Gives.step fun ref => (s.font_gives ref).bind fun font hfont => .ret ?_
  exact ViewModifier.tame_single (plain_of_all rfl) hfont

theorem cornerRadius_gives : Gives (u.cornerRadius s) ViewModifier.Tame := by
  refine Gives.step fun _ => Gives.step fun radius => .ret ?_
  exact ViewModifier.tame_single (plain_of_all rfl) (Setting.tame_shape radius)

theorem shadow_gives : Gives (u.shadow s) ViewModifier.Tame :=
  Gives.step fun _ => Gives.step fun ref => s.shadow_gives ref

theorem opacity_gives : Gives u.opacity ViewModifier.Tame := by
  refine Gives.step fun _ => Gives.step fun x => ?_
  dsimp only
  split
  · exact .ret (ViewModifier.tame_single (plain_of_all rfl) (Value.tame_number x))
  · exact .error_bind

theorem frame_gives : Gives u.frame ViewModifier.Tame := by
  refine Gives.step fun _ => ?_
  split
  · exact .error
  next frame hframe =>
    obtain ⟨hkeys, halignment⟩ := Frame.plain_of_read frame hframe
    refine .ret (ViewModifier.tame_plain (plain_of_all rfl) ?_)
    rw [List.forall_mem_append]
    constructor
    · intro arg harg
      obtain ⟨⟨key, points⟩, hdimension, rfl⟩ := List.mem_map.mp harg
      have hkey := hkeys _ hdimension
      cases points with
      | none => exact tame_labeled hkey (Value.tame_member (plain_of_all rfl))
      | some points => exact tame_labeled hkey (Value.tame_number points)
    · intro arg harg
      obtain ⟨alignment, hsome, rfl⟩ := Option.map_eq_some_iff.mp (Option.mem_toList.mp harg)
      exact tame_labeled (plain_of_all rfl) (Value.tame_member (halignment alignment hsome))

theorem fillWidth_gives : Gives u.fillWidth ViewModifier.Tame := by
  refine Gives.step fun _ => .ret (ViewModifier.tame_plain (plain_of_all rfl) ?_)
  rw [List.forall_mem_singleton]
  exact tame_labeled (plain_of_all rfl) (Value.tame_member (plain_of_all rfl))

theorem border_gives : Gives (u.border s) ViewModifier.Tame := by
  refine Gives.step fun _ => (color_gives 0).bind fun color hcolor => Gives.step fun width => ?_
  have hargs : ∀ label, Plain label →
      ∀ arg ∈ [bare color, labeled label (.number width)], TameArg arg := by
    intro label hlabel
    rw [List.forall_mem_cons, List.forall_mem_singleton]
    exact ⟨tame_bare hcolor, tame_labeled hlabel (Value.tame_number width)⟩
  split
  · exact .ret (ViewModifier.tame_plain (plain_of_all rfl) (hargs _ (plain_of_all rfl)))
  · refine Gives.step fun radius => .ret (ViewModifier.tame_single (plain_of_all rfl) ?_)
    exact Value.tame_method (Setting.tame_shape radius) (plain_of_all rfl)
      (hargs _ (plain_of_all rfl))

/-- The path that a checked animation watches is plain. -/
theorem string_gives_path (hcheck : u.modifier.check = .ok ())
    (hname : u.modifier.name = "animation") : Gives (u.string 1) Plain := by
  intro path hpath
  obtain ⟨forms, hforms, htakes⟩ := Modifier.takes_of_check hcheck
  have hform : Modifier.signatures.lookup u.modifier.name = some [[.token .motion, .path]] := by
    rw [hname]
    rfl
  rw [hform] at hforms
  cases hforms
  obtain ⟨slot, value, hargs, -, hvalue⟩ := (Modifier.takes_one htakes).two
  obtain ⟨text, htext, hsegments⟩ := ArgShape.exists_path hvalue
  rw [string_eq_ok (arg?_eq_some 1 hargs rfl) htext] at hpath
  cases hpath
  exact DataBinding.plain_of_segmentsOf fun name hname =>
    List.all_eq_true.mp hsegments name hname

theorem animation_gives (hcheck : u.modifier.check = .ok ())
    (hname : u.modifier.name = "animation") : Gives (u.animation s) ViewModifier.Tame := by
  refine Gives.step fun _ => Gives.step fun ref => (s.motion_gives ref).bind fun curve hcurve => ?_
  refine (string_gives_path hcheck hname).bind fun path hpath => ?_
  split
  · exact .error
  next bound hbound =>
    refine .ret (ViewModifier.tame_plain (plain_of_all rfl) ?_)
    rw [List.forall_mem_cons, List.forall_mem_singleton]
    refine ⟨tame_bare hcurve, tame_labeled (plain_of_all rfl) (Value.tame_ident ?_)⟩
    rwa [Scope.path_of_lookup hbound]

theorem lineHeight_gives : Gives (u.lineHeight s) ViewModifier.Tame := by
  refine Gives.step fun _ => Gives.step fun ref => Gives.step fun factor => .ret ?_
  exact ViewModifier.tame_single (plain_of_all rfl) (Value.tame_number _)

theorem tracking_gives : Gives (u.tracking s) ViewModifier.Tame := by
  refine Gives.step fun _ => Gives.step fun space => .ret ?_
  exact ViewModifier.tame_single (plain_of_all rfl) (Value.tame_number space)

theorem simple_gives (hname : Plain u.modifier.name) : Gives u.simple ViewModifier.Tame :=
  Gives.step fun _ => .ret (ViewModifier.tame_plain hname (by simp))

theorem lineLimit_gives : Gives u.lineLimit ViewModifier.Tame := by
  refine Gives.step fun _ => ?_
  split
  next n hn =>
    split
    · exact .ret (ViewModifier.tame_single (plain_of_all rfl) (Value.tame_int n))
    · exact .error
  · exact .error

theorem scale_gives : Gives u.scale ViewModifier.Tame := by
  refine Gives.step fun _ => Gives.step fun x => .ret ?_
  exact ViewModifier.tame_single (plain_of_all rfl) (Value.tame_number x)

theorem rotation_gives : Gives u.rotation ViewModifier.Tame := by
  refine Gives.step fun _ => Gives.step fun x => .ret ?_
  refine ViewModifier.tame_single (plain_of_all rfl) (Value.tame_call (plain_of_all rfl) ?_)
  exact List.forall_mem_singleton.mpr (tame_bare (Value.tame_number x))

theorem disabled_gives : Gives u.disabled ViewModifier.Tame := by
  refine Gives.step fun _ => Gives.step fun b => .ret ?_
  exact ViewModifier.tame_single (plain_of_all rfl) (Value.tame_bool b)

theorem texted_gives (hname : Plain u.modifier.name) : Gives u.texted ViewModifier.Tame := by
  refine Gives.step fun _ => Gives.step fun text => .ret ?_
  exact ViewModifier.tame_single hname (Value.tame_string text)

theorem triggered_yields (hs : s.Tame) (hname : Plain u.modifier.name) :
    Yields (u.triggered s) ViewModifier.Tame := by
  refine Keeps.step fun _ => ?_
  split
  · exact .error
  next action haction =>
    refine (Setting.action_yields hs action).bind fun body hbody => .ret ?_
    refine ViewModifier.tame_plain hname (List.forall_mem_singleton.mpr ?_)
    exact tame_labeled (plain_of_all rfl) (Value.tame_action hbody)

/-- **A checked modifier is lowered to one that can stand in code.** -/
theorem lower_yields (hs : s.Tame) (hcheck : u.modifier.check = .ok ()) :
    Yields (u.lower s) ViewModifier.Tame := by
  unfold lower
  split
  next => exact .lift padding_gives
  next => exact .lift background_gives
  next hname => exact .lift (tinted_gives (hname ▸ plain_of_all rfl))
  next hname => exact .lift (tinted_gives (hname ▸ plain_of_all rfl))
  next => exact .lift font_gives
  next => exact .lift cornerRadius_gives
  next => exact .lift shadow_gives
  next => exact .lift opacity_gives
  next => exact .lift frame_gives
  next => exact .lift fillWidth_gives
  next => exact .lift border_gives
  next hname => exact .lift (animation_gives hcheck hname)
  next => exact .lift lineHeight_gives
  next => exact .lift tracking_gives
  next hname => exact .lift (simple_gives (hname ▸ plain_of_all rfl))
  next hname => exact .lift (simple_gives (hname ▸ plain_of_all rfl))
  next => exact .lift lineLimit_gives
  next => exact .lift scale_gives
  next => exact .lift rotation_gives
  next => exact .lift disabled_gives
  next hname => exact .lift (simple_gives (hname ▸ plain_of_all rfl))
  next hname => exact .lift (texted_gives (hname ▸ plain_of_all rfl))
  next hname => exact .lift (texted_gives (hname ▸ plain_of_all rfl))
  next hname => exact triggered_yields hs (hname ▸ plain_of_all rfl)
  next hname => exact triggered_yields hs (hname ▸ plain_of_all rfl)
  next => exact .error

end ModifierUse

theorem Setting.userModifiers_yields {s : Setting} (hs : s.Tame) {e : Element}
    (hcheck : ∀ m ∈ e.modifiers, m.check = .ok ()) :
    Yields (s.userModifiers e) fun modifiers => ∀ m ∈ modifiers, m.Tame :=
  Keeps.mapM fun m hm => ModifierUse.lower_yields hs (hcheck m hm)

end Screenwright
