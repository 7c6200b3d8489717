/-
What a view does, and which use of the tree has it do so.

`View.effects` reads a view from the outside in and lists what can come of it: the statements
of its actions, the values of its links and the generated views that it makes.  A lowering has
a second account of the same, the uses that it writes down.  `Emits` says that the two agree
one by one and in order: whatever ledger the lowering begins with, what it gives has exactly
the effects of the uses that it has recorded on the way.  Nothing is assumed of the tree, so
this holds for every catalog.
-/
import Screenwright.Proofs.Lowering.Uses

namespace Screenwright

open Steps

namespace Swift

/-! ### The effects of a view -/

/-- Something that comes of a view. -/
inductive Effect where
  /-- A statement that an action runs. -/
  | run (statement : Statement)
  /-- A value that a link pushes. -/
  | link (value : Value)
  /-- A generated view that is made. -/
  | view (type : String)

mutual

/-- The statements inside a value. -/
def Value.statements : Value → List Statement
  | .constant value => value.statements
  | .call _ args => argStatements args
  | .method receiver _ args => receiver.statements ++ argStatements args
  | .array items => valueStatements items
  | .range low high => low.statements ++ high.statements
  | .action body => bodyStatements body
  | .string _ | .interpolation _ | .int _ | .number _ | .bool _ | .member _ | .ident _
  | .binding _ | .color _ | .font _ _ _ | .nil => []

/-- A statement with those inside its arguments. -/
def Statement.statements : Statement → List Statement
  | .invoke name args => .invoke name args :: argStatements args
  | .navigate route => [.navigate route]
  | .present flag => [.present flag]
  | .dismiss => [.dismiss]

/-- The statements inside arguments. -/
def argStatements : List (Option String × Value) → List Statement
  | [] => []
  | (_, value) :: rest => value.statements ++ argStatements rest

/-- The statements inside values. -/
def valueStatements : List Value → List Statement
  | [] => []
  | value :: rest => value.statements ++ valueStatements rest

/-- The statements of a body. -/
def bodyStatements : List Statement → List Statement
  | [] => []
  | statement :: rest => statement.statements ++ bodyStatements rest

end

/-- The effects of the statements inside arguments. -/
def argEffects (args : List Arg) : List Effect :=
  (argStatements args).map .run

/-- The values that arguments have a link push. -/
def linkEffects (args : List Arg) : List Effect :=
  (args.filter fun arg => arg.1 = some "value").map fun arg => .link arg.2

/-- What a view with content leads to by itself. -/
def ContainerKind.leads : ContainerKind → List Arg → List Effect
  | navigationLink, args => linkEffects args
  | _, _ => []

/-- What a view made from arguments alone leads to. -/
def LeafKind.leads : LeafKind → List Arg → List Effect
  | navigationLink, args => linkEffects args
  | custom type, _ => [.view type]
  | _, _ => []

mutual

/-- The effects of a view, in the order in which it is written. -/
def View.effects : View → List Effect
  | .container kind args content trailing =>
    kind.leads args ++ argEffects args ++ viewEffects content ++ closureEffects trailing
  | .leaf kind args => kind.leads args ++ argEffects args
  | .modified inner chain => inner.effects ++ modifierEffects chain
  | .conditional condition yes no =>
    condition.statements.map .run ++ viewEffects yes ++ viewEffects no

/-- The effects of several views. -/
def viewEffects : List View → List Effect
  | [] => []
  | view :: rest => view.effects ++ viewEffects rest

/-- The effects of a modifier. -/
def ViewModifier.effects : ViewModifier → List Effect
  | .mk _ args trailing => argEffects args ++ closureEffects trailing

/-- The effects of several modifiers. -/
def modifierEffects : List ViewModifier → List Effect
  | [] => []
  | modifier :: rest => modifier.effects ++ modifierEffects rest

/-- The effects of closures. -/
def closureEffects : List Closure → List Effect
  | [] => []
  | .mk _ _ body :: rest => viewEffects body ++ closureEffects rest

end

attribute [simp] Value.statements Statement.statements argStatements valueStatements
  bodyStatements View.effects viewEffects ViewModifier.effects modifierEffects closureEffects
  ContainerKind.leads LeafKind.leads

/-! ### Putting views together -/

theorem argStatements_append (xs ys : List Arg) :
    argStatements (xs ++ ys) = argStatements xs ++ argStatements ys := by
  induction xs with
  | nil => rfl
  | cons arg xs ih => rw [List.cons_append, argStatements, argStatements, ih, List.append_assoc]

@[simp]
theorem argEffects_nil : argEffects [] = [] := rfl

@[simp]
theorem argEffects_cons (arg : Arg) (args : List Arg) :
    argEffects (arg :: args) = arg.2.statements.map .run ++ argEffects args := by
  rw [argEffects, argStatements, List.map_append]
  rfl

@[simp]
theorem argEffects_append (xs ys : List Arg) :
    argEffects (xs ++ ys) = argEffects xs ++ argEffects ys := by
  rw [argEffects, argStatements_append, List.map_append]
  rfl

theorem argEffects_eq_nil {args : List Arg} (h : ∀ arg ∈ args, arg.2.statements = []) :
    argEffects args = [] := by
  induction args with
  | nil => rfl
  | cons arg args ih =>
      rw [List.forall_mem_cons] at h
      rw [argEffects_cons, h.1, ih h.2]
      rfl

theorem viewEffects_eq_flatMap (views : List View) :
    viewEffects views = views.flatMap View.effects := by
  induction views with
  | nil => rfl
  | cons view views ih => rw [viewEffects, ih, List.flatMap_cons]

@[simp]
theorem modifierEffects_append (ms ns : List ViewModifier) :
    modifierEffects (ms ++ ns) = modifierEffects ms ++ modifierEffects ns := by
  induction ms with
  | nil => rfl
  | cons m ms ih =>
      rw [List.cons_append, modifierEffects, modifierEffects, ih, List.append_assoc]

theorem modifierEffects_eq_flatMap (ms : List ViewModifier) :
    modifierEffects ms = ms.flatMap ViewModifier.effects := by
  induction ms with
  | nil => rfl
  | cons m ms ih => rw [modifierEffects, ih, List.flatMap_cons]

@[simp]
theorem closureEffects_append (xs ys : List Closure) :
    closureEffects (xs ++ ys) = closureEffects xs ++ closureEffects ys := by
  induction xs with
  | nil => rfl
  | cons closure xs ih =>
      obtain ⟨label, params, body⟩ := closure
      rw [List.cons_append, closureEffects, closureEffects, ih, List.append_assoc]

/-- Modifiers add their effects behind those of the view. -/
@[simp]
theorem effects_modify (view : View) (ms : List ViewModifier) :
    (view.modify ms).effects = view.effects ++ modifierEffects ms := by
  unfold View.modify
  split
  next hempty =>
    rw [List.isEmpty_iff.mp hempty, modifierEffects, List.append_nil]
  · cases view with
    | modified inner chain =>
        rw [View.effects, View.effects, modifierEffects_append, List.append_assoc]
    | _ => rfl

end Swift

/-! ### Uses and their effects -/

open Swift

/-- What a use has a view do. -/
inductive Setting.Does (s : Setting) : Use → Effect → Prop where
  | navigate {node target : String} {names : ScreenNames}
      (h : s.screens.lookup target = some names) :
      Does s (.action node (.navigate target)) (.run (.navigate names.routeCase))
  | present {node target : String} {names : ScreenNames}
      (h : s.screens.lookup target = some names) :
      Does s (.action node (.presentSheet target)) (.run (.present names.presentationFlag))
  | dismiss {node : String} : Does s (.action node .dismiss) (.run .dismiss)
  | invoke {node name : String} {args : Entries Json} :
      Does s (.action node (.custom name args))
        (.run (.invoke name (args.filterMap Setting.handlerArg)))
  | link {node target : String} {names : ScreenNames}
      (h : s.screens.lookup target = some names) :
      Does s (.link node target) (.link (.ident ("Route." ++ names.routeCase)))
  | tab {node target : String} {names : ScreenNames}
      (h : s.screens.lookup target = some names) :
      Does s (.tab node target) (.view names.viewType)

/-- If the use calls a handler, the ledger holds it with the parameters of the call. -/
def Ledger.Serves (ledger : Ledger) : Use → Prop
  | .action _ (.custom name args) =>
    ∃ params, Action.handlerParams args = .ok params ∧ ledger.handlers.lookup name = some params
  | _ => True

namespace Setting

variable {s : Setting} {ledger : Ledger}

/-- A handler keeps its parameters. -/
theorem lookup_handlers_record {name : String} {params : HandlerParams} (use : Use)
    (h : ledger.handlers.lookup name = some params) :
    (s.record ledger use).handlers.lookup name = some params := by
  cases use with
  | link node target => exact h
  | tab node target => exact h
  | action node a =>
      cases a with
      | navigate target => exact h
      | presentSheet target => exact h
      | dismiss => exact h
      | custom other args =>
          simp only [record, recordAction]
          split
          · rw [Entries.lookup_putNew, h]
            rfl
          · exact h

/-- Whatever is recorded later, a use that has been served stays so. -/
theorem serves_foldl_record {use : Use} (order : List Use) :
    ∀ {ledger : Ledger}, ledger.Serves use → (order.foldl s.record ledger).Serves use := by
  induction order with
  | nil => exact fun h => h
  | cons next order ih =>
      intro ledger h
      refine ih ?_
      cases use with
      | action node a =>
          cases a with
          | custom name args =>
              obtain ⟨params, hparams, hlookup⟩ := h
              exact ⟨params, hparams, lookup_handlers_record next hlookup⟩
          | _ => trivial
      | _ => trivial

end Setting

/-- Whatever the lowering gives meets the condition together with the effects of the uses that
it has recorded, and the ledger it leaves serves all of them. -/
def Emits (s : Setting) {α : Type} (m : Build α) (p : α → List Effect → Prop) : Prop :=
  ∀ ledger a after, m.run ledger = .ok (a, after) → ∃ order effects,
    after = order.foldl s.record ledger ∧ (∀ use ∈ order, after.Serves use) ∧
      List.Forall₂ s.Does order effects ∧ p a effects

/-- What the lowering gives has the effects of the recorded uses, and no others. -/
abbrev EmitsAs (s : Setting) {α : Type} (m : Build α) (effects : α → List Effect) : Prop :=
  Emits s m fun a found => effects a = found

namespace Emits

variable {s : Setting} {α β : Type} {m : Build α} {f : α → Build β} {p : α → List Effect → Prop}
  {q : β → List Effect → Prop}

theorem ret {a : α} (h : p a []) : Emits s (pure a) p := by
  rintro ledger _ _ ⟨⟩
  exact ⟨[], [], rfl, by simp, .nil, h⟩

theorem error {e : BuildError} : Emits s (throw e : Build α) p := by
  rintro ledger a after ⟨⟩

theorem bind (hm : Emits s m p) (hf : ∀ a first, p a first →
    Emits s (f a) fun b second => q b (first ++ second)) : Emits s (m >>= f) q := by
  intro ledger b after hrun
  rw [StateT.run_bind] at hrun
  obtain ⟨⟨a, between⟩, hfirst, hrest⟩ := bind_eq_ok.mp hrun
  obtain ⟨order, first, rfl, hserves, hdoes, ha⟩ := hm ledger a between hfirst
  obtain ⟨order', second, rfl, hserves', hdoes', hb⟩ := hf a first ha _ b after hrest
  refine ⟨order ++ order', first ++ second, ?_, ?_, List.rel_append hdoes hdoes', hb⟩
  · rw [List.foldl_append]
  · exact List.forall_mem_append.mpr
      ⟨fun use huse => Setting.serves_foldl_record order' (hserves use huse), hserves'⟩

/-- A step that only reads. -/
theorem lift {x : Except BuildError α} (h : Gives x fun a => p a []) :
    Emits s (liftM x : Build α) p := by
  intro ledger a after hrun
  cases x with
  | error e => cases hrun
  | ok b =>
      cases hrun
      exact ⟨[], [], rfl, by simp, .nil, h a rfl⟩

/-- `bind` behind a step that only reads. -/
theorem after {x : Except BuildError α} {p : α → Prop} (hx : Gives x p)
    (hf : ∀ a, p a → Emits s (f a) q) : Emits s ((liftM x : Build α) >>= f) q := by
  refine bind (p := fun a effects => p a ∧ effects = []) (lift ?_) ?_
  · exact fun a ha => ⟨hx a ha, rfl⟩
  · rintro a _ ⟨ha, rfl⟩
    exact hf a ha

/-- `after` a step of which nothing is needed. -/
theorem step {x : Except BuildError α} (hf : ∀ a, Emits s (f a) q) :
    Emits s ((liftM x : Build α) >>= f) q :=
  after Gives.any fun a _ => hf a

/-- Nothing comes behind an error. -/
theorem error_bind {e : BuildError} : Emits s ((throw e : Build α) >>= f) q :=
  bind (p := fun _ _ => False) error fun _ _ h => h.elim

/-- A step that looks at the ledger. -/
theorem read {f : Ledger → Build β} (h : ∀ ledger, Emits s (f ledger) q) :
    Emits s (get >>= f) q :=
  fun ledger b after hrun => h ledger ledger b after hrun

/-- A lowering that records one use. -/
theorem one (use : Use) {effect : Effect} (hdoes : s.Does use effect)
    (h : ∀ ledger a after, m.run ledger = .ok (a, after) →
      after = s.record ledger use ∧ after.Serves use ∧ p a [effect]) : Emits s m p := by
  intro ledger a after hrun
  obtain ⟨hafter, hserves, ha⟩ := h ledger a after hrun
  exact ⟨[use], [effect], hafter, List.forall_mem_singleton.mpr hserves, .cons hdoes .nil, ha⟩

theorem mapM {f : α → Build β} {g : β → List Effect} {xs : List α}
    (h : ∀ x ∈ xs, EmitsAs s (f x) g) : EmitsAs s (xs.mapM f) fun ys => ys.flatMap g := by
  induction xs with
  | nil =>
      rw [List.mapM_nil]
      exact ret rfl
  | cons x xs ih =>
      rw [List.forall_mem_cons] at h
      rw [List.mapM_cons]
      refine h.1.bind fun y first hy => (ih h.2).bind fun ys second hys => ret ?_
      show (y :: ys).flatMap g = first ++ (second ++ [])
      rw [List.flatMap_cons, List.append_nil, hy]
      exact congrArg _ hys

end Emits

/-! ### Actions -/

namespace Setting

variable {s : Setting}

theorem target_gives_lookup (node target : String) :
    Gives (s.target node target) fun names => s.screens.lookup target = some names := by
  intro names hnames
  unfold Setting.target at hnames
  split at hnames
  next found hfound =>
    cases hnames
    exact hfound
  · cases hnames

/-- The arguments that a handler is called with run nothing. -/
theorem argStatements_handlerArgs (args : Entries Json) :
    argStatements (args.filterMap handlerArg) = [] := by
  induction args with
  | nil => rfl
  | cons arg args ih =>
      obtain ⟨name, value⟩ := arg
      cases value with
      | string text => exact ih
      | bool b => exact ih
      | float x => exact ih
      | int n =>
          simp only [List.filterMap_cons, handlerArg, labeled, argStatements, ih]
          split <;> rfl
      | _ => exact ih

/-- Only a handler that agrees with its earlier uses is written down. -/
theorem addHandler_emits {node name : String} {args : Entries Json} {params : HandlerParams}
    (hparams : Action.handlerParams args = .ok params) :
    Emits s (addHandler node name params) fun _ effects =>
      effects = [.run (.invoke name (args.filterMap handlerArg))] := by
  refine Emits.one (.action node (.custom name args)) .invoke fun ledger u after hrun => ?_
  have hrecord : s.record ledger (.action node (.custom name args)) =
      { ledger with handlers := Entries.putNew name params ledger.handlers } := by
    simp only [record, recordAction, hparams]
  rw [hrecord]
  rw [addHandler, StateT.run_bind, StateT.run_get, pure_eq_ok, ok_bind] at hrun
  cases hfirst : ledger.handlers.lookup name with
  | none =>
      rw [hfirst] at hrun
      cases hrun
      rw [Entries.putNew_of_none hfirst]
      refine ⟨rfl, ⟨params, hparams, ?_⟩, rfl⟩
      show (ledger.handlers ++ [(name, params)]).lookup name = some params
      rw [← Entries.putNew_of_none hfirst, Entries.lookup_putNew, hfirst]
      simp
  | some first =>
      rw [hfirst] at hrun
      rw [Entries.putNew_of_some hfirst]
      by_cases hsame : first = params
      · simp only [hsame, if_true] at hrun
        cases hrun
        exact ⟨rfl, ⟨params, hparams, hsame ▸ hfirst⟩, rfl⟩
      · simp only [hsame, if_false] at hrun
        cases hrun

/-- The statements of a body are effects of the view that holds it. -/
abbrev EmitsBody (s : Setting) (m : Build (List Statement)) : Prop :=
  EmitsAs s m fun body => (bodyStatements body).map .run

theorem customAction_emits (node name : String) (args : Entries Json) :
    EmitsBody s (s.customAction node name args) := by
  unfold customAction
  dsimp only
  split
  · refine Emits.read fun ledger => ?_
    split
    · exact .error_bind
    · split
      · exact .error
      next params hparams =>
        refine (addHandler_emits hparams).bind fun _ first hfirst => .ret ?_
        simp [hfirst, argStatements_handlerArgs]
  · exact .error_bind

/-- **The statements of an action are what the action does.** -/
theorem action_emits (node : String) (a : Action) :
    EmitsBody s (s.action node a) := by
  cases a with
  | navigate target =>
      refine .after (target_gives_lookup node target) fun names hnames => ?_
      refine .one (.action node (.navigate target)) (.navigate hnames) fun ledger body after hrun => ?_
      cases hrun
      exact ⟨rfl, trivial, rfl⟩
  | presentSheet target =>
      refine .after (target_gives_lookup node target) fun names hnames => ?_
      refine .one (.action node (.presentSheet target)) (.present hnames) fun ledger body after hrun => ?_
      cases hrun
      refine ⟨?_, trivial, rfl⟩
      simp [record, recordAction, recordEdge, hnames]
  | dismiss =>
      refine .one (.action node .dismiss) .dismiss fun ledger body after hrun => ?_
      cases hrun
      exact ⟨rfl, trivial, rfl⟩
  | custom name args => exact customAction_emits node name args

/-! ### The sheets that uses leave in the ledger -/

/-- The names of the screen that a use presents. -/
def presented? (s : Setting) : Use → Option ScreenNames
  | .action _ (.presentSheet target) => s.screens.lookup target
  | _ => none

theorem exists_of_presented? {use : Use} {names : ScreenNames} (h : s.presented? use = some names) :
    ∃ node target, use = .action node (.presentSheet target) ∧
      s.screens.lookup target = some names := by
  cases use with
  | link node target => cases h
  | tab node target => cases h
  | action node a =>
      cases a with
      | presentSheet target => exact ⟨node, target, rfl, h⟩
      | _ => cases h

theorem sheets_record (ledger : Ledger) (use : Use) :
    (s.record ledger use).sheets =
      ((s.presented? use).map fun names =>
        Entries.putNew names.presentationFlag names.viewType ledger.sheets).getD ledger.sheets := by
  cases use with
  | link node target => rfl
  | tab node target => rfl
  | action node a =>
      cases a with
      | navigate target => rfl
      | dismiss => rfl
      | presentSheet target =>
          simp only [record, recordAction, presented?]
          cases s.screens.lookup target <;> rfl
      | custom name args =>
          simp only [record, recordAction, presented?]
          split <;> rfl

/-- **The sheets of a ledger are those of the presented screens, the first of each flag.** -/
theorem sheets_foldl_record (order : List Use) :
    ∀ ledger : Ledger, (order.foldl s.record ledger).sheets =
      (order.filterMap s.presented?).foldl (fun sheets names =>
        Entries.putNew names.presentationFlag names.viewType sheets) ledger.sheets := by
  induction order with
  | nil => exact fun _ => rfl
  | cons use order ih =>
      intro ledger
      rw [List.foldl_cons, ih, sheets_record, List.filterMap_cons]
      cases s.presented? use <;> rfl

end Setting

end Screenwright
