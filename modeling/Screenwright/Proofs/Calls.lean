/-
The statements of a view have what they need.

A statement is written somewhere inside the body of a view, and what it runs on is declared at
the head of the view: the router that a navigation pushes its route to, the action by which the
view dismisses itself, the function that a call names.  Lowering keeps the two apart.  The
statements go into the tree, and what they need goes into the ledger, from which the head is
written when the tree is done.  A view is `Closed` if they meet again: nothing is missing at the
head, and nothing stands there without a statement that needs it.

Both sides are told by the uses that have been recorded.  One by one, these are what the body
does; and folded into a ledger they are what the head declares.  That all calls of a handler
agree needs more than the last ledger, because the first call of a name is the one that is
written down: the ledger `Serves` every use that lowering has come past.
-/
import Screenwright.Proofs.Lowering.Emission
import Screenwright.Proofs.Members
import Screenwright.Proofs.Ways

namespace Screenwright

open Steps Swift

/-! ### Closed views -/

namespace Swift

/-- The type that a literal has, as the parameters of handlers spell it. -/
def Value.literalType? : Value → Option String
  | string _ => some "String"
  | bool _ => some "Bool"
  | int _ => some "Int"
  | number _ => some "Double"
  | _ => none

/-- The argument has the label of the parameter, and it is a literal of the parameter's type. -/
def ArgumentFor (param : String × String) (arg : Arg) : Prop :=
  arg.1 = some param.1 ∧ arg.2.literalType? = some param.2

/-- The handler can be called with the arguments: one for each parameter, in the same order. -/
def Handler.Takes (handler : Handler) (args : List Arg) : Prop :=
  List.Forall₂ ArgumentFor handler.params args

/-- The statements in the body of a view are closed under what the view declares, and it declares
nothing for statements that it does not have. -/
structure ScreenView.Closed (view : ScreenView) : Prop where
  router : .router ∈ view.members ↔ ∃ route, .run (.navigate route) ∈ view.body.effects
  usesRouter : view.usesRouter = true ↔ ∃ route, .run (.navigate route) ∈ view.body.effects
  dismiss : .environment "dismiss" "dismiss" ∈ view.members ↔
    .run .dismiss ∈ view.body.effects
  /-- Every call names exactly one handler, and that one takes the arguments. -/
  call : ∀ name args, .run (.invoke name args) ∈ view.body.effects →
    ∃ handler, view.handlers.filter (fun h => h.name = name) = [handler] ∧ handler.Takes args
  handlers : (view.handlers.map Handler.name).Nodup
  /-- No handler is there without a call of it. -/
  called : ∀ handler ∈ view.handlers,
    ∃ args, .run (.invoke handler.name args) ∈ view.body.effects

end Swift

/-! ### Arguments of calls -/

namespace Setting

/-- A value that a handler can take is passed as a literal of the type that is read off it. -/
theorem exists_handlerArg {name : String} {value : Json} {param : String × String}
    (h : Action.handlerParam name value = .ok param) :
    ∃ arg, handlerArg (name, value) = some arg ∧ ArgumentFor param arg := by
  unfold Action.handlerParam at h
  split at h
  · cases h
  split at h
  next type htype =>
    cases h
    cases value with
    | string text => cases htype; exact ⟨_, rfl, rfl, rfl⟩
    | bool b => cases htype; exact ⟨_, rfl, rfl, rfl⟩
    | float x => cases htype; exact ⟨_, rfl, rfl, rfl⟩
    | int n =>
        cases htype
        refine ⟨_, rfl, rfl, ?_⟩
        by_cases hrange : Json.inIntRange n = true
        · rw [if_pos hrange, if_pos hrange]
          rfl
        · rw [if_neg hrange, if_neg hrange]
          rfl
    | null => cases htype
    | array items => cases htype
    | object members => cases htype
  · cases h

/-- **A call passes what the parameters ask for, in their order.** -/
theorem forall₂_handlerArgs {args : Entries Json} {params : HandlerParams}
    (h : Action.handlerParams args = .ok params) :
    List.Forall₂ ArgumentFor params (args.filterMap handlerArg) := by
  have hall := mapM_eq_ok.mp h
  induction hall with
  | nil => exact .nil
  | cons hparam hrest ih =>
      obtain ⟨arg, harg, hfits⟩ := exists_handlerArg hparam
      rw [List.filterMap_cons_some harg]
      exact .cons hfits (ih (mapM_eq_ok.mpr hrest))

end Setting

/-! ### The router and the dismissal -/

/-- The use pushes the route of a screen onto the router. -/
def Use.navigates : Use → Bool
  | action _ (.navigate _) => true
  | _ => false

/-- The use dismisses the view. -/
def Use.dismisses : Use → Bool
  | action _ .dismiss => true
  | _ => false

/-- Side by side, whether there is an item of one sort is told by the other list. -/
theorem any_iff_of_forall₂ {α β : Type} {r : α → β → Prop} {p : α → Bool} {q : β → Prop}
    {xs : List α} {ys : List β} (h : List.Forall₂ r xs ys)
    (hsort : ∀ x y, r x y → (p x = true ↔ q y)) : xs.any p = true ↔ ∃ y ∈ ys, q y := by
  induction h with
  | nil => simp
  | cons hxy _ ih =>
      rw [List.any_cons, Bool.or_eq_true, ih, hsort _ _ hxy, List.exists_mem_cons_iff]

namespace Setting

variable {s : Setting}

theorem navigates_iff_of_does {use : Use} {effect : Effect} (h : s.Does use effect) :
    use.navigates = true ↔ ∃ route, effect = .run (.navigate route) := by
  cases h <;> simp [Use.navigates]

theorem dismisses_iff_of_does {use : Use} {effect : Effect} (h : s.Does use effect) :
    use.dismisses = true ↔ effect = .run .dismiss := by
  cases h <;> simp [Use.dismisses]

/-- One use turns on the router if it navigates, and the dismissal if it dismisses. -/
theorem flags_record (ledger : Ledger) (use : Use) :
    (s.record ledger use).usesRouter = (ledger.usesRouter || use.navigates) ∧
      (s.record ledger use).usesDismiss = (ledger.usesDismiss || use.dismisses) := by
  have hkept : ledger.usesRouter = (ledger.usesRouter || false) ∧
      ledger.usesDismiss = (ledger.usesDismiss || false) :=
    ⟨(Bool.or_false _).symm, (Bool.or_false _).symm⟩
  cases use with
  | link node target => exact hkept
  | tab node target => exact hkept
  | action node a =>
      cases a with
      | navigate target => exact ⟨(Bool.or_true _).symm, hkept.2⟩
      | presentSheet target => exact hkept
      | dismiss => exact ⟨hkept.1, (Bool.or_true _).symm⟩
      | custom name args =>
          simp only [record, recordAction]
          split <;> exact hkept

/-- **A ledger needs the router and the dismissal exactly for the uses that do.** -/
theorem flags_foldl_record (order : List Use) : ∀ ledger : Ledger,
    (order.foldl s.record ledger).usesRouter = (ledger.usesRouter || order.any Use.navigates) ∧
      (order.foldl s.record ledger).usesDismiss =
        (ledger.usesDismiss || order.any Use.dismisses) := by
  induction order with
  | nil => exact fun ledger => ⟨(Bool.or_false _).symm, (Bool.or_false _).symm⟩
  | cons use order ih =>
      intro ledger
      obtain ⟨hrouter, hdismiss⟩ := flags_record (s := s) ledger use
      rw [List.foldl_cons, (ih _).1, (ih _).2, hrouter, hdismiss, List.any_cons, List.any_cons,
        Bool.or_assoc, Bool.or_assoc]
      exact ⟨rfl, rfl⟩

theorem nodup_handlers (s : Setting) (order : List Use) :
    (Entries.names (order.foldl s.record .empty).handlers).Nodup := by
  rw [handlers_foldl_record]
  exact Entries.nodup_foldl_putNew List.nodup_nil

variable {screen : Screen} {body : View} {ledger : Ledger} {view : ScreenView}

/-- What sheets show runs nothing, so a finished view has the statements of its tree. -/
theorem run_mem_effects_iff (h : s.finish screen body ledger = .ok view)
    {statement : Statement} :
    .run statement ∈ view.body.effects ↔ .run statement ∈ body.effects := by
  rw [effects_of_finish h, List.mem_append, or_iff_left_iff_imp]
  intro hsheet
  obtain ⟨sheet, -, heq⟩ := List.mem_map.mp hsheet
  cases heq

/-- The head of a finished view is written from the ledger. -/
theorem head_of_finish (h : s.finish screen body ledger = .ok view) :
    view.usesRouter = ledger.usesRouter ∧
      view.handlers = ledger.handlers.map fun handler => ⟨handler.1, handler.2⟩ := by
  obtain ⟨_, -, h⟩ := bind_eq_ok.mp h
  cases h
  exact ⟨rfl, rfl⟩

/-- Only the ledger brings the router and the dismissal into a view: nothing in the scope may
have the name of either. -/
theorem common_mem_members_iff (h : s.finish screen body ledger = .ok view)
    (hstored : ∀ name ∈ s.scope.storedNames, name ∉ Scope.reservedNames) :
    (.router ∈ view.members ↔ ledger.usesRouter = true) ∧
      (.environment "dismiss" "dismiss" ∈ view.members ↔ ledger.usesDismiss = true) := by
  obtain ⟨stored, hmembers, heq⟩ := members_of_finish h
  have hfree : ∀ m : Member, m.name ∈ Scope.reservedNames → m ∉ stored := by
    intro m hreserved hmem
    refine hstored m.name ?_ hreserved
    rw [← Scope.map_name_members hmembers]
    exact List.mem_map_of_mem hmem
  have hflags : ∀ m : Member, (∀ flag, m ≠ .state flag "Bool" (.bool false)) →
      m ∉ flagMembers s.scope ledger.sheets := by
    intro m hstate hmem
    obtain ⟨flag, -, hflag⟩ := List.mem_map.mp hmem
    exact hstate flag hflag.symm
  have hrouter := hfree .router (by decide)
  have hdismiss := hfree (.environment "dismiss" "dismiss") (by decide)
  rw [heq]
  constructor
  · simp [hrouter, hflags .router]
  · simp [hdismiss, hflags (.environment "dismiss" "dismiss")]

end Setting

/-! ### Emitted views -/

namespace Emitted

variable {cx : BuildContext} {screen : Screen} {tree : NormalTree} {view : ScreenView}
  {s : Setting} {order : List Use} {body : View}

/-- The router is needed exactly by navigations, and the dismissal exactly by dismissals. -/
theorem flags_iff (h : Emitted cx screen tree view s order body) :
    ((order.foldl s.record .empty).usesRouter = true ↔
        ∃ route, .run (.navigate route) ∈ view.body.effects) ∧
      ((order.foldl s.record .empty).usesDismiss = true ↔ .run .dismiss ∈ view.body.effects) := by
  obtain ⟨hrouter, hdismiss⟩ := Setting.flags_foldl_record (s := s) order .empty
  have hnone : Ledger.empty.usesRouter = false ∧ Ledger.empty.usesDismiss = false := ⟨rfl, rfl⟩
  rw [hrouter, hdismiss, hnone.1, hnone.2, Bool.false_or, Bool.false_or,
    any_iff_of_forall₂ h.does fun _ _ => Setting.navigates_iff_of_does,
    any_iff_of_forall₂ h.does fun _ _ => Setting.dismisses_iff_of_does]
  simp only [Setting.run_mem_effects_iff h.finish]
  constructor
  · constructor
    · rintro ⟨_, hmem, route, rfl⟩
      exact ⟨route, hmem⟩
    · rintro ⟨route, hmem⟩
      exact ⟨_, hmem, route, rfl⟩
  · exact exists_eq_right

/-- A call names a handler of the ledger, which takes its arguments. -/
theorem exists_handler (h : Emitted cx screen tree view s order body) {name : String}
    {args : List Arg} (hcall : .run (.invoke name args) ∈ view.body.effects) :
    ∃ params, (order.foldl s.record .empty).handlers.lookup name = some params ∧
      List.Forall₂ ArgumentFor params args := by
  rw [Setting.run_mem_effects_iff h.finish] at hcall
  obtain ⟨use, huse, hdoes⟩ := exists_of_forall₂ h.does _ hcall
  cases hdoes with
  | invoke =>
      obtain ⟨params, hparams, hlookup⟩ := h.serves _ huse
      exact ⟨params, hlookup, Setting.forall₂_handlerArgs hparams⟩

/-- A handler of the ledger has been called. -/
theorem exists_call (h : Emitted cx screen tree view s order body) {name : String}
    (hname : name ∈ Entries.names (order.foldl s.record .empty).handlers) :
    ∃ args, .run (.invoke name args) ∈ view.body.effects := by
  rw [Setting.handlers_foldl_record, Entries.mem_names_foldl_putNew] at hname
  rcases hname with hnil | ⟨handler, hhandler, rfl⟩
  · cases hnil
  obtain ⟨use, huse, hcalls⟩ := List.mem_filterMap.mp hhandler
  obtain ⟨node, args, rfl⟩ := Use.exists_of_handler? hcalls
  obtain ⟨effect, heffect, hdoes⟩ := exists_of_forall₂ h.does.flip _ huse
  cases hdoes with
  | invoke => exact ⟨_, (Setting.run_mem_effects_iff h.finish).mpr heffect⟩

/-- **A view whose scope is furnished is closed.** -/
theorem closed (h : Emitted cx screen tree view s order body)
    (hfurnished : Furnished cx.catalog cx.models screen tree s.scope) : view.Closed := by
  obtain ⟨hrouter, hdismiss⟩ := Setting.common_mem_members_iff h.finish
    fun _ hname => hfurnished.not_mem_reservedNames hname
  obtain ⟨huses, hhandlers⟩ := Setting.head_of_finish h.finish
  obtain ⟨hnavigates, hdismisses⟩ := h.flags_iff
  refine ⟨hrouter.trans hnavigates, ?_, hdismiss.trans hdismisses, fun name args hcall => ?_, ?_,
    fun handler hhandler => ?_⟩
  · rw [huses]
    exact hnavigates
  · obtain ⟨params, hlookup, htakes⟩ := h.exists_handler hcall
    refine ⟨⟨name, params⟩, ?_, htakes⟩
    have hone := Entries.filter_name_eq (s.nodup_handlers order) name
    rw [hlookup] at hone
    rw [hhandlers, List.filter_map]
    exact congrArg (List.map fun entry => (⟨entry.1, entry.2⟩ : Handler)) hone
  · rw [hhandlers, List.map_map]
    exact s.nodup_handlers order
  · rw [hhandlers] at hhandler
    obtain ⟨entry, hentry, rfl⟩ := List.mem_map.mp hhandler
    exact h.exists_call (List.mem_map_of_mem hentry)

end Emitted

namespace Generate.Run

variable {app : AppDefinition} {catalog : Catalog} {config : GeneratorConfig} {out : GeneratedApp}
  {types : List DataType} {trees : List NormalTree} {views : List ScreenView} {entry : AppEntry}

/-- The variables of the screens of a generated app have no errors. -/
theorem variableErrors_eq_nil (h : Run app catalog config out types trees views entry)
    {screen : Screen} (hscreen : screen ∈ app.screens) :
    app.variableErrors screen.id [] screen.declared = [] := by
  obtain ⟨tree, -, hzip, -, -⟩ := h.exists_screen hscreen
  exact (h.faultless.screens _ hzip).declared

/-- The view of a screen is emitted in a furnished scope. -/
theorem furnished_of_build (h : Run app catalog config out types trees views entry)
    {screen : Screen} (hscreen : screen ∈ app.screens) {tree : NormalTree} {view : ScreenView}
    (hbuild : buildScreen (app.contextIn catalog) screen tree = .ok view) :
    ∃ s order body, Emitted (app.contextIn catalog) screen tree view s order body ∧
      Furnished catalog app.models screen tree s.scope := by
  obtain ⟨s, order, body, hemitted⟩ := exists_emitted hbuild
  exact ⟨s, order, body, hemitted, Scope.resolvesAll_of_bindAll hemitted.bindings,
    AppDefinition.declarable_of_variableErrors (h.variableErrors_eq_nil hscreen)⟩

end Generate.Run

/-- **The statements of every view are closed under what the view declares.**  In every
generated app, over any catalog, a view has the router exactly if its body navigates, and the
dismissal exactly if its body dismisses; every call in the body names exactly one handler of the
view, which takes the arguments of the call; and the handlers have distinct names and are all
called. -/
theorem statements_are_closed (app : AppDefinition) (catalog : Catalog) (config : GeneratorConfig)
    (out : GeneratedApp) (h : generate app catalog config = .ok out) :
    ∀ screen ∈ app.screens, ∃ tree view,
      normalize screen.root catalog config.limits = .ok tree ∧
      buildScreen (app.contextIn catalog) screen tree = .ok view ∧ view.Closed := by
  intro screen hscreen
  obtain ⟨types, trees, views, entry, hrun⟩ := Generate.exists_run h
  obtain ⟨tree, view, -, hnormal, hbuild⟩ := hrun.exists_screen hscreen
  obtain ⟨s, order, body, hemitted, hfurnished⟩ := hrun.furnished_of_build hscreen hbuild
  exact ⟨tree, view, hnormal, hbuild, hemitted.closed hfurnished⟩

/-- The first screen of the desk navigates, dismisses itself and calls a handler. -/
theorem statements_of_desk :
    ∃ out, generate Generate.desk Catalog.standard .standard = .ok out ∧
      ∀ screen ∈ Generate.desk.screens, ∃ tree view,
        normalize screen.root Catalog.standard Limits.standard = .ok tree ∧
        buildScreen (Generate.desk.contextIn Catalog.standard) screen tree = .ok view ∧
        view.Closed := by
  have haccepts : Generate.accepts Generate.desk .standard = true := by decide +kernel
  obtain ⟨out, hout⟩ := Generate.exists_generate_of_accepts haccepts
  exact ⟨out, hout, statements_are_closed Generate.desk Catalog.standard .standard out hout⟩

end Screenwright
