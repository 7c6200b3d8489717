/-
What lowering writes down, as a run over uses.

A use is one thing that a node asks of the rest of the app: an action that it triggers,
or a screen that it leads to.  Every other step of lowering leaves the ledger alone, so
a lowering is described by its list of uses: it comes through, and it leaves the ledger
that recording the uses one after the other leaves.  `Lowers` says so, up to the order
of the uses, and goes through `pure`, `bind` and `mapM`.

Recording a use can only fail on a handler that is called in two ways.  The premises
name the one way for every handler, `φ`, and a ledger that `Fits` keeps to it.
-/
import Mathlib.Data.List.Perm.Basic
import Screenwright.Lowering.Screen
import Screenwright.Proofs.Steps
import Screenwright.Proofs.Tables

namespace Screenwright

open Steps

/-- Something that a node asks of the rest of the app. -/
inductive Use where
  /-- An action that the node triggers. -/
  | action (node : String) (action : Action)
  /-- A screen that the node is a link to. -/
  | link (node target : String)
  /-- A screen that a tab of the node shows. -/
  | tab (node target : String)

namespace Use

/-- The reference to a screen that a use makes, if it makes one. -/
def reference? : Use → Option ScreenReference
  | action node a => a.reference?.map fun (target, kind) => ⟨node, target, kind⟩
  | link node target => some ⟨node, target, .link⟩
  | tab node target => some ⟨node, target, .tab⟩

end Use

/-! ### The uses of an element -/

/-- The uses that a property value makes. -/
def PropValue.uses (node : String) : PropValue → List Use
  | screen id => [.link node id]
  | tabs items => items.map fun item => .tab node item.screen
  | value => value.heldActions.map (.action node)

namespace Element

/-- The uses of an element's properties. -/
def propUses (e : Element) : List Use :=
  e.props.flatMap fun (_, value) => value.uses e.id

/-- The uses of an element's modifiers. -/
def modifierUses (e : Element) : List Use :=
  (e.modifiers.filterMap Modifier.action?).map (.action e.id)

/-- The uses of an element: those of its properties, then those of its modifiers. -/
def uses (e : Element) : List Use :=
  e.propUses ++ e.modifierUses

end Element

theorem PropValue.references_eq_uses (node : String) (value : PropValue) :
    value.references.map (fun (target, kind) => (⟨node, target, kind⟩ : ScreenReference)) =
      (value.uses node).filterMap Use.reference? := by
  have hactions : ∀ actions : List Action,
      (actions.filterMap Action.reference?).map
          (fun (target, kind) => (⟨node, target, kind⟩ : ScreenReference)) =
        (actions.map (Use.action node)).filterMap Use.reference? := by
    intro actions
    rw [List.map_filterMap, List.filterMap_map]
    rfl
  cases value with
  | screen id => rfl
  | tabs items =>
      simp only [references, uses, List.map_map, List.filterMap_map]
      exact (congrFun List.filterMap_eq_map items).symm
  | _ => exact hactions _

/-- The references of an element are those that its uses make. -/
theorem Element.references_eq_uses (e : Element) :
    e.references = e.uses.filterMap Use.reference? := by
  rw [references, uses, List.map_append, List.filterMap_append, propUses, modifierUses,
    List.map_flatMap, List.filterMap_flatMap]
  congr 1
  · exact congrArg (List.flatMap · e.props) (funext fun _ => PropValue.references_eq_uses _ _)
  · rw [List.map_filterMap, List.filterMap_map]
    rfl

/-! ### Recording uses -/

namespace Setting

/-- The ledger after a way to another screen. -/
def recordEdge (s : Setting) (ledger : Ledger) (node target : String) (kind : Swift.EdgeKind) :
    Ledger :=
  { ledger with edges := ledger.edges ++ [⟨s.screenId, target, node, kind⟩] }

/-- The ledger after an action. -/
def recordAction (s : Setting) (ledger : Ledger) (node : String) : Action → Ledger
  | .navigate target => { s.recordEdge ledger node target .push with usesRouter := true }
  | .presentSheet target =>
    { s.recordEdge ledger node target .sheet with
      sheets :=
        match s.screens.lookup target with
        | some names => Entries.putNew names.presentationFlag names.viewType ledger.sheets
        | none => ledger.sheets }
  | .dismiss => { ledger with usesDismiss := true }
  | .custom name args =>
    match Action.handlerParams args with
    | .ok params => { ledger with handlers := Entries.putNew name params ledger.handlers }
    | .error _ => ledger

/-- The ledger after a use. -/
def record (s : Setting) (ledger : Ledger) : Use → Ledger
  | .action node a => s.recordAction ledger node a
  | .link node target => s.recordEdge ledger node target .push
  | .tab node target => s.recordEdge ledger node target .tab

/-- An action that can be lowered wherever it is met; `φ` tells the parameters of the
handlers. -/
def FineAction (s : Setting) (φ : String → HandlerParams) : Action → Prop
  | .navigate target => (s.screens.lookup target).isSome
  | .presentSheet target => (s.screens.lookup target).isSome
  | .dismiss => True
  | .custom name args =>
    Names.isUsable name = true ∧ Action.handlerParams args = .ok (φ name) ∧
      name ∉ Scope.reservedNames ∧ s.scope.isMember name = false ∧
      Text.startsWith "isPresenting" name = false

/-- A use that can be lowered wherever it is met. -/
def Fine (s : Setting) (φ : String → HandlerParams) : Use → Prop
  | .action _ a => s.FineAction φ a
  | .link _ target => (s.screens.lookup target).isSome
  | .tab _ target => (s.screens.lookup target).isSome

end Setting

/-- A ledger that keeps to the parameters of the handlers, and whose sheets are shown by
presentation flags. -/
structure Ledger.Fits (φ : String → HandlerParams) (ledger : Ledger) : Prop where
  handlers : ∀ name params, ledger.handlers.lookup name = some params → params = φ name
  sheets : ∀ flag ∈ ledger.sheets.names, Text.startsWith "isPresenting" flag = true

theorem Ledger.fits_empty (φ : String → HandlerParams) : Ledger.empty.Fits φ :=
  ⟨by simp [Ledger.empty], by simp [Ledger.empty, Entries.names]⟩

theorem ScreenNames.startsWith_presentationFlag (names : ScreenNames) :
    Text.startsWith "isPresenting" names.presentationFlag = true := by
  simp [Text.startsWith, presentationFlag]

namespace Setting

variable {s : Setting} {φ : String → HandlerParams} {ledger : Ledger}

/-- Recording fine uses keeps a ledger that fits. -/
theorem fits_record (use : Use) (hfine : s.Fine φ use) (h : ledger.Fits φ) :
    (s.record ledger use).Fits φ := by
  cases use with
  | link node target => exact ⟨h.handlers, h.sheets⟩
  | tab node target => exact ⟨h.handlers, h.sheets⟩
  | action node a =>
      cases a with
      | navigate target => exact ⟨h.handlers, h.sheets⟩
      | dismiss => exact ⟨h.handlers, h.sheets⟩
      | presentSheet target =>
          refine ⟨h.handlers, ?_⟩
          obtain ⟨names, hnames⟩ := Option.isSome_iff_exists.mp hfine
          intro flag hflag
          simp only [record, recordAction, hnames] at hflag
          rcases Entries.mem_names_putNew.mp hflag with hflag | rfl
          · exact h.sheets flag hflag
          · exact names.startsWith_presentationFlag
      | custom name args =>
          obtain ⟨-, hparams, -⟩ := hfine
          simp only [record, recordAction, hparams]
          refine ⟨?_, h.sheets⟩
          intro other params hlookup
          rw [Entries.lookup_putNew] at hlookup
          cases hold : ledger.handlers.lookup other with
          | some first =>
              rw [hold] at hlookup
              cases hlookup
              exact h.handlers other params hold
          | none =>
              rw [hold] at hlookup
              by_cases hne : other = name
              · simp only [hne, Option.orElse_none, if_true, Option.some.injEq] at hlookup
                rw [← hlookup, hne]
              · simp [hne] at hlookup

end Setting

/-! ### Lowerings and their uses -/

/-- The lowering comes through from every ledger that fits, and it records the uses, in
some order. -/
def Lowers (s : Setting) (φ : String → HandlerParams) {α : Type} (m : Build α)
    (uses : List Use) : Prop :=
  ∀ ledger, ledger.Fits φ → ∃ (a : α) (order : List Use), order.Perm uses ∧
    m.run ledger = .ok (a, order.foldl s.record ledger) ∧
    (order.foldl s.record ledger).Fits φ

namespace Lowers

variable {s : Setting} {φ : String → HandlerParams} {α β : Type} {m : Build α}
  {uses more : List Use}

theorem perm (h : Lowers s φ m uses) (hperm : uses.Perm more) : Lowers s φ m more := by
  intro ledger hfits
  obtain ⟨a, order, horder, hrun, hafter⟩ := h ledger hfits
  exact ⟨a, order, horder.trans hperm, hrun, hafter⟩

/-- A lowering that writes nothing down. -/
theorem of_quiet (h : ∀ ledger, ∃ a, m.run ledger = .ok (a, ledger)) : Lowers s φ m [] := by
  intro ledger hfits
  obtain ⟨a, hrun⟩ := h ledger
  exact ⟨a, [], .nil, hrun, hfits⟩

theorem ret (a : α) : Lowers s φ (pure a) [] :=
  of_quiet fun _ => ⟨a, rfl⟩

/-- A step that only reads. -/
theorem lift {x : Except BuildError α} (h : ∃ a, x = .ok a) :
    Lowers s φ (liftM x : Build α) [] := by
  obtain ⟨a, rfl⟩ := h
  exact of_quiet fun _ => ⟨a, rfl⟩

theorem bind {f : α → Build β} (hm : Lowers s φ m uses) (hf : ∀ a, Lowers s φ (f a) more) :
    Lowers s φ (m >>= f) (uses ++ more) := by
  intro ledger hfits
  obtain ⟨a, first, hfirst, hrun, hafter⟩ := hm ledger hfits
  obtain ⟨b, second, hsecond, hrun', hafter'⟩ := hf a _ hafter
  refine ⟨b, first ++ second, hfirst.append hsecond, ?_, ?_⟩
  · rw [StateT.run_bind, hrun, ok_bind, List.foldl_append]
    exact hrun'
  · rw [List.foldl_append]
    exact hafter'

/-- `bind` behind a step that only reads. -/
theorem bind_quiet {f : α → Build β} (hm : Lowers s φ m [])
    (hf : ∀ a, Lowers s φ (f a) uses) : Lowers s φ (m >>= f) uses :=
  hm.bind hf

/-- `bind` before a step that only reads. -/
theorem bind_of_quiet {f : α → Build β} (hm : Lowers s φ m uses)
    (hf : ∀ a, Lowers s φ (f a) []) : Lowers s φ (m >>= f) uses := by
  have h := hm.bind hf
  rwa [List.append_nil] at h

theorem bind_ret {f : α → β} (hm : Lowers s φ m uses) :
    Lowers s φ (m >>= fun a => pure (f a)) uses :=
  hm.bind_of_quiet fun a => ret (f a)

theorem mapM {f : α → Build β} {g : α → List Use} {xs : List α}
    (h : ∀ x ∈ xs, Lowers s φ (f x) (g x)) : Lowers s φ (xs.mapM f) (xs.flatMap g) := by
  induction xs with
  | nil =>
      rw [List.mapM_nil]
      exact ret []
  | cons x xs ih =>
      rw [List.mapM_cons, List.flatMap_cons]
      refine (h x List.mem_cons_self).bind fun b => ?_
      exact bind_ret (ih fun y hy => h y (List.mem_cons_of_mem _ hy))

end Lowers

namespace Setting

variable {s : Setting} {φ : String → HandlerParams}

/-! ### Actions -/

theorem target_eq_ok {node target : String} (h : (s.screens.lookup target).isSome) :
    ∃ names, s.target node target = .ok names := by
  obtain ⟨names, hnames⟩ := Option.isSome_iff_exists.mp h
  exact ⟨names, by rw [Setting.target, hnames]⟩

/-- A way to another screen is a use of its own. -/
theorem lowers_addEdge {node target : String} {kind : Swift.EdgeKind} {use : Use}
    (hfine : s.Fine φ use)
    (h : ∀ ledger, s.record ledger use = s.recordEdge ledger node target kind) :
    Lowers s φ (s.addEdge node target kind) [use] := by
  intro ledger hfits
  refine ⟨(), [use], .refl _, ?_, ?_⟩
  · rw [List.foldl_cons, List.foldl_nil, h]
    rfl
  · exact fits_record use hfine hfits

theorem isTaken_eq_false {ledger : Ledger} {name : String} (hfits : ledger.Fits φ)
    (hreserved : name ∉ Scope.reservedNames) (hmember : s.scope.isMember name = false)
    (hflag : Text.startsWith "isPresenting" name = false) : s.isTaken ledger name = false := by
  have hsheets : ledger.sheets.has name = false := by
    rw [Bool.eq_false_iff]
    intro hhas
    have hstarts := hfits.sheets name ((Entries.has_iff_mem_names _ _).mp hhas)
    rw [hflag] at hstarts
    cases hstarts
  rw [isTaken, hmember, hsheets, Bool.or_false, Bool.or_false]
  simpa using hreserved

/-- A handler that agrees with its earlier uses is added. -/
theorem run_addHandler {ledger : Ledger} {node name : String} (hfits : ledger.Fits φ) :
    (addHandler node name (φ name)).run ledger =
      Except.ok ((), { ledger with
        handlers := Entries.putNew name (φ name) ledger.handlers }) := by
  rw [addHandler, StateT.run_bind, StateT.run_get, pure_eq_ok, ok_bind]
  cases h : ledger.handlers.lookup name with
  | none =>
      rw [Entries.putNew_of_none h]
      rfl
  | some first =>
      rw [Entries.putNew_of_some h]
      simp [hfits.handlers name first h, pure_eq_ok]

/-- **A fine action is lowered, and it is its own use.** -/
theorem lowers_action {node : String} {a : Action} (hfine : s.FineAction φ a) :
    Lowers s φ (s.action node a) [.action node a] := by
  intro ledger hfits
  have hafter := fits_record (.action node a) hfine hfits
  cases a with
  | navigate target =>
      obtain ⟨names, hnames⟩ := Option.isSome_iff_exists.mp hfine
      refine ⟨[.navigate names.routeCase], [_], .refl _, ?_, hafter⟩
      simp [action, Setting.target, hnames]
      rfl
  | presentSheet target =>
      obtain ⟨names, hnames⟩ := Option.isSome_iff_exists.mp hfine
      refine ⟨[.present names.presentationFlag], [_], .refl _, ?_, hafter⟩
      simp [action, Setting.target, hnames, record, recordAction]
      rfl
  | dismiss => exact ⟨[.dismiss], [_], .refl _, rfl, hafter⟩
  | custom name args =>
      obtain ⟨husable, hparams, hreserved, hmember, hflag⟩ := hfine
      refine ⟨[.invoke name (args.filterMap handlerArg)], [_], .refl _, ?_, hafter⟩
      have htaken := isTaken_eq_false hfits hreserved hmember hflag
      simp [action, customAction, husable, htaken, hparams, run_addHandler hfits, record,
        recordAction]

end Setting

end Screenwright
