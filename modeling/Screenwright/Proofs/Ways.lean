/-
The ways out of a view.

What a view does is a list of effects, and some of them lead to another view: statements that push
or present, the values of links, and the views that tabs and sheets make.  The ways that are
recorded with a view are the same, one by one: each such effect is written with the names of the
screen that its way leads to.
-/
import Screenwright.Proofs.Lowering.Emission
import Screenwright.Proofs.Naming
import Screenwright.Proofs.Navigation

namespace Screenwright

open Steps Swift

/-! ### The ways out of a view -/

/-- Whether an effect leads to another view. -/
def Swift.Effect.leads : Effect → Bool
  | run (.navigate _) | run (.present _) | link _ | view _ => true
  | run .dismiss | run (.invoke _ _) => false

/-- The effects of a view that lead to other views. -/
def Swift.View.ways (view : View) : List Effect :=
  view.effects.filter Effect.leads

/-- How the names of a screen are written where a view leads to it. -/
inductive ScreenNames.Leads (names : ScreenNames) : EdgeKind → Effect → Prop where
  | navigate : Leads names .push (.run (.navigate names.routeCase))
  | link : Leads names .push (.link (.ident ("Route." ++ names.routeCase)))
  | present : Leads names .sheet (.run (.present names.presentationFlag))
  | tab : Leads names .tab (.view names.viewType)

namespace Setting

variable {s : Setting}

/-- An effect leads elsewhere exactly if its use makes a reference, and then it leads to the
target of the reference. -/
theorem leads_of_does {use : Use} {effect : Effect} (h : s.Does use effect) :
    List.Forall₂ (fun effect edge => ∃ names, s.screens.lookup edge.target = some names ∧
        names.Leads edge.kind effect)
      ([effect].filter Effect.leads) (use.reference?.map s.edgeOf).toList := by
  cases h with
  | navigate h => exact .cons ⟨_, h, .navigate⟩ .nil
  | present h => exact .cons ⟨_, h, .present⟩ .nil
  | dismiss => exact .nil
  | invoke => exact .nil
  | link h => exact .cons ⟨_, h, .link⟩ .nil
  | tab h => exact .cons ⟨_, h, .tab⟩ .nil

/-- **One by one, the effects that lead elsewhere lead where the recorded ways say.** -/
theorem leads_of_forall₂_does {order : List Use} {effects : List Effect}
    (h : List.Forall₂ s.Does order effects) :
    List.Forall₂ (fun effect edge => ∃ names, s.screens.lookup edge.target = some names ∧
        names.Leads edge.kind effect)
      (effects.filter Effect.leads)
      (order.filterMap fun use => use.reference?.map s.edgeOf) := by
  induction h with
  | nil => exact .nil
  | @cons use effect order effects hdoes _ ih =>
      have hsplit : (effect :: effects).filter Effect.leads =
          [effect].filter Effect.leads ++ effects.filter Effect.leads :=
        List.filter_append [effect] effects
      have hedges : (use :: order).filterMap (fun use => use.reference?.map s.edgeOf) =
          (use.reference?.map s.edgeOf).toList ++
            order.filterMap fun use => use.reference?.map s.edgeOf := by
        rw [List.filterMap_cons]
        cases use.reference?.map s.edgeOf <;> rfl
      rw [hsplit, hedges]
      exact List.rel_append (leads_of_does hdoes) ih

/-- A finished view has the effects of its tree, and makes the views of its sheets. -/
theorem effects_of_finish {screen : Screen} {body : View} {ledger : Ledger} {view : ScreenView}
    (h : s.finish screen body ledger = .ok view) :
    view.body.effects = body.effects ++ ledger.sheets.map fun sheet => .view sheet.2 := by
  obtain ⟨_, -, h⟩ := bind_eq_ok.mp h
  cases h
  have htitle : modifierEffects (titleModifier screen) = [] := by
    unfold titleModifier
    split
    · rfl
    · rfl
  have hsheets : ∀ sheets : Entries String,
      modifierEffects (sheets.map fun sheet => sheetModifier sheet.1 sheet.2) =
        sheets.map fun sheet => .view sheet.2 := by
    intro sheets
    induction sheets with
    | nil => rfl
    | cons sheet sheets ih =>
        rw [List.map_cons, modifierEffects, ih]
        rfl
  rw [effects_modify, modifierEffects_append, htitle]
  exact congrArg _ (hsheets ledger.sheets)

end Setting

namespace AppDefinition

variable {app : AppDefinition} {catalog : Catalog} {screen : Screen} {tree : NormalTree}
  {view : ScreenView}

/-- The effect leads to the target of the recorded way, as its kind says. -/
def LeadsTo (app : AppDefinition) (effect : Effect) (edge : NavEdge) : Prop :=
  ∃ t ∈ app.screens, t.id = edge.target ∧ (ScreenNames.ofScreen t).Leads edge.kind effect

/-- The view leads where its recorded ways say and nowhere else: what its tree does leads to
their targets, one by one, and its sheets make the views of screens that it presents. -/
def LeadsAsRecorded (app : AppDefinition) (view : ScreenView) : Prop :=
  ∃ (ways : List Effect) (sheets : List String),
    view.body.ways = ways ++ sheets.map Effect.view ∧
    List.Forall₂ app.LeadsTo ways view.edges ∧
    ∀ type ∈ sheets, ∃ edge ∈ view.edges, edge.kind = .sheet ∧
      ∃ t ∈ app.screens, t.id = edge.target ∧ t.viewType = type

/-- **The view of a screen leads where its recorded ways say.** -/
theorem leads_of_buildScreen (h : buildScreen (app.contextIn catalog) screen tree = .ok view) :
    app.LeadsAsRecorded view := by
  obtain ⟨s, order, body, h⟩ := exists_emitted h
  have hscreens : s.screens = ScreenNames.index app.screens := h.screens
  have hexists : ∀ {target : String} {names : ScreenNames},
      s.screens.lookup target = some names →
      ∃ t ∈ app.screens, t.id = target ∧ ScreenNames.ofScreen t = names :=
    fun hnames => ScreenNames.exists_of_lookup_index (hscreens ▸ hnames)
  have hedges : view.edges = order.filterMap fun use => use.reference?.map s.edgeOf := by
    rw [Setting.edges_of_finish h.finish, Setting.edges_foldl_record]
    rfl
  refine ⟨body.effects.filter Effect.leads,
    (order.foldl s.record .empty).sheets.map Prod.snd, ?_, ?_, ?_⟩
  · rw [View.ways, Setting.effects_of_finish h.finish, List.filter_append, List.map_map]
    refine congrArg _ (List.filter_eq_self.mpr fun effect heffect => ?_)
    obtain ⟨sheet, -, rfl⟩ := List.mem_map.mp heffect
    rfl
  · rw [hedges]
    refine (Setting.leads_of_forall₂_does h.does).imp fun effect edge hleads => ?_
    obtain ⟨names, hnames, hleads⟩ := hleads
    obtain ⟨t, ht, hid, rfl⟩ := hexists hnames
    exact ⟨t, ht, hid, hleads⟩
  · intro type htype
    obtain ⟨sheet, hsheet, rfl⟩ := List.mem_map.mp htype
    rw [Setting.sheets_foldl_record] at hsheet
    rcases Entries.mem_foldl_putNew hsheet with hnil | ⟨names, hnames, rfl⟩
    · cases hnil
    obtain ⟨use, huse, hpresents⟩ := List.mem_filterMap.mp hnames
    obtain ⟨node, target, rfl, hlookup⟩ := Setting.exists_of_presented? hpresents
    obtain ⟨t, ht, hid, rfl⟩ := hexists hlookup
    refine ⟨⟨s.screenId, target, node, .sheet⟩, ?_, rfl, t, ht, hid, rfl⟩
    rw [hedges]
    exact List.mem_filterMap.mpr ⟨_, huse, rfl⟩

end AppDefinition

/-- Over the standard catalog the recorded ways are the references of the tree. -/
theorem Built.edges_perm {app : AppDefinition} {screen : Screen} {tree : NormalTree}
    {view : ScreenView} {s : Setting} {order : List Use} {body : View} {limits : Limits}
    (h : Built app screen tree view s order body)
    (hnormal : normalize screen.root Catalog.standard limits = .ok tree) :
    (view.edges.map fun e => (e.node, e.target, e.kind)).Perm
      (tree.references.map fun r => (r.node, r.target, r.kind.edgeKind)) := by
  have hedges : view.edges = (order.filterMap Use.reference?).map s.edgeOf := by
    rw [Setting.edges_of_finish h.finish, Setting.edges_foldl_record, List.map_filterMap]
    rfl
  rw [hedges, NormalTree.references_eq_uses hnormal, List.map_map]
  exact (h.perm.filterMap Use.reference?).map _
theorem viewType_of_buildScreen {cx : BuildContext} {screen : Screen} {tree : NormalTree}
    {view : ScreenView} (h : buildScreen cx screen tree = .ok view) :
    view.viewType = screen.viewType := by
  obtain ⟨_, -, h⟩ := bind_eq_ok.mp h
  obtain ⟨_, -, h⟩ := bind_eq_ok.mp h
  obtain ⟨_, -, h⟩ := bind_eq_ok.mp h
  cases h
  rfl

end Screenwright
