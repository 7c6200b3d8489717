/-
Which fault of a tree is reported.

Normalization runs over the nodes in pre-order and stops at the first fault.  A node is at fault
if it fails one of its own checks, which are tried in a fixed order, or if it passes them and an
earlier node has its identifier.  `Fails` and `AtFault` say this of a node and of the list of nodes
before it, with one rule for each check; nothing in them runs or remembers anything.

The run does remember: it carries a table of the identifiers that it has met, with the paths to
their nodes.  As long as no node is at fault, the table is the list of the nodes before, with
distinct identifiers, so looking an identifier up in it finds the one earlier node that has it.
-/
import Screenwright.Proofs.First
import Screenwright.Proofs.Limits
import Screenwright.Proofs.Normal

namespace Screenwright

open Steps

namespace Component

/-! ### What a node can fail -/

/-- A binding, after those before it, does not pass. -/
def BindingFails (info : ComponentMeta) (type : String) (before : List DataBinding)
    (b : DataBinding) : Prop :=
  checkBinding info type before b ≠ .ok ()

/-- The actions among properties, with the properties that they are in. -/
def propActions (props : Props) : List (String × Action) :=
  props.flatMap fun entry => entry.2.heldActions.map fun action => (entry.1, action)

/-- An action among properties does not pass. -/
def ActionFails (_ : List (String × Action)) (entry : String × Action) : Prop :=
  entry.2.check ≠ .ok ()

/-- A modifier does not pass, or components of the kind have none. -/
def ModifierFails (kind : ComponentKind) (_ : List Modifier) (modifier : Modifier) : Prop :=
  kind.acceptsModifiers = true → modifier.check ≠ .ok ()

variable {catalog : Catalog} {v : Visit Component} {schema : ComponentSchema} {props : Props}
  {fault : NodeFault}

/-- The type of a node is known, and its properties and the number of its children pass. -/
structure Shaped (catalog : Catalog) (v : Visit Component) (schema : ComponentSchema)
    (props : Props) : Prop where
  type : catalog.schema v.value.type = .ok schema
  props : schema.validate v.value.props = .ok props
  children : schema.info.children.accepts v.width = true

/-- What a node fails by itself: the first of its checks that does not pass. -/
inductive Fails (catalog : Catalog) (v : Visit Component) : NodeFault → Prop where
  | type {e : CatalogError} (h : catalog.schema v.value.type = .error e) :
      Fails catalog v (catalogFault e)
  | props {schema : ComponentSchema} {e : CatalogError}
      (htype : catalog.schema v.value.type = .ok schema)
      (h : schema.validate v.value.props = .error e) :
      Fails catalog v (catalogFault e)
  | children {schema : ComponentSchema} {props : Props}
      (htype : catalog.schema v.value.type = .ok schema)
      (hprops : schema.validate v.value.props = .ok props)
      (h : schema.info.children.accepts v.width = false) :
      Fails catalog v (.invalidChildren v.value.type schema.info.children v.width)
  | binding {schema : ComponentSchema} {props : Props} {before : List DataBinding}
      {b : DataBinding} {fault : BindingFault} (hshaped : Shaped catalog v schema props)
      (hfirst : FirstIn (BindingFails schema.info v.value.type) v.value.bindings before b)
      (h : checkBinding schema.info v.value.type before b = .error fault) :
      Fails catalog v (.invalidBinding b.property fault)
  | action {schema : ComponentSchema} {props : Props} {before : List (String × Action)}
      {field : String} {action : Action} {fault : ActionFault}
      (hshaped : Shaped catalog v schema props)
      (hbindings : ¬ AnyIn (BindingFails schema.info v.value.type) v.value.bindings)
      (hfirst : FirstIn ActionFails (propActions props) before (field, action))
      (h : action.check = .error fault) :
      Fails catalog v (.invalidProp v.value.type field (.unusableAction fault))
  | unmodifiable {schema : ComponentSchema} {props : Props} {before : List Modifier}
      {modifier : Modifier} (hshaped : Shaped catalog v schema props)
      (hbindings : ¬ AnyIn (BindingFails schema.info v.value.type) v.value.bindings)
      (hactions : ¬ AnyIn ActionFails (propActions props))
      (hfirst : FirstIn (ModifierFails schema.info.kind) v.value.modifiers before modifier)
      (h : schema.info.kind.acceptsModifiers = false) :
      Fails catalog v (.invalidModifier modifier.name (.notModifiable v.value.type))
  | modifier {schema : ComponentSchema} {props : Props} {before : List Modifier}
      {modifier : Modifier} {fault : ModifierFault} (hshaped : Shaped catalog v schema props)
      (hbindings : ¬ AnyIn (BindingFails schema.info v.value.type) v.value.bindings)
      (hactions : ¬ AnyIn ActionFails (propActions props))
      (hfirst : FirstIn (ModifierFails schema.info.kind) v.value.modifiers before modifier)
      (haccepts : schema.info.kind.acceptsModifiers = true)
      (h : modifier.check = .error fault) :
      Fails catalog v (.invalidModifier modifier.name fault)

/-- What is wrong with a node that comes after others: it fails by itself, or it does not, and one
of the others has its identifier. -/
inductive AtFault (catalog : Catalog) (before : List (Visit Component)) (v : Visit Component) :
    NodeFault → Prop where
  | alone {fault : NodeFault} (h : Fails catalog v fault) : AtFault catalog before v fault
  | duplicate {u : Visit Component} (halone : ∀ fault, ¬ Fails catalog v fault)
      (hu : u ∈ before) (hid : u.value.id = v.value.id) :
      AtFault catalog before v (.duplicateId (path u))

/-- Something is wrong with a node that comes after others. -/
def Faulty (catalog : Catalog) (before : List (Visit Component)) (v : Visit Component) : Prop :=
  ∃ fault, AtFault catalog before v fault

theorem faulty_iff {before : List (Visit Component)} : Faulty catalog before v ↔
    (∃ fault, Fails catalog v fault) ∨ ∃ u ∈ before, u.value.id = v.value.id := by
  constructor
  · rintro ⟨fault, h | ⟨-, hu, hid⟩⟩
    · exact Or.inl ⟨fault, h⟩
    · exact Or.inr ⟨_, hu, hid⟩
  · rintro (⟨fault, h⟩ | ⟨u, hu, hid⟩)
    · exact ⟨fault, .alone h⟩
    · by_cases halone : ∃ fault, Fails catalog v fault
      · obtain ⟨fault, h⟩ := halone
        exact ⟨fault, .alone h⟩
      · exact ⟨_, .duplicate (not_exists.mp halone) hu hid⟩

/-! ### Checks over lists -/

/-- The error of the bindings is that of the first one that fails. -/
theorem checkBindings_eq_error_iff {info : ComponentMeta} {type : String}
    {bindings : List DataBinding} :
    checkBindings info type [] bindings = .error fault ↔
      ∃ before b, FirstIn (BindingFails info type) bindings before b ∧
        ∃ φ, checkBinding info type before b = .error φ ∧ fault = .invalidBinding b.property φ := by
  have hfails : BindingFails info type = fun before b => ∃ fault : NodeFault, ∃ φ,
      checkBinding info type before b = .error φ ∧ fault = .invalidBinding b.property φ := by
    funext before b
    simp only [BindingFails, ne_ok_iff]
    rw [exists_comm]
    simp
  rw [hfails]
  -- What the run knows of the bindings before is the list of them.
  refine errs_iff_firstIn
    (fun earlier rest fault => checkBindings info type earlier rest = .error fault) Eq
    (fun before b fault => ∃ φ, checkBinding info type before b = .error φ ∧
      fault = .invalidBinding b.property φ)
    (fun _ _ h => ?_) (fun earlier _ b rest hsame => ?_) [] [] rfl
  · cases h
  · subst hsame
    simp only [checkBindings]
    cases hb : checkBinding info type earlier b with
    | error φ => exact Or.inl ⟨⟨_, φ, rfl, rfl⟩, fun fault => by simp [eq_comm]⟩
    | ok => exact Or.inr ⟨by simp, _, rfl, fun _ => Iff.rfl⟩

theorem checkBindings_eq_ok_iff {info : ComponentMeta} {type : String}
    {bindings : List DataBinding} :
    checkBindings info type [] bindings = .ok () ↔ ¬ AnyIn (BindingFails info type) bindings := by
  rw [← not_iff_not, not_not, ← Ne, ne_ok_iff, ← exists_firstIn_iff]
  simp only [checkBindings_eq_error_iff]
  constructor
  · rintro ⟨_, before, b, hfirst, -⟩
    exact ⟨before, b, hfirst⟩
  · rintro ⟨before, b, hfirst⟩
    obtain ⟨φ, hφ⟩ := ne_ok_iff.mp hfirst.meets
    exact ⟨_, before, b, hfirst, φ, hφ, rfl⟩

/-- One step of the check of actions. -/
def actionStep (type : String) (entry : String × Action) : Except NodeFault Unit :=
  match entry.2.check with
  | .ok () => .ok ()
  | .error fault => .error (.invalidProp type entry.1 (.unusableAction fault))

theorem actionStep_eq_error_iff {type : String} {entry : String × Action} :
    actionStep type entry = .error fault ↔ ∃ φ, entry.2.check = .error φ ∧
      fault = .invalidProp type entry.1 (.unusableAction φ) := by
  unfold actionStep
  cases entry.2.check with
  | ok => simp
  | error φ => simp [eq_comm]

theorem actionStep_ne_ok_iff {type : String} {entry : String × Action} :
    actionStep type entry ≠ .ok () ↔ entry.2.check ≠ .ok () := by
  simp only [ne_ok_iff, actionStep_eq_error_iff]
  constructor
  · rintro ⟨_, φ, hφ, -⟩
    exact ⟨φ, hφ⟩
  · rintro ⟨φ, hφ⟩
    exact ⟨_, φ, hφ, rfl⟩

theorem checkActions_eq_forM (type : String) (props : Props) :
    checkActions type props = (propActions props).forM (actionStep type) := by
  rw [propActions, forM_flatMap, checkActions]
  refine congrArg (List.forM props) (funext fun entry => ?_)
  have hpairs : (entry.2.heldActions.map fun action => (entry.1, action)).forM (actionStep type) =
      entry.2.heldActions.forM fun action => actionStep type (entry.1, action) := List.forM_map
  exact hpairs.symm

/-- The error of the actions is that of the first one that fails. -/
theorem checkActions_eq_error_iff {type : String} :
    checkActions type props = .error fault ↔
      ∃ before field action φ, FirstIn ActionFails (propActions props) before (field, action) ∧
        action.check = .error φ ∧ fault = .invalidProp type field (.unusableAction φ) := by
  rw [checkActions_eq_forM, forM_eq_error_iff]
  simp only [actionStep_ne_ok_iff, actionStep_eq_error_iff, Prod.exists, exists_and_left]
  rfl

theorem checkActions_eq_ok_iff (type : String) :
    checkActions type props = .ok () ↔ ¬ AnyIn ActionFails (propActions props) := by
  rw [checkActions_eq_forM, forM_eq_ok_iff]
  simp only [actionStep_ne_ok_iff]
  rfl

/-- One step of the check of modifiers. -/
def modifierStep (type : String) (kind : ComponentKind) (modifier : Modifier) :
    Except NodeFault Unit :=
  if !kind.acceptsModifiers then .error (.invalidModifier modifier.name (.notModifiable type))
  else
    match modifier.check with
    | .ok () => .ok ()
    | .error fault => .error (.invalidModifier modifier.name fault)

theorem modifierStep_eq_error_iff {type : String} {kind : ComponentKind} {modifier : Modifier} :
    modifierStep type kind modifier = .error fault ↔
      (kind.acceptsModifiers = false ∧
          fault = .invalidModifier modifier.name (.notModifiable type)) ∨
        kind.acceptsModifiers = true ∧ ∃ φ, modifier.check = .error φ ∧
          fault = .invalidModifier modifier.name φ := by
  unfold modifierStep
  cases kind.acceptsModifiers with
  | false => simp [eq_comm]
  | true =>
      cases modifier.check with
      | ok => simp
      | error φ => simp [eq_comm]

theorem modifierStep_ne_ok_iff {type : String} {kind : ComponentKind} {modifier : Modifier} :
    modifierStep type kind modifier ≠ .ok () ↔
      (kind.acceptsModifiers = true → modifier.check ≠ .ok ()) := by
  simp only [ne_ok_iff, modifierStep_eq_error_iff]
  cases kind.acceptsModifiers with
  | false => simp
  | true =>
      constructor
      · rintro ⟨_, ⟨⟨⟩, -⟩ | ⟨-, φ, hφ, -⟩⟩ -
        exact ⟨φ, hφ⟩
      · intro h
        obtain ⟨φ, hφ⟩ := h rfl
        exact ⟨_, Or.inr ⟨rfl, φ, hφ, rfl⟩⟩

/-- The error of the modifiers is that of the first one that fails. -/
theorem checkModifiers_eq_error_iff {type : String} {kind : ComponentKind}
    {modifiers : List Modifier} :
    checkModifiers type kind modifiers = .error fault ↔
      ∃ before modifier, FirstIn (ModifierFails kind) modifiers before modifier ∧
        ((kind.acceptsModifiers = false ∧
            fault = .invalidModifier modifier.name (.notModifiable type)) ∨
          kind.acceptsModifiers = true ∧ ∃ φ, modifier.check = .error φ ∧
            fault = .invalidModifier modifier.name φ) := by
  have hrun : checkModifiers type kind modifiers = modifiers.forM (modifierStep type kind) := rfl
  rw [hrun, forM_eq_error_iff]
  simp only [modifierStep_ne_ok_iff, modifierStep_eq_error_iff]
  rfl

/-! ### One node -/

theorem checkAlone_of_type {e : CatalogError} (h : catalog.schema v.value.type = .error e) :
    checkAlone catalog v = .error (catalogFault e) := by
  simp only [checkAlone, h, Except.mapError, error_bind]

theorem checkAlone_of_props {e : CatalogError} (htype : catalog.schema v.value.type = .ok schema)
    (h : schema.validate v.value.props = .error e) :
    checkAlone catalog v = .error (catalogFault e) := by
  simp only [checkAlone, htype, h, Except.mapError, ok_bind, error_bind]

theorem checkAlone_of_children (htype : catalog.schema v.value.type = .ok schema)
    (hprops : schema.validate v.value.props = .ok props)
    (h : schema.info.children.accepts v.width = false) :
    checkAlone catalog v =
      .error (.invalidChildren v.value.type schema.info.children v.width) := by
  simp only [checkAlone, htype, hprops, h, Except.mapError, ok_bind, Bool.false_eq_true, if_false]
  rfl

/-- Of a node with a known type and the right shape the lists are checked, one after the other. -/
theorem checkAlone_of_shaped (h : Shaped catalog v schema props) :
    checkAlone catalog v =
      (checkBindings schema.info v.value.type [] v.value.bindings >>= fun _ =>
        checkActions v.value.type props >>= fun _ =>
          checkModifiers v.value.type schema.info.kind v.value.modifiers >>= fun _ =>
            .ok ⟨v.value.id, v.value.type, schema.info.kind, props, v.value.bindings,
              v.value.modifiers, v.depth⟩) := by
  simp only [checkAlone, h.type, h.props, h.children, Except.mapError, ok_bind, if_true]
  rfl

/-- The error of a node with a known type and the right shape is that of the first list in which
something fails. -/
theorem checkAlone_eq_error_of_shaped (h : Shaped catalog v schema props) :
    checkAlone catalog v = .error fault ↔
      checkBindings schema.info v.value.type [] v.value.bindings = .error fault ∨
        ¬ AnyIn (BindingFails schema.info v.value.type) v.value.bindings ∧
          (checkActions v.value.type props = .error fault ∨
            ¬ AnyIn ActionFails (propActions props) ∧
              checkModifiers v.value.type schema.info.kind v.value.modifiers = .error fault) := by
  rw [checkAlone_of_shaped h, ← checkBindings_eq_ok_iff, ← checkActions_eq_ok_iff v.value.type]
  simp only [unit_bind_eq_error, reduceCtorEq, and_false, or_false]

/-- **A node has the error of the first of its checks that it fails.** -/
theorem checkAlone_eq_error_iff : checkAlone catalog v = .error fault ↔ Fails catalog v fault := by
  constructor
  · intro h
    cases htype : catalog.schema v.value.type with
    | error e =>
        rw [checkAlone_of_type htype] at h
        cases h
        exact .type htype
    | ok schema =>
        cases hprops : schema.validate v.value.props with
        | error e =>
            rw [checkAlone_of_props htype hprops] at h
            cases h
            exact .props htype hprops
        | ok props =>
            cases hwidth : schema.info.children.accepts v.width with
            | false =>
                rw [checkAlone_of_children htype hprops hwidth] at h
                cases h
                exact .children htype hprops hwidth
            | true =>
                have hshaped : Shaped catalog v schema props := ⟨htype, hprops, hwidth⟩
                rcases (checkAlone_eq_error_of_shaped hshaped).mp h with
                  h | ⟨hbindings, h | ⟨hactions, h⟩⟩
                · obtain ⟨before, b, hfirst, φ, hφ, rfl⟩ := checkBindings_eq_error_iff.mp h
                  exact .binding hshaped hfirst hφ
                · obtain ⟨before, field, action, φ, hfirst, hφ, rfl⟩ :=
                    checkActions_eq_error_iff.mp h
                  exact .action hshaped hbindings hfirst hφ
                · obtain ⟨before, modifier, hfirst, ⟨haccepts, rfl⟩ | ⟨haccepts, φ, hφ, rfl⟩⟩ :=
                    checkModifiers_eq_error_iff.mp h
                  · exact .unmodifiable hshaped hbindings hactions hfirst haccepts
                  · exact .modifier hshaped hbindings hactions hfirst haccepts hφ
  · intro h
    cases h with
    | type h => exact checkAlone_of_type h
    | props htype h => exact checkAlone_of_props htype h
    | children htype hprops h => exact checkAlone_of_children htype hprops h
    | binding hshaped hfirst h =>
        refine (checkAlone_eq_error_of_shaped hshaped).mpr (Or.inl ?_)
        exact checkBindings_eq_error_iff.mpr ⟨_, _, hfirst, _, h, rfl⟩
    | action hshaped hbindings hfirst h =>
        refine (checkAlone_eq_error_of_shaped hshaped).mpr (Or.inr ⟨hbindings, Or.inl ?_⟩)
        exact checkActions_eq_error_iff.mpr ⟨_, _, _, _, hfirst, h, rfl⟩
    | unmodifiable hshaped hbindings hactions hfirst h =>
        refine (checkAlone_eq_error_of_shaped hshaped).mpr
          (Or.inr ⟨hbindings, Or.inr ⟨hactions, ?_⟩⟩)
        exact checkModifiers_eq_error_iff.mpr ⟨_, _, hfirst, Or.inl ⟨h, rfl⟩⟩
    | modifier hshaped hbindings hactions hfirst haccepts h =>
        refine (checkAlone_eq_error_of_shaped hshaped).mpr
          (Or.inr ⟨hbindings, Or.inr ⟨hactions, ?_⟩⟩)
        exact checkModifiers_eq_error_iff.mpr ⟨_, _, hfirst, Or.inr ⟨haccepts, _, h, rfl⟩⟩

/-! ### What has been met -/

/-- The table has the path of each of the nodes under its identifier, and nothing else. -/
def Recalls (before : List (Visit Component)) (seen : Seen) : Prop :=
  ∀ id first, seen.lookup id = some first ↔ ∃ u ∈ before, u.value.id = id ∧ path u = first

theorem recalls_nil : Recalls [] [] := by
  intro id first
  simp

variable {before : List (Visit Component)} {seen seen' : Seen} {element : Element}

/-- Behind a node with a new identifier, the table has its path too. -/
theorem Recalls.snoc (h : Recalls before seen) (hnew : seen.lookup v.value.id = none) :
    Recalls (before ++ [v]) ((v.value.id, path v) :: seen) := by
  intro id first
  simp only [List.mem_append, List.mem_singleton, or_and_right, exists_or, exists_eq_left]
  rw [← h, List.lookup_cons]
  by_cases hid : id = v.value.id
  · subst hid
    simp [hnew]
  · have hne : (id == v.value.id) = false := by simpa using hid
    simp [hne, Ne.symm hid]

/-- A node is refused for what is wrong with it, at its own path. -/
theorem check_eq_error_iff {e : NormalizeError} (h : Recalls before seen) :
    (check catalog v).run seen = .error e ↔
      ∃ fault, AtFault catalog before v fault ∧ e = ⟨path v, fault⟩ := by
  cases halone : checkAlone catalog v with
  | error fault =>
      have hfails := checkAlone_eq_error_iff.mp halone
      rw [run_check_of_error halone]
      constructor
      · rintro ⟨⟩
        exact ⟨fault, .alone hfails, rfl⟩
      · rintro ⟨_, hother | ⟨hnone, -⟩, rfl⟩
        · rw [← checkAlone_eq_error_iff, halone] at hother
          cases hother
          rfl
        · exact absurd hfails (hnone fault)
  | ok element =>
      have hnone : ∀ fault, ¬ Fails catalog v fault := by
        intro fault hfails
        rw [← checkAlone_eq_error_iff, halone] at hfails
        cases hfails
      rw [run_check halone]
      constructor
      · intro hrun
        split at hrun
        next first hfirst =>
          cases hrun
          obtain ⟨u, hu, hid, rfl⟩ := (h _ _).mp hfirst
          exact ⟨_, .duplicate hnone hu hid, rfl⟩
        · cases hrun
      · rintro ⟨_, hfails | ⟨-, hu, hid⟩, rfl⟩
        · exact absurd hfails (hnone _)
        · rw [(h _ _).mpr ⟨_, hu, hid, rfl⟩]

theorem Recalls.check (h : Recalls before seen)
    (hrun : (check catalog v).run seen = .ok (element, seen')) :
    Recalls (before ++ [v]) seen' := by
  rw [run_check (checkAlone_of_check hrun)] at hrun
  split at hrun
  · cases hrun
  next hnew =>
    cases hrun
    exact h.snoc hnew

/-- Over nodes in their order, the error is that of the first one at fault. -/
theorem mapM_check_eq_error_iff {visits : List (Visit Component)} {e : NormalizeError} :
    (visits.mapM (check catalog)).run [] = .error e ↔
      ∃ before v fault, FirstIn (Faulty catalog) visits before v ∧
        AtFault catalog before v fault ∧ e = ⟨path v, fault⟩ := by
  rw [run_mapM_eq_error_iff Recalls (fun _ _ _ _ => check_eq_error_iff)
    (fun _ _ _ _ _ => Recalls.check) [] [] recalls_nil]
  have hfaulty : (fun before v => ∃ e, ∃ fault, AtFault catalog ([] ++ before) v fault ∧
      e = (⟨path v, fault⟩ : NormalizeError)) = Faulty catalog := by
    funext before v
    simp [Faulty]
  rw [hfaulty]
  simp only [List.nil_append, exists_and_left]

end Component

/-! ### The whole tree -/

open Component (AtFault Fails Faulty)

/-- Within the limits, the error of a tree is that of a run over its nodes in pre-order. -/
theorem normalize_eq_error_iff {root : ComponentTree} {catalog : Catalog} {limits : Limits}
    {e : NormalizeError} (hlimits : limits.check root = .ok ()) :
    normalize root catalog limits = .error e ↔
      (root.visits.mapM (Component.check catalog)).run [] = .error e := by
  rw [normalize, hlimits, ok_bind, Tree.visits, ← Tree.preorder_traverseBelow, StateT.run_map,
    Tree.traverse]
  cases (Tree.traverseBelow (Component.check catalog) [] root).run [] with
  | error e' =>
      constructor
      · rintro ⟨⟩
        rfl
      · rintro ⟨⟩
        rfl
  | ok result =>
      constructor
      · rintro ⟨⟩
      · rintro ⟨⟩

/-- **The first node at fault is reported.**  A tree within the limits is refused exactly if some
node fails by itself or has the identifier of a node before it, in pre-order.  The error is what is
wrong with the first such node, and it has the path from the root to that node.  The nodes before
that one have distinct identifiers, so at most one of them has its own. -/
theorem normalize_reports_first_fault (root : ComponentTree) (catalog : Catalog) (limits : Limits)
    (hlimits : limits.check root = .ok ()) :
    ((∃ e, normalize root catalog limits = .error e) ↔
        AnyIn (fun before v => (∃ fault, Fails catalog v fault) ∨
          ∃ u ∈ before, u.value.id = v.value.id) root.visits) ∧
      ∀ e, normalize root catalog limits = .error e ↔
        ∃ before v, FirstIn (Faulty catalog) root.visits before v ∧
          AtFault catalog before v e.fault ∧ e.path = v.line.map Component.id ∧
            e.node? = some v.value.id ∧ (before.map fun u => u.value.id).Nodup := by
  have hrun : ∀ e, normalize root catalog limits = .error e ↔ _ :=
    fun e => (normalize_eq_error_iff hlimits).trans Component.mapM_check_eq_error_iff
  constructor
  · have hfaulty : (fun (before : List (Visit Component)) v => (∃ fault, Fails catalog v fault) ∨
        ∃ u ∈ before, u.value.id = v.value.id) = Faulty catalog := by
      funext before v
      exact propext Component.faulty_iff.symm
    rw [hfaulty, ← exists_firstIn_iff]
    constructor
    · rintro ⟨e, he⟩
      obtain ⟨before, v, -, hfirst, -⟩ := (hrun e).mp he
      exact ⟨before, v, hfirst⟩
    · rintro ⟨before, v, hfirst⟩
      obtain ⟨fault, hfault⟩ := hfirst.meets
      exact ⟨_, (hrun _).mpr ⟨before, v, fault, hfirst, hfault, rfl⟩⟩
  · intro e
    rw [hrun]
    constructor
    · rintro ⟨before, v, fault, hfirst, hfault, rfl⟩
      refine ⟨before, v, hfirst, hfault, rfl, ?_, ?_⟩
      · simp [NormalizeError.node?, Component.path, Visit.line]
      · exact nodup_map_of_not_anyIn (fun _ _ hu => Component.faulty_iff.mpr (Or.inr hu))
          hfirst.none
    · rintro ⟨before, v, hfirst, hfault, hpath, -⟩
      exact ⟨before, v, e.fault, hfirst, hfault, by rw [← Component.path] at hpath; rw [← hpath]⟩

/-- A tree with a node of an unknown type behind one whose identifier is there twice. -/
def ComponentTree.doubled : ComponentTree :=
  .node ⟨"root", "VStack", [], [], []⟩ [
    .node ⟨"title", "Text", [("content", .string "Hello")], [], []⟩ [],
    .node ⟨"row", "HStack", [], [], []⟩ [
      .node ⟨"title", "Text", [("content", .string "Hello")], [], []⟩ []],
    .node ⟨"hero", "Carousel", [], [], []⟩ []]

theorem first_fault_of_doubled :
    Limits.standard.check ComponentTree.doubled = .ok () ∧
      ∃ before v, FirstIn (Faulty Catalog.standard) ComponentTree.doubled.visits before v ∧
        AtFault Catalog.standard before v (.duplicateId ["root", "title"]) ∧
          ["root", "row", "title"] = v.line.map Component.id := by
  have hlimits : Limits.standard.check ComponentTree.doubled = .ok () :=
    Limits.check_eq_ok_iff.mpr (by decide)
  have herror : normalize ComponentTree.doubled Catalog.standard .standard =
      .error ⟨["root", "row", "title"], .duplicateId ["root", "title"]⟩ := by
    rw [normalize, hlimits]
    rfl
  obtain ⟨before, v, hfirst, hfault, hpath, -⟩ :=
    ((normalize_reports_first_fault _ _ _ hlimits).2 _).mp herror
  exact ⟨hlimits, before, v, hfirst, hfault, hpath⟩

end Screenwright
