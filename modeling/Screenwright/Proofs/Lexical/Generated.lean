/-
Generated files are lexically well formed.

An accepted app holds no name that is not an identifier where one is written as it is, and
no type whose data model has no name; so its screens, its data types and its entry are
tame, and every file made of them leaves the brackets as they are.
-/
import Screenwright.Proofs.Generation
import Screenwright.Proofs.Lexical.Components
import Screenwright.Proofs.Lexical.Files

namespace Screenwright

open Steps Swift

/-! ### Data models -/

namespace AppDefinition

variable {app : AppDefinition}

/-- Every data model has a name that can be written. -/
def NamesModels (app : AppDefinition) : Prop :=
  ∀ model ∈ app.models, (Names.typeName? model.name).isSome = true

/-- A type without unknown data models can be written. -/
theorem namedType_of_typeErrors (hmodels : app.NamesModels) {owner : String} {type : ValueType}
    (h : app.typeErrors owner type = []) : NamedType type := by
  intro model hmodel
  unfold typeErrors at h
  rw [hmodel] at h
  dsimp only at h
  split at h
  next hhas =>
    obtain ⟨m, hm, hname⟩ := List.any_eq_true.mp hhas
    rw [← of_decide_eq_true hname]
    exact hmodels m hm
  · cases h

/-- A name that can be declared is an identifier. -/
theorem plain_of_variableFault? {name : String} (h : variableFault? name = none) : Plain name := by
  refine Names.plain_of_isIdentifier ?_
  by_contra hno
  rw [variableFault?, if_pos (by simpa using hno)] at h
  cases h

end AppDefinition

namespace DataModel

variable {models : List DataModel} {model : DataModel}

theorem storedProperty_gives {seen : List String} {p : ModelProperty} (h : NamedType p.type) :
    Gives (storedProperty models model seen p) StoredProperty.Tame := by
  unfold storedProperty
  dsimp only
  split
  next husable =>
    split
    · exact .error_bind
    · split
      · exact .error_bind
      · split
        · exact .error
        next value hvalue =>
          exact .ret ⟨Names.plain_of_isUsable husable, inert_typeText h, tame_defaultValue h hvalue⟩
  · exact .error_bind

theorem storedProperties_gives {ps : List ModelProperty} (h : ∀ p ∈ ps, NamedType p.type) :
    ∀ {seen : List String},
      Gives (storedProperties models model seen ps) fun stored => ∀ p ∈ stored, p.Tame := by
  induction ps with
  | nil => exact .ret (by simp)
  | cons p rest ih =>
      intro seen
      rw [List.forall_mem_cons] at h
      refine (storedProperty_gives h.1).bind fun stored hstored => ?_
      refine (ih h.2).bind fun others hothers => .ret ?_
      exact List.forall_mem_cons.mpr ⟨hstored, hothers⟩

/-- The type of a data model is tame, and the model has a name. -/
theorem build_gives : Gives (model.build models) fun type =>
    (Names.typeName? model.name).isSome = true ∧
      ((∀ p ∈ model.properties, NamedType p.type) → type.Tame) := by
  unfold build
  split
  next name hname =>
    dsimp only
    split
    · exact .error_bind
    · rintro type htype
      obtain ⟨properties, hproperties, htype⟩ := bind_eq_ok.mp htype
      cases htype
      refine ⟨by rw [hname]; rfl, fun hnamed => ⟨Names.plain_of_typeName? hname, ?_⟩⟩
      exact storedProperties_gives hnamed properties hproperties
  · exact .error

end DataModel

/-! ### Scopes -/

theorem PropKind.namedType_of_expectedType? (kind : PropKind) {type : ValueType}
    (h : kind.expectedType? = some type) : NamedType type := by
  cases kind with
  | string => cases h; rintro _ ⟨⟩
  | number low high => cases h; rintro _ ⟨⟩
  | integer low high => cases h; rintro _ ⟨⟩
  | bool => cases h; rintro _ ⟨⟩
  | strings => cases h; rintro _ ⟨⟩
  | _ => cases h

namespace Scope

/-- A scope whose members can stand in code. -/
structure Tame (scope : Scope) : Prop where
  declared : ∀ entry : String × Variable, entry ∈ scope.parameters ∨ entry ∈ scope.state →
    Plain entry.1 ∧ NamedType entry.2.type
  inferred : ∀ entry ∈ scope.inferred, Plain entry.1 ∧ NamedType entry.2
  environment : ∀ key ∈ scope.environment, Plain key

variable {scope : Scope} {path : String}

theorem tame_resolveState (h : scope.Tame)
    (hpath : ∀ name ∈ DataBinding.segmentsOf path, Names.isIdentifier name = true)
    {expected : Option ValueType} (hexpected : ∀ type, expected = some type → NamedType type) :
    (scope.resolveState path expected).2.Tame := by
  unfold resolveState
  cases expected with
  | none =>
      dsimp only
      repeat' split
      all_goals exact h
  | some type =>
      dsimp only
      repeat' split
      any_goals exact h
      refine ⟨h.declared, ?_, h.environment⟩
      rw [List.forall_mem_append, List.forall_mem_singleton]
      exact ⟨h.inferred, DataBinding.plain_rootOf hpath, hexpected type rfl⟩

theorem tame_useEnvironment (h : scope.Tame) {key : String} (hkey : Plain key) :
    (scope.useEnvironment key).Tame := by
  unfold useEnvironment
  split
  · exact h
  · refine ⟨h.declared, h.inferred, ?_⟩
    rw [List.forall_mem_append, List.forall_mem_singleton]
    exact ⟨h.environment, hkey⟩

theorem tame_resolveEnvironment (h : scope.Tame)
    (hpath : ∀ name ∈ DataBinding.segmentsOf path, Names.isIdentifier name = true) :
    (scope.resolveEnvironment path).2.Tame := by
  unfold resolveEnvironment
  split
  · exact h
  · split
    · exact h
    · exact tame_useEnvironment h (DataBinding.plain_of_segmentsOf hpath)

/-- Resolving a binding keeps a scope tame. -/
theorem tame_resolveOn (catalog : Catalog) (h : scope.Tame) (element : Element)
    {binding : DataBinding} (hpath : ∀ name ∈ binding.segments, Names.isIdentifier name = true) :
    (scope.resolveOn catalog element binding).2.Tame := by
  have htype : ∀ {expected : Option ValueType},
      (∀ type, expected = some type → NamedType type) →
      (scope.typeOf binding expected).2.Tame := by
    intro expected hexpected
    unfold typeOf
    cases binding.source with
    | state => exact tame_resolveState h hpath hexpected
    | parameter => exact h
    | environment => exact tame_resolveEnvironment h hpath
  unfold resolveOn
  split
  · exact h
  · split
    · exact h
    next schema _ =>
      have hafter := htype fun _ => PropKind.namedType_of_expectedType? schema.kind
      unfold resolve
      split
      next heq => rw [heq] at hafter; exact hafter
      next heq => rw [heq] at hafter; exact hafter

/-- **Resolving the bindings of a screen keeps its scope tame, and binds to plain paths.** -/
theorem tame_bindAll {catalog : Catalog} {bindings : List (Element × DataBinding)}
    (hbindings : ∀ entry ∈ bindings, ∀ name ∈ entry.2.segments, Names.isIdentifier name = true) :
    ∀ {scope after : Scope} {resolved bound : Resolved}, scope.Tame →
      (∀ entry ∈ resolved, Plain entry.2.path) →
      bindAll catalog scope resolved bindings = .ok (bound, after) →
      (∀ entry ∈ bound, Plain entry.2.path) ∧ after.Tame := by
  induction bindings with
  | nil =>
      rintro scope _ resolved _ hscope hresolved ⟨⟩
      exact ⟨hresolved, hscope⟩
  | cons entry rest ih =>
      obtain ⟨element, binding⟩ := entry
      intro scope after resolved bound hscope hresolved hrun
      rw [List.forall_mem_cons] at hbindings
      have hstep := tame_resolveOn catalog hscope element hbindings.1
      have hpath := resolveOn_gives catalog scope element binding
      unfold bindAll at hrun
      split at hrun
      · cases hrun
      next found scope' heq =>
        rw [heq] at hstep hpath
        refine ih hbindings.2 hstep (List.forall_mem_cons.mpr ⟨?_, hresolved⟩) hrun
        rw [(hpath found rfl).2]
        exact DataBinding.plain_of_segmentsOf hbindings.1

/-! ### Members -/

theorem inert_declaration {lead name type : String} {value : Value} (hlead : Inert lead)
    (hname : Plain name) (htype : Inert type) (hvalue : value.Tame) :
    Inert (lead ++ name ++ ": " ++ type ++ " = " ++ value.text) := by
  have hhead := (hlead.append hname.inert).append (moves_of_read rfl : Inert ": ")
  exact ((hhead.append htype).append (moves_of_read rfl)).append hvalue

theorem initialValue_gives {v : Variable} (h : NamedType v.type) :
    Gives (initialValue v) Value.Tame := by
  unfold initialValue
  split
  next value hvalue => exact .ret (tame_defaultValue h hvalue)
  · exact .error

theorem inert_environment {key name : String} (hkey : Plain key) (hname : Plain name) :
    Inert (Member.environment key name).text := by
  have hopen : Moves [] [')'] "@Environment(\\." := moves_of_read rfl
  have hclose : Moves [')'] [] ") private var " := moves_of_read rfl
  exact ((hopen.before hkey.inert).append hclose).before hname.inert

theorem members_give (h : scope.Tame) :
    Gives scope.members fun members => ∀ m ∈ members, Inert m.text := by
  have hvar : Inert "var " := moves_of_read rfl
  have hstate : Inert "@State private var " := moves_of_read rfl
  unfold members
  refine (Gives.mapM (q := fun m => Inert m.text) fun entry hentry => ?_).bind
    fun parameters hparameters => ?_
  · obtain ⟨hname, htype⟩ := h.declared entry (Or.inl hentry)
    exact .map fun value hvalue => inert_declaration hvar hname (inert_typeText htype)
      (initialValue_gives htype value hvalue)
  refine (Gives.mapM (q := fun m => Inert m.text) fun entry hentry => ?_).bind
    fun state hall => .ret ?_
  · obtain ⟨hname, htype⟩ := h.declared entry (Or.inr hentry)
    exact .map fun value hvalue => inert_declaration hstate hname (inert_typeText htype)
      (initialValue_gives htype value hvalue)
  rw [List.forall_mem_append, List.forall_mem_append, List.forall_mem_append]
  refine ⟨⟨⟨hparameters, hall⟩, fun m hm => ?_⟩, fun m hm => ?_⟩
  · obtain ⟨entry, hentry, rfl⟩ := List.mem_map.mp hm
    obtain ⟨hname, htype⟩ := h.inferred entry hentry
    exact inert_declaration hstate hname (inert_typeText htype) (tame_zeroValue htype)
  · obtain ⟨key, hkey, rfl⟩ := List.mem_map.mp hm
    exact inert_environment (h.environment key hkey) (h.environment key hkey)

end Scope

/-! ### Screens -/

theorem ScreenNames.tame_of_lookup_index {screens : List Screen} {target : String}
    {names : ScreenNames} (h : (index screens).lookup target = some names) : names.Tame := by
  obtain ⟨screen, -, -, rfl⟩ := exists_of_lookup_index h
  exact tame_ofIdAndName screen.id screen.name

namespace Setting

theorem tame_of_bound {screenId : String} {tokens : DesignTokens} {screens : List Screen}
    {scope : Scope} {bound : Scope.Resolved} (h : ∀ entry ∈ bound, Plain entry.2.path) :
    Tame ⟨screenId, tokens, ScreenNames.index screens, scope, bound⟩ := by
  refine ⟨fun target names hnames => ScreenNames.tame_of_lookup_index hnames, ?_⟩
  intro node property found hfound
  obtain ⟨before, after, heq, -⟩ := List.lookup_eq_some_iff.mp hfound
  refine h ((node, property), found) ?_
  rw [show bound = _ from heq]
  simp

theorem allMembers_give {scope : Scope} (hscope : scope.Tame) {ledger : Ledger}
    (hledger : ledger.Tame) :
    Gives (allMembers scope ledger) fun members => ∀ m ∈ members, Inert m.text := by
  unfold allMembers
  split
  · exact .error
  next members hmembers =>
    refine .ret ?_
    rw [List.forall_mem_append, List.forall_mem_append, List.forall_mem_append]
    refine ⟨⟨⟨Scope.members_give hscope members hmembers, ?_⟩, ?_⟩, fun m hm => ?_⟩
    · split
      · exact List.forall_mem_singleton.mpr (moves_of_read rfl)
      · simp
    · split
      · exact List.forall_mem_singleton.mpr
          (Scope.inert_environment (plain_of_all rfl) (plain_of_all rfl))
      · simp
    · obtain ⟨flag, hflag, rfl⟩ := List.mem_map.mp hm
      obtain ⟨entry, hentry, rfl⟩ := List.mem_map.mp (List.mem_of_mem_filter hflag)
      have hlead : Inert "@State private var " := moves_of_read rfl
      exact Scope.inert_declaration hlead (hledger.sheets entry hentry).1
        (moves_of_read rfl) (Value.tame_bool false)

theorem tame_sheetModifier {flag viewType : String} (hflag : Plain flag)
    (hviewType : Plain viewType) : (sheetModifier flag viewType).Tame := by
  refine ViewModifier.tame_mk (plain_of_all rfl) (List.forall_mem_singleton.mpr ?_)
    (List.forall_mem_singleton.mpr (Closure.tame_first (List.forall_mem_singleton.mpr ?_)))
  · exact tame_labeled (plain_of_all rfl) (Value.tame_binding hflag)
  · exact View.tame_leaf hviewType (by simp)

theorem finish_gives {s : Setting} (hscope : s.scope.Tame) {screen : Screen} {body : View}
    (hbody : body.Tame) {ledger : Ledger} (hledger : ledger.Tame) :
    Gives (s.finish screen body ledger) ScreenView.Tame := by
  have htitle : ∀ m ∈ titleModifier screen, m.Tame := by
    unfold titleModifier
    split
    · simp
    · exact List.forall_mem_singleton.mpr
        (ViewModifier.tame_single (plain_of_all rfl) (Value.tame_string _))
  have hsheets : ∀ m ∈ ledger.sheets.map fun entry => sheetModifier entry.1 entry.2,
      m.Tame := by
    intro m hm
    obtain ⟨entry, hentry, rfl⟩ := List.mem_map.mp hm
    obtain ⟨hflag, hviewType⟩ := hledger.sheets entry hentry
    exact tame_sheetModifier hflag hviewType
  have hmodified := View.tame_modify hbody (List.forall_mem_append.mpr ⟨htitle, hsheets⟩)
  refine (allMembers_give hscope hledger).bind fun members hmembers => .ret ?_
  refine ⟨(ScreenNames.tame_ofIdAndName _ _).viewType, hmembers, ?_, fun handler hhandler => ?_⟩
  · dsimp only
    exact hmodified
  · obtain ⟨entry, hentry, rfl⟩ := List.mem_map.mp hhandler
    exact hledger.handlers entry hentry

end Setting

/-- The paths of the bindings of a checked tree are paths of identifiers. -/
theorem NormalTree.identifiers_of_bindings {tree : NormalTree} (hchecked : tree.root.Checked) :
    ∀ entry ∈ tree.bindings, ∀ name ∈ entry.2.segments, Names.isIdentifier name = true := by
  intro entry hentry
  obtain ⟨e, he, hbinding⟩ := List.mem_flatMap.mp hentry
  obtain ⟨b, hb, rfl⟩ := List.mem_map.mp hbinding
  obtain ⟨_, info, hinfo, -⟩ := Tree.forall_preorder_of_each tree.root hchecked e he
  exact hinfo.bindings b hb

/-- **The view of a checked screen is tame, if its declarations are.** -/
theorem buildScreen_gives {app : AppDefinition} {screen : Screen} {tree : NormalTree}
    (hscope : (Scope.ofScreen screen app.models).Tame) (hchecked : tree.root.Checked) :
    Gives (buildScreen app.buildContext screen tree) ScreenView.Tame := by
  intro view hview
  obtain ⟨⟨bound, scope⟩, hbindings, hview⟩ := bind_eq_ok.mp hview
  obtain ⟨⟨body, ledger⟩, hrun, hview⟩ := bind_eq_ok.mp hview
  obtain ⟨hbound, hafter⟩ := Scope.tame_bindAll (NormalTree.identifiers_of_bindings hchecked)
    hscope (by simp) hbindings
  obtain ⟨hbody, hledger⟩ := Setting.root_yields (Setting.tame_of_bound hbound) tree.root hchecked
    .empty body ledger Ledger.tame_empty hrun
  exact Setting.finish_gives hafter hbody hledger view hview

/-! ### The entry -/

theorem tame_routedStack {viewType : String} (h : Plain viewType) :
    (routedStack viewType).Tame := by
  refine View.tame_ofContent (List.forall_mem_singleton.mpr ?_) (List.forall_mem_singleton.mpr ?_)
  · exact tame_labeled (plain_of_all rfl) (Value.tame_binding (plain_of_all rfl))
  refine View.tame_modify (View.tame_leaf h (by simp)) (List.forall_mem_singleton.mpr ?_)
  refine ViewModifier.tame_mk (plain_of_all rfl) (List.forall_mem_singleton.mpr ?_)
    (List.forall_mem_singleton.mpr ⟨by simp [Closure.label], ?_, ?_⟩)
  · exact tame_labeled (plain_of_all rfl) (Value.tame_ident (plain_of_all rfl))
  · exact List.forall_mem_singleton.mpr (plain_of_all rfl)
  · refine List.forall_mem_singleton.mpr (View.tame_leaf (plain_of_all rfl) ?_)
    exact List.forall_mem_singleton.mpr
      (tame_labeled (plain_of_all rfl) (Value.tame_ident (plain_of_all rfl)))

theorem tame_barTab (item : TabItem) {names : ScreenNames} (h : names.Tame) :
    (barTab item names).Tame := by
  refine View.tame_modify (tame_routedStack h.viewType) ?_
  rw [List.forall_mem_cons, List.forall_mem_singleton]
  refine ⟨ViewModifier.tame_mk (plain_of_all rfl) (by simp) ?_,
    ViewModifier.tame_single (plain_of_all rfl) (Value.tame_ident ?_)⟩
  · exact List.forall_mem_singleton.mpr
      (Closure.tame_first (List.forall_mem_singleton.mpr (tame_tabLabel item)))
  · exact Plain.append (plain_of_all rfl) h.routeCase

theorem entryTarget_gives {screens : List Screen} {place target : String} :
    Gives (entryTarget (ScreenNames.index screens) place target) ScreenNames.Tame := by
  unfold entryTarget
  split
  next names hnames => exact .ret (ScreenNames.tame_of_lookup_index hnames)
  · exact .error

theorem rootView_gives {screens : List Screen} {entry : ScreenNames} (h : entry.Tame)
    (tabs : List TabItem) : Gives (rootView (ScreenNames.index screens) entry tabs) fun found =>
      found.1.Tame ∧ ∀ t ∈ found.2, Plain t := by
  unfold rootView
  split
  · exact .ret ⟨tame_routedStack h.viewType, by simp⟩
  refine (Gives.mapM (q := fun found : TabItem × ScreenNames => found.2.Tame) fun item _ =>
    Gives.map entryTarget_gives).bind fun named hnamed => .ret ⟨?_, fun t ht => ?_⟩
  · refine View.tame_ofContent (List.forall_mem_singleton.mpr ?_) fun view hview => ?_
    · exact tame_labeled (plain_of_all rfl) (Value.tame_binding (plain_of_all rfl))
    · obtain ⟨found, hfound, rfl⟩ := List.mem_map.mp hview
      exact tame_barTab found.1 (hnamed found hfound)
  · obtain ⟨found, hfound, rfl⟩ := List.mem_map.mp ht
    exact (hnamed found hfound).routeCase

theorem plain_sceneModifiers (accent : Token) (appearance : Appearance)
    (routes : List Route) : ∀ m ∈ sceneModifiers accent appearance routes,
      Plain m.name ∧ ∀ arg ∈ m.args, TameArg arg := by
  unfold sceneModifiers
  rw [List.forall_mem_append, List.forall_mem_append, List.forall_mem_append]
  refine ⟨⟨⟨List.forall_mem_singleton.mpr ⟨plain_of_all rfl, ?_⟩, ?_⟩, ?_⟩, ?_⟩
  · exact List.forall_mem_singleton.mpr (tame_bare (Value.tame_ident (plain_of_all rfl)))
  · split
    · refine List.forall_mem_singleton.mpr ⟨(plain_of_all rfl : Plain "tint"), ?_⟩
      exact List.forall_mem_singleton.mpr (tame_bare (Value.tame_color _))
    · simp
  · split
    · simp
    · refine List.forall_mem_singleton.mpr
        ⟨(plain_of_all rfl : Plain "preferredColorScheme"), ?_⟩
      refine List.forall_mem_singleton.mpr (tame_bare (Value.tame_member ?_))
      split <;> exact plain_of_all rfl
  · split
    · refine List.forall_mem_singleton.mpr ⟨plain_of_all rfl, ?_⟩
      exact List.forall_mem_singleton.mpr
        (tame_labeled (plain_of_all rfl) (Value.tame_ident (plain_of_all rfl)))
    · simp

theorem plain_storeOf {app : AppDefinition} (hmodels : app.NamesModels) {types : List String}
    (h : storeOf app = .local types ∨ storeOf app = .cloud types) : ∀ t ∈ types, Plain t := by
  have hall : ∀ t ∈ app.persistedModels.map fun m => typeText (.model m.name), Plain t := by
    intro t ht
    obtain ⟨m, hm, rfl⟩ := List.mem_map.mp ht
    exact plain_modelName (hmodels m (List.mem_of_mem_filter hm))
  unfold storeOf at h
  dsimp only at h
  split at h
  · rcases h with h | h <;> cases h
  · split at h
    · rcases h with h | h <;> cases h
      exact hall
    · rcases h with h | h <;> cases h
      exact hall

theorem buildEntry_gives {app : AppDefinition} (hmodels : app.NamesModels)
    {types : List DataType} (htypes : ∀ t ∈ types, t.Tame) (tokens : DesignTokens) :
    Gives (buildEntry app tokens (ScreenNames.index app.screens) types) AppEntry.Tame := by
  refine entryTarget_gives.bind fun entry hentry => ?_
  refine (rootView_gives hentry app.tabs).bind fun found hfound => Gives.step fun accent => .ret ?_
  refine ⟨Names.plain_appTypeName _, fun r hr => ?_, hfound.1, hentry.routeCase, hfound.2,
    plain_sceneModifiers _ _ _, fun stored hstored => plain_storeOf hmodels hstored, htypes⟩
  obtain ⟨screen, -, hroute⟩ := List.mem_filterMap.mp hr
  obtain ⟨names, hnames, rfl⟩ := Option.map_eq_some_iff.mp hroute
  have htame := ScreenNames.tame_of_lookup_index hnames
  exact ⟨htame.routeCase, htame.viewType⟩

/-! ### Generated apps -/

namespace Generate

/-- Models from which types have been made have names. -/
theorem namesModels_of_buildModels {app : AppDefinition} {types : List DataType}
    (h : buildModels app = .ok types) : app.NamesModels := by
  intro model hmodel
  obtain ⟨type, -, htype⟩ := exists_of_mapM_eq_ok h model hmodel
  exact (DataModel.build_gives type (mapError_eq_ok.mp htype)).1

/-- The data types of an app without errors are tame. -/
theorem tame_of_buildModels {app : AppDefinition} {types : List DataType}
    {trees : List NormalTree} {catalog : Catalog} (h : buildModels app = .ok types)
    (hfaultless : app.Faultless trees catalog) : ∀ t ∈ types, t.Tame := by
  refine forall_of_mapM_eq_ok h fun model hmodel type htype => ?_
  refine (DataModel.build_gives type (mapError_eq_ok.mp htype)).2 fun p hp => ?_
  exact AppDefinition.namedType_of_typeErrors (namesModels_of_buildModels h)
    (hfaultless.properties model hmodel p hp)

theorem tame_valueTypes {app : AppDefinition} {types : List DataType}
    (h : ∀ t ∈ types, t.Tame) : ∀ t ∈ valueTypes app types, t.Tame := by
  intro t ht
  obtain ⟨pair, hpair, rfl⟩ := List.mem_map.mp ht
  exact h _ (List.of_mem_zip (List.mem_of_mem_filter hpair)).2

namespace Run

variable {app : AppDefinition} {catalog : Catalog} {config : GeneratorConfig} {out : GeneratedApp}
  {types : List DataType} {trees : List NormalTree} {views : List ScreenView} {entry : AppEntry}

theorem tame_types (h : Run app catalog config out types trees views entry) :
    ∀ t ∈ types, t.Tame :=
  tame_of_buildModels h.models h.faultless

/-- **The entry of a generated app is tame, whatever the catalog is.** -/
theorem tame_entry (h : Run app catalog config out types trees views entry) : entry.Tame :=
  buildEntry_gives (namesModels_of_buildModels h.models) (tame_valueTypes h.tame_types)
    app.config.designTokens entry h.opening

end Run

namespace Accepted

variable {app : AppDefinition} {config : GeneratorConfig} {types : List DataType}
  {trees : List NormalTree}

/-- What a screen of an accepted app declares can stand in code. -/
theorem tame_ofScreen (h : Accepted app config types trees) {screen : Screen} {tree : NormalTree}
    (hmem : (screen, tree) ∈ app.screens.zip trees) :
    (Scope.ofScreen screen app.models).Tame := by
  have hvariables := (h.faultless.screens _ hmem).declared
  refine ⟨fun entry hentry => ?_, by simp [Scope.ofScreen], by simp [Scope.ofScreen]⟩
  obtain ⟨hdeclared, hname⟩ := Scope.mem_declared hentry
  have hv := AppDefinition.faultless_of_variableErrors hvariables entry.2 hdeclared
  rw [← hname]
  exact ⟨AppDefinition.plain_of_variableFault? hv.name,
    AppDefinition.namedType_of_typeErrors (namesModels_of_buildModels h.models) hv.type⟩

theorem tame_views (h : Accepted app config types trees) {views : List ScreenView}
    (hviews : buildScreens app.buildContext app trees = .ok views) : ∀ v ∈ views, v.Tame := by
  refine forall_of_mapM_eq_ok hviews fun pair hpair view hview => ?_
  have hchecked := checked_of_normalize (h.normalize_of_mem_zip hpair)
  exact buildScreen_gives (h.tame_ofScreen hpair) hchecked view (mapError_eq_ok.mp hview)

end Accepted

end Generate

open Generate in
/-- **Every generated file is lexically well formed**, whatever texts the app holds and
whatever the width of indentation is: each literal ends on the line on which it begins, and
the brackets outside literals are properly nested and all closed. -/
theorem files_wellFormed (app : AppDefinition) (config : GeneratorConfig) (out : GeneratedApp)
    (h : generate app Catalog.standard config = .ok out) :
    ∀ file ∈ out.files, isWellFormed file.content = true := by
  obtain ⟨types, trees, views, entry, hrun⟩ := exists_run h
  rw [hrun.files]
  intro file hfile
  rcases List.mem_append.mp hfile with hfile | hfile
  · rcases List.mem_append.mp hfile with hfile | hfile
    · obtain ⟨view, hview, rfl⟩ := List.mem_map.mp hfile
      exact isWellFormed_textOf _ ((hrun.accepted.tame_views hrun.screens view hview).linesInert _)
    · obtain ⟨type, htype, rfl⟩ := List.mem_map.mp hfile
      exact isWellFormed_textOf _
        (hrun.tame_types type (List.mem_of_mem_filter htype)).linesInert
  · rw [List.mem_singleton.mp hfile]
    exact isWellFormed_textOf _ hrun.tame_entry.linesInert

open Generate in
/-- The sample is generated, and its files are well formed. -/
theorem files_of_sample :
    ∃ out, generate sample Catalog.standard .standard = .ok out ∧
      ∀ file ∈ out.files, isWellFormed file.content = true := by
  obtain ⟨types, trees, h⟩ := accepted_of_accepts accepts_sample
  obtain ⟨out, hout⟩ := h.exists_generate
  exact ⟨out, hout, files_wellFormed sample .standard out hout⟩

end Screenwright
