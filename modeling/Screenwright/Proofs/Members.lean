/-
The members of a view.

The members of the view of a screen come from seven sources: its parameters, its declared state,
the state that bindings bring into being, the environment values in use, the router and the
dismissal, the flags of its sheets, and the handlers that its actions call.  A view is sound
only if no two of them share a name.  For every pair of sources but one something keeps the
names apart: names are reserved, or begin in a way that others may not, or are not added where
they are taken.  No check compares an environment value with what is declared or bound as state,
so there the names can meet: `EnvironmentApart` says that they do not, and a view has distinct
members exactly if it holds.  `members_of_localized` is an accepted app in which it does not.
-/
import Screenwright.Proofs.Generation
import Screenwright.Proofs.Lowering.Effects
import Screenwright.Proofs.Scopes

namespace Screenwright

open Steps Swift

namespace Swift

/-- The name of a member. -/
def Member.name : Member → String
  | state name _ _ => name
  | environment _ name => name
  | router => "router"
  | parameter name _ _ => name

/-- The names of the stored members of a view, then those of its handlers. -/
def ScreenView.memberNames (view : ScreenView) : List String :=
  view.members.map Member.name ++ view.handlers.map Handler.name

end Swift

/-! ### The members of a scope -/

namespace Scope

/-- The names under which a view stores what is in its scope. -/
def storedNames (scope : Scope) : List String :=
  Entries.names scope.parameters ++ Entries.names scope.state ++ Entries.names scope.inferred ++
    scope.environment

theorem isMember_iff {scope : Scope} {name : String} :
    scope.isMember name = true ↔ name ∈ scope.storedNames := by
  have hcontains : scope.environment.contains name = true ↔ name ∈ scope.environment :=
    List.contains_iff_mem
  simp only [isMember, storedNames, Bool.or_eq_true, Entries.has_iff_mem_names, hcontains,
    List.mem_append]

/-- The stored members: one for each declared variable with its type and its initial value, then
what has come into being with its type, then the environment values. -/
theorem members_declared {scope : Scope} {members : List Member} (h : scope.members = .ok members) :
    ∃ parameters state, members = parameters ++ state ++
        scope.inferred.map (fun entry =>
          Member.state entry.1 (typeText entry.2) (zeroValue entry.2)) ++
        scope.environment.map (fun key => Member.environment key key) ∧
      List.Forall₂ (fun entry m => ∃ value, initialValue entry.2 = .ok value ∧
        m = Member.parameter entry.1 (typeText entry.2.type) value) scope.parameters parameters ∧
      List.Forall₂ (fun entry m => ∃ value, initialValue entry.2 = .ok value ∧
        m = Member.state entry.1 (typeText entry.2.type) value) scope.state state := by
  obtain ⟨parameters, hparameters, h⟩ := bind_eq_ok.mp h
  obtain ⟨state, hstate, h⟩ := bind_eq_ok.mp h
  cases h
  refine ⟨parameters, state, rfl, (mapM_eq_ok.mp hparameters).imp ?_, (mapM_eq_ok.mp hstate).imp ?_⟩
  · intro entry m hm
    obtain ⟨value, hvalue, rfl⟩ := map_eq_ok.mp hm
    exact ⟨value, hvalue, rfl⟩
  · intro entry m hm
    obtain ⟨value, hvalue, rfl⟩ := map_eq_ok.mp hm
    exact ⟨value, hvalue, rfl⟩

/-- What is declared comes first among the stored members. -/
theorem members_eq {scope : Scope} {members : List Member} (h : scope.members = .ok members) :
    ∃ declared, members = declared ++
        scope.inferred.map (fun entry =>
          Member.state entry.1 (typeText entry.2) (zeroValue entry.2)) ++
        scope.environment.map (fun key => Member.environment key key) ∧
      declared.map Member.name =
        Entries.names scope.parameters ++ Entries.names scope.state := by
  have hnames : ∀ {table : Entries Variable} {found : List Member},
      List.Forall₂ (fun entry m => Member.name m = entry.1) table found →
      found.map Member.name = Entries.names table := by
    intro table found hfound
    induction hfound with
    | nil => rfl
    | cons hname _ ih =>
        rw [List.map_cons, hname, ih]
        rfl
  obtain ⟨parameters, state, rfl, hparameters, hstate⟩ := members_declared h
  refine ⟨parameters ++ state, rfl, ?_⟩
  rw [List.map_append, hnames (hparameters.imp fun entry m hm => ?_),
    hnames (hstate.imp fun entry m hm => ?_)]
  · obtain ⟨_, -, rfl⟩ := hm
    rfl
  · obtain ⟨_, -, rfl⟩ := hm
    rfl

theorem map_name_members {scope : Scope} {members : List Member}
    (h : scope.members = .ok members) : members.map Member.name = scope.storedNames := by
  obtain ⟨declared, rfl, hdeclared⟩ := members_eq h
  rw [List.map_append, List.map_append, hdeclared, List.map_map, List.map_map]
  have hkeys : scope.environment.map (Member.name ∘ fun key => .environment key key) =
      scope.environment := List.map_id scope.environment
  rw [hkeys]
  rfl

end Scope

/-! ### Names that can be declared -/

/-- A name that neither every view may have nor a flag can have. -/
structure Declarable (name : String) : Prop where
  reserved : name ∉ Scope.reservedNames
  flag : Text.startsWith "isPresenting" name = false

namespace AppDefinition

theorem declarable_of_variableFault? {name : String} (h : variableFault? name = none) :
    Declarable name := by
  unfold variableFault? at h
  split at h
  · cases h
  · split at h
    · cases h
    next hreserved =>
      split at h
      · cases h
      next hflag =>
        simp only [Bool.or_eq_true, not_or, List.contains_iff_mem] at hreserved
        exact ⟨hreserved.2, by simpa using hflag⟩

/-- The variables of a screen without errors can be declared. -/
theorem declarable_of_variableErrors {app : AppDefinition} {screen : String}
    {vs : List Variable} (h : app.variableErrors screen [] vs = []) :
    ∀ name ∈ vs.map Variable.name, Declarable name := by
  intro name hname
  obtain ⟨v, hv, rfl⟩ := List.mem_map.mp hname
  exact declarable_of_variableFault? (faultless_of_variableErrors h v hv).name

end AppDefinition

/-- No environment value can be taken for a member of another kind, and none has parts. -/
theorem Scope.declarable_of_key :
    ∀ key ∈ Entries.names Scope.environmentKeys,
      Declarable key ∧ DataBinding.rootOf key = key := by
  have hall : ∀ key ∈ Entries.names Scope.environmentKeys,
      (key ∉ Scope.reservedNames ∧ Text.startsWith "isPresenting" key = false) ∧
        DataBinding.rootOf key = key := by decide
  intro key hkey
  obtain ⟨⟨hreserved, hflag⟩, hroot⟩ := hall key hkey
  exact ⟨⟨hreserved, hflag⟩, hroot⟩

/-! ### The scope of a built screen -/

/-- The scope in which a screen without errors is lowered: all bindings of its tree have been
resolved, and what it declares can be declared. -/
structure Furnished (catalog : Catalog) (models : List DataModel) (screen : Screen)
    (tree : NormalTree) (scope : Scope) : Prop where
  run : Scope.ResolvesAll catalog (.ofScreen screen models) tree.bindings scope
  declarable : ∀ name ∈ screen.declared.map Variable.name, Declarable name

/-- No environment value that a tree binds has the name of a variable that the screen declares,
or of state that the tree binds. -/
def EnvironmentApart (screen : Screen) (tree : NormalTree) : Prop :=
  ∀ entry ∈ tree.bindings, entry.2.source = .environment →
    entry.2.path ∉ screen.declared.map Variable.name ∧
      ∀ other ∈ tree.bindings, other.2.source = .state → other.2.path ≠ entry.2.path

namespace Furnished

variable {catalog : Catalog} {models : List DataModel} {screen : Screen} {tree : NormalTree}
  {scope : Scope}

theorem tidy (h : Furnished catalog models screen tree scope) : scope.Tidy :=
  h.run.tidy (Scope.tidy_ofScreen screen models)

/-- What the screen declares is in the scope. -/
theorem mem_declared (h : Furnished catalog models screen tree scope) {name : String} :
    name ∈ screen.declared.map Variable.name ↔
      name ∈ Entries.names scope.parameters ∨ name ∈ Entries.names scope.state := by
  rw [h.run.sameDeclared.parameters, h.run.sameDeclared.state]
  exact Scope.mem_names_declared screen models

/-- The state that has come into being is the state that the tree binds and the screen does not
declare. -/
theorem mem_inferred (h : Furnished catalog models screen tree scope) {name : String} :
    name ∈ Entries.names scope.inferred ↔
      ∃ entry ∈ tree.bindings, scope.Brings entry.2 ∧ entry.2.path = name := by
  rw [h.run.mem_names_inferred]
  simp only [Scope.brings_iff h.run.sameDeclared]
  -- No state has come into being before the first binding.
  exact or_iff_right List.not_mem_nil

/-- The environment values in use are those that the tree binds. -/
theorem mem_environment (h : Furnished catalog models screen tree scope) {key : String} :
    key ∈ scope.environment ↔
      ∃ entry ∈ tree.bindings, entry.2.source = .environment ∧ entry.2.path = key := by
  rw [h.run.mem_environment]
  exact or_iff_right List.not_mem_nil

/-- No stored member has a reserved name. -/
theorem not_mem_reservedNames (h : Furnished catalog models screen tree scope) {name : String}
    (hname : name ∈ scope.storedNames) : name ∉ Scope.reservedNames := by
  rw [Scope.storedNames, List.mem_append, List.mem_append, List.mem_append] at hname
  rcases hname with (hdeclared | hinferred) | henvironment
  · exact (h.declarable name (h.mem_declared.mpr hdeclared)).reserved
  · exact (h.tidy.undeclared name hinferred).reserved
  · exact (Scope.declarable_of_key name (h.tidy.known name henvironment)).1.reserved

/-- What is not an environment value is stored once. -/
theorem nodup_state (h : Furnished catalog models screen tree scope) :
    (Entries.names scope.parameters ++ Entries.names scope.state ++
      Entries.names scope.inferred).Nodup := by
  have hsame := h.run.sameDeclared
  rw [List.nodup_append, List.nodup_append]
  refine ⟨⟨?_, ?_, ?_⟩, h.tidy.inferred, ?_⟩
  · rw [hsame.parameters]
    exact Scope.nodup_names_firstOfEach _
  · rw [hsame.state]
    exact Scope.nodup_names_firstOfEach _
  · intro name hparameter other hstate heq
    rw [hsame.state, Scope.mem_names_state_ofScreen] at hstate
    rw [hsame.parameters, heq] at hparameter
    exact hstate.2 hparameter
  · intro name hdeclared other hinferred heq
    have hnew := h.tidy.undeclared other hinferred
    rw [heq] at hdeclared
    rcases List.mem_append.mp hdeclared with hmem | hmem
    · exact hnew.parameter hmem
    · exact hnew.state hmem

/-- **The stored members have distinct names exactly if the environment is apart.** -/
theorem nodup_storedNames_iff (h : Furnished catalog models screen tree scope) :
    scope.storedNames.Nodup ↔ EnvironmentApart screen tree := by
  have hdisjoint : scope.storedNames.Nodup ↔ ∀ key ∈ scope.environment,
      key ∉ Entries.names scope.parameters ++ Entries.names scope.state ++
        Entries.names scope.inferred := by
    rw [Scope.storedNames, List.nodup_append]
    constructor
    · rintro ⟨-, -, hapart⟩ key hkey hmem
      exact hapart key hmem key hkey rfl
    · intro hapart
      refine ⟨h.nodup_state, h.tidy.environment, fun name hname key hkey heq => ?_⟩
      rw [heq] at hname
      exact hapart key hkey hname
  rw [hdisjoint]
  constructor
  · intro hapart entry hentry hsource
    have hmem := hapart entry.2.path (h.mem_environment.mpr ⟨entry, hentry, hsource, rfl⟩)
    rw [List.mem_append, List.mem_append, ← h.mem_declared, not_or] at hmem
    refine ⟨hmem.1, fun other hother hstate heq => ?_⟩
    -- A key has no parts, so a state binding of it brings it into being or finds it declared.
    have hkey := h.tidy.known entry.2.path
      (h.mem_environment.mpr ⟨entry, hentry, hsource, rfl⟩)
    have hroot := (Scope.declarable_of_key entry.2.path hkey).2
    by_cases hdeclared : entry.2.path ∈ Entries.names scope.state
    · exact hmem.1 (h.mem_declared.mpr (Or.inr hdeclared))
    · refine hmem.2 (h.mem_inferred.mpr ⟨other, hother, ⟨hstate, ?_⟩, heq⟩)
      rw [heq, hroot]
      exact hdeclared
  · intro hapart key hkey hmem
    obtain ⟨entry, hentry, hsource, rfl⟩ := h.mem_environment.mp hkey
    obtain ⟨hdeclared, hstate⟩ := hapart entry hentry hsource
    rw [List.mem_append, List.mem_append, ← h.mem_declared] at hmem
    rcases hmem with hmem | hmem
    · exact hdeclared hmem
    · obtain ⟨other, hother, hbrings, hpath⟩ := h.mem_inferred.mp hmem
      exact hstate other hother hbrings.1 hpath

end Furnished

/-! ### The handlers of a ledger -/

/-- The handler that a use calls, with its parameters. -/
def Use.handler? : Use → Option (String × HandlerParams)
  | action _ (.custom name args) => (Action.handlerParams args).toOption.map fun ps => (name, ps)
  | _ => none

theorem Use.exists_of_handler? {use : Use} {handler : String × HandlerParams}
    (h : use.handler? = some handler) :
    ∃ node args, use = .action node (.custom handler.1 args) := by
  cases use with
  | link node target => cases h
  | tab node target => cases h
  | action node a =>
      cases a with
      | custom name args =>
          obtain ⟨params, -, rfl⟩ := Option.map_eq_some_iff.mp h
          exact ⟨node, args, rfl⟩
      | _ => cases h

namespace Setting

variable {s : Setting}

theorem handlers_record (ledger : Ledger) (use : Use) :
    (s.record ledger use).handlers =
      (use.handler?.map fun handler =>
        Entries.putNew handler.1 handler.2 ledger.handlers).getD ledger.handlers := by
  cases use with
  | link node target => rfl
  | tab node target => rfl
  | action node a =>
      cases a with
      | navigate target => rfl
      | presentSheet target => rfl
      | dismiss => rfl
      | custom name args =>
          simp only [record, recordAction, Use.handler?]
          cases Action.handlerParams args <;> rfl

/-- **The handlers of a ledger are those that have been called, the first call of each name.** -/
theorem handlers_foldl_record (order : List Use) :
    ∀ ledger : Ledger, (order.foldl s.record ledger).handlers =
      (order.filterMap Use.handler?).foldl (fun handlers handler =>
        Entries.putNew handler.1 handler.2 handlers) ledger.handlers := by
  induction order with
  | nil => exact fun _ => rfl
  | cons use order ih =>
      intro ledger
      rw [List.foldl_cons, ih, handlers_record, List.filterMap_cons]
      cases use.handler? <;> rfl

end Setting

/-! ### What a ledger adds -/

namespace Ledger

/-- The names that a ledger adds to the members of a scope. -/
def addedNames (ledger : Ledger) (scope : Scope) : List String :=
  (if ledger.usesRouter then ["router"] else []) ++
    (if ledger.usesDismiss then ["dismiss"] else []) ++
    (Entries.names ledger.sheets).filter (fun flag => !scope.isMember flag) ++
    Entries.names ledger.handlers

/-- The flags and the handlers of a ledger are named once; flags are named like flags, and
handlers can be called. -/
structure Clean (ledger : Ledger) (scope : Scope) : Prop where
  sheets : (Entries.names ledger.sheets).Nodup
  flags : ∀ flag ∈ Entries.names ledger.sheets, Text.startsWith "isPresenting" flag = true
  handlers : (Entries.names ledger.handlers).Nodup
  callable : ∀ name ∈ Entries.names ledger.handlers, scope.Callable name

variable {ledger : Ledger} {scope : Scope}

/-- No reserved name begins like a flag. -/
theorem not_flag_of_reserved :
    ∀ name ∈ Scope.reservedNames, Text.startsWith "isPresenting" name = false := by
  decide

theorem mem_common {name : String}
    (h : name ∈ (if ledger.usesRouter then ["router"] else []) ++
      (if ledger.usesDismiss then ["dismiss"] else [])) :
    name = "router" ∨ name = "dismiss" := by
  rcases List.mem_append.mp h with h | h
  · split at h
    · exact Or.inl (List.mem_singleton.mp h)
    · cases h
  · split at h
    · exact Or.inr (List.mem_singleton.mp h)
    · cases h

theorem map_name_common :
    ((if ledger.usesRouter then [Member.router] else []) ++
      (if ledger.usesDismiss then [Member.environment "dismiss" "dismiss"] else [])).map
        Member.name =
      (if ledger.usesRouter then ["router"] else []) ++
        (if ledger.usesDismiss then ["dismiss"] else []) := by
  cases ledger.usesRouter <;> cases ledger.usesDismiss <;> rfl

theorem nodup_common :
    ((if ledger.usesRouter then ["router"] else []) ++
      (if ledger.usesDismiss then ["dismiss"] else [])).Nodup := by
  cases ledger.usesRouter <;> cases ledger.usesDismiss <;> decide

theorem nodup_addedNames (h : ledger.Clean scope) : (ledger.addedNames scope).Nodup := by
  rw [addedNames, List.nodup_append, List.nodup_append]
  refine ⟨⟨nodup_common, h.sheets.filter _, ?_⟩, h.handlers, ?_⟩
  · intro name hname flag hflag heq
    have hstarts := h.flags flag (List.mem_of_mem_filter hflag)
    rw [← heq] at hstarts
    rcases mem_common hname with rfl | rfl
    · cases hstarts
    · cases hstarts
  · intro name hname handler hhandler heq
    obtain ⟨hreserved, hflag, -⟩ := h.callable handler hhandler
    rw [← heq] at hreserved hflag
    rcases List.mem_append.mp hname with hname | hname
    · rcases mem_common hname with rfl | rfl
      · exact hreserved (by decide)
      · exact hreserved (by decide)
    · rw [h.flags name (List.mem_of_mem_filter hname)] at hflag
      cases hflag

/-- What a ledger adds: the router or the dismissal, a flag that the scope does not store, or a
handler. -/
theorem cases_of_mem_addedNames (h : ledger.Clean scope) {name : String}
    (hname : name ∈ ledger.addedNames scope) :
    (name = "router" ∨ name = "dismiss") ∨
      (Text.startsWith "isPresenting" name = true ∧ scope.isMember name = false) ∨
        scope.Callable name := by
  rw [addedNames, List.mem_append, List.mem_append] at hname
  rcases hname with (hname | hname) | hname
  · exact Or.inl (mem_common hname)
  · obtain ⟨hflag, hfree⟩ := List.mem_filter.mp hname
    exact Or.inr (Or.inl ⟨h.flags name hflag, by simpa using hfree⟩)
  · exact Or.inr (Or.inr (h.callable name hname))

/-- What a ledger adds is not stored by the scope. -/
theorem not_mem_storedNames (h : ledger.Clean scope)
    (hstored : ∀ name ∈ scope.storedNames, name ∉ Scope.reservedNames) {name : String}
    (hname : name ∈ ledger.addedNames scope) : name ∉ scope.storedNames := by
  intro hmem
  have hmember := Scope.isMember_iff.mpr hmem
  rcases cases_of_mem_addedNames h hname with hcommon | ⟨-, hfree⟩ | hcallable
  · rcases hcommon with rfl | rfl
    · exact hstored _ hmem (by decide)
    · exact hstored _ hmem (by decide)
  · rw [hmember] at hfree
    cases hfree
  · have hfree := hcallable.notMember
    rw [hmember] at hfree
    cases hfree

/-- What a ledger adds is not called like the body of a view. -/
theorem body_not_mem_addedNames (h : ledger.Clean scope) : "body" ∉ ledger.addedNames scope := by
  intro hmem
  rcases cases_of_mem_addedNames h hmem with hcommon | ⟨hstarts, -⟩ | hcallable
  · rcases hcommon with heq | heq
    · exact absurd heq (by decide)
    · exact absurd heq (by decide)
  · rw [not_flag_of_reserved "body" (by decide)] at hstarts
    cases hstarts
  · exact hcallable.notReserved (by decide)

end Ledger

/-! ### The members of a view -/

/-- The members of a finished view: those of the scope, and what the ledger adds. -/
theorem Setting.members_of_finish {s : Setting} {screen : Screen} {body : Swift.View}
    {ledger : Ledger} {view : ScreenView} (h : s.finish screen body ledger = .ok view) :
    ∃ stored, s.scope.members = .ok stored ∧
      view.members = stored ++ ((if ledger.usesRouter then [.router] else []) ++
        (if ledger.usesDismiss then [.environment "dismiss" "dismiss"] else [])) ++
        Setting.flagMembers s.scope ledger.sheets := by
  obtain ⟨members, hmembers, h⟩ := bind_eq_ok.mp h
  cases h
  unfold Setting.allMembers at hmembers
  split at hmembers
  · cases hmembers
  next stored hstored =>
    cases hmembers
    refine ⟨stored, hstored, ?_⟩
    rw [← List.append_assoc stored]

theorem Setting.memberNames_of_finish {s : Setting} {screen : Screen} {body : Swift.View}
    {ledger : Ledger} {view : ScreenView} (h : s.finish screen body ledger = .ok view) :
    view.memberNames = s.scope.storedNames ++ ledger.addedNames s.scope := by
  obtain ⟨stored, hstored, hmembers⟩ := members_of_finish h
  have hhandlers : view.handlers.map Handler.name = Entries.names ledger.handlers := by
    obtain ⟨_, -, h⟩ := bind_eq_ok.mp h
    cases h
    exact List.map_map
  have hflags : (Setting.flagMembers s.scope ledger.sheets).map Member.name =
      (Entries.names ledger.sheets).filter fun flag => !s.scope.isMember flag := by
    rw [Setting.flagMembers, List.map_map]
    exact List.map_id _
  rw [ScreenView.memberNames, hmembers, hhandlers, List.map_append, List.map_append,
    Scope.map_name_members hstored, Ledger.map_name_common, hflags, Ledger.addedNames]
  simp only [List.append_assoc]

namespace Built

variable {app : AppDefinition} {screen : Screen} {tree : NormalTree} {view : ScreenView}
  {s : Setting} {order : List Use} {body : Swift.View}

theorem clean (h : Built app screen tree view s order body) :
    (order.foldl s.record .empty).Clean s.scope := by
  have hsheets := Setting.sheets_foldl_record (s := s) order .empty
  have hhandlers := Setting.handlers_foldl_record (s := s) order .empty
  refine ⟨?_, fun flag hflag => ?_, ?_, fun name hname => ?_⟩
  · rw [hsheets]
    exact Entries.nodup_foldl_putNew List.nodup_nil
  · rw [hsheets, Entries.mem_names_foldl_putNew] at hflag
    rcases hflag with hnil | ⟨names, -, rfl⟩
    · cases hnil
    · exact names.startsWith_presentationFlag
  · rw [hhandlers]
    exact Entries.nodup_foldl_putNew List.nodup_nil
  · rw [hhandlers, Entries.mem_names_foldl_putNew] at hname
    rcases hname with hnil | ⟨handler, hhandler, rfl⟩
    · cases hnil
    · obtain ⟨use, huse, hcalls⟩ := List.mem_filterMap.mp hhandler
      obtain ⟨node, args, rfl⟩ := Use.exists_of_handler? hcalls
      obtain ⟨φ, -, -, hreserved, hmember, hflag⟩ := h.fine _ huse
      exact ⟨hreserved, hflag, hmember⟩

/-- A screen whose variables have no errors is lowered in a furnished scope. -/
theorem furnished (h : Built app screen tree view s order body)
    (hvariables : app.variableErrors screen.id [] screen.declared = []) :
    Furnished Catalog.standard app.models screen tree s.scope := by
  obtain ⟨bound, scope, hbindings, rfl⟩ := h.bindings
  exact ⟨Scope.resolvesAll_of_bindAll hbindings,
    AppDefinition.declarable_of_variableErrors hvariables⟩

/-- **When the members of a view have distinct names.** -/
theorem nodup_memberNames_iff (h : Built app screen tree view s order body)
    (hvariables : app.variableErrors screen.id [] screen.declared = []) :
    "body" ∉ view.memberNames ∧ (view.memberNames.Nodup ↔ EnvironmentApart screen tree) := by
  have hfurnished := h.furnished hvariables
  have hstored : ∀ name ∈ s.scope.storedNames, name ∉ Scope.reservedNames :=
    fun name hname => hfurnished.not_mem_reservedNames hname
  rw [Setting.memberNames_of_finish h.finish, ← hfurnished.nodup_storedNames_iff]
  refine ⟨fun hmem => ?_, fun hnodup => (List.nodup_append.mp hnodup).1, fun hnodup => ?_⟩
  · rcases List.mem_append.mp hmem with hmem | hmem
    · exact hstored _ hmem (by decide)
    · exact Ledger.body_not_mem_addedNames h.clean hmem
  · refine List.nodup_append.mpr ⟨hnodup, Ledger.nodup_addedNames h.clean, ?_⟩
    intro name hname added hadded heq
    rw [heq] at hname
    exact Ledger.not_mem_storedNames h.clean hstored hadded hname

end Built

namespace Generate

/-- Every screen of an accepted app is built, in a furnished scope. -/
theorem Accepted.exists_furnished {app : AppDefinition} {config : GeneratorConfig}
    {types : List DataType} {trees : List NormalTree} (h : Accepted app config types trees)
    {screen : Screen} (hscreen : screen ∈ app.screens) :
    ∃ tree view s order body, normalize screen.root Catalog.standard config.limits = .ok tree ∧
      Built app screen tree view s order body ∧
      app.variableErrors screen.id [] screen.declared = [] := by
  obtain ⟨tree, hmem⟩ := h.exists_mem_zip hscreen
  obtain ⟨view, s, order, body, hbuilt⟩ := h.exists_built hmem
  exact ⟨tree, view, s, order, body, h.normalize_of_mem_zip hmem, hbuilt,
    (h.faultless.screens _ hmem).declared⟩

end Generate

/-- **When the members of a view have distinct names.**  In an accepted app no member of a view
is called like the view's body, and the members have distinct names, handlers among them,
exactly if no environment value that the screen binds is also declared or bound as state. -/
theorem members_distinct_iff (app : AppDefinition) (config : GeneratorConfig) (out : GeneratedApp)
    (h : generate app Catalog.standard config = .ok out) :
    ∀ screen ∈ app.screens, ∃ tree view,
      normalize screen.root Catalog.standard config.limits = .ok tree ∧
      buildScreen app.buildContext screen tree = .ok view ∧
      "body" ∉ view.memberNames ∧
      (view.memberNames.Nodup ↔ EnvironmentApart screen tree) := by
  intro screen hscreen
  obtain ⟨types, trees, haccepted⟩ := Generate.exists_accepted h
  obtain ⟨tree, view, s, order, body, hnormal, hbuilt, hvariables⟩ :=
    haccepted.exists_furnished hscreen
  exact ⟨tree, view, hnormal, hbuilt.build, hbuilt.nodup_memberNames_iff hvariables⟩

/-- An app whose first screen has members from all seven sources. -/
def Generate.desk : AppDefinition where
  config := ⟨"Notes", "com.example.notes", "1.0.0", .standard, .standard, false, false⟩
  screens :=
    [⟨"home", "Home", none, [⟨"draft", .string, none⟩], [⟨"saved", .bool, none⟩],
        .node ⟨"root", "VStack", [], [], []⟩
          [.node ⟨"input", "TextField", [("placeholder", .string "Text")],
            [⟨"text", .state, "entry"⟩], []⟩ [],
          .node ⟨"scheme", "Text", [], [⟨"content", .environment, "colorScheme"⟩], []⟩ [],
          .node ⟨"draft", "Text", [], [⟨"content", .parameter, "draft"⟩], []⟩ [],
          .node ⟨"save", "Button",
            [("action", .object [("name", .string "save"), ("type", .string "custom")])],
            [], []⟩ [],
          .node ⟨"open", "Button",
            [("action", .object [("target", .string "about"), ("type", .string "navigate")])],
            [], []⟩ [],
          .node ⟨"peek", "Button",
            [("action", .object [("target", .string "about"), ("type", .string "presentSheet")])],
            [], []⟩ [],
          .node ⟨"leave", "Button", [("action", .object [("type", .string "dismiss")])],
            [], []⟩ []]⟩,
      ⟨"about", "About", none, [], [],
        .node ⟨"body", "Text", [("content", .string "Notes")], [], []⟩ []⟩]
  models := []
  entryScreen := "home"
  tabBar := none

/-- The desk is generated. -/
theorem members_of_desk :
    ∃ out, generate Generate.desk Catalog.standard .standard = .ok out ∧
      ∀ screen ∈ Generate.desk.screens, ∃ tree view,
        normalize screen.root Catalog.standard Limits.standard = .ok tree ∧
        buildScreen Generate.desk.buildContext screen tree = .ok view ∧
        "body" ∉ view.memberNames ∧
        (view.memberNames.Nodup ↔ EnvironmentApart screen tree) := by
  have haccepts : Generate.accepts Generate.desk .standard = true := by decide +kernel
  obtain ⟨out, hout⟩ := Generate.exists_generate_of_accepts haccepts
  exact ⟨out, hout, members_distinct_iff Generate.desk .standard out hout⟩

/-! ### State that is called like an environment value -/

/-- A screen that declares state under the name of an environment value, and shows that value. -/
def localizedScreen : Screen :=
  ⟨"home", "Home", none, [], [⟨"locale", .string, none⟩],
    .node ⟨"t", "Text", [], [⟨"content", .environment, "locale"⟩], []⟩ []⟩

/-- An app of that one screen. -/
def localized : AppDefinition where
  config := ⟨"Notes", "com.example.notes", "1.0.0", .standard, .standard, false, false⟩
  screens := [localizedScreen]
  models := []
  entryScreen := "home"
  tabBar := none

/-- **An accepted app with a view in which two members have the same name.** -/
theorem members_of_localized :
    ∃ out, generate localized Catalog.standard .standard = .ok out ∧
      ∃ screen ∈ localized.screens, ∃ tree view,
        normalize screen.root Catalog.standard Limits.standard = .ok tree ∧
        buildScreen localized.buildContext screen tree = .ok view ∧
        ¬ view.memberNames.Nodup := by
  have haccepts : Generate.accepts localized .standard = true := by decide +kernel
  obtain ⟨types, trees, haccepted⟩ := Generate.accepted_of_accepts haccepts
  obtain ⟨out, hout⟩ := haccepted.exists_generate
  have hhome : localizedScreen ∈ localized.screens := List.mem_cons_self
  obtain ⟨tree, view, s, order, body, hnormal, hbuilt, hvariables⟩ :=
    haccepted.exists_furnished hhome
  refine ⟨out, hout, localizedScreen, hhome, tree, view, hnormal, hbuilt.build, fun hnodup => ?_⟩
  have hapart := (hbuilt.nodup_memberNames_iff hvariables).2.mp hnodup
  have hrun : (normalize localizedScreen.root Catalog.standard Limits.standard).toOption.map
      (fun tree => tree.bindings.map Prod.snd) =
        some [⟨"content", .environment, "locale"⟩] := by decide +kernel
  have hbound := eq_of_toOption_map hnormal hrun
  have hmem : (⟨"content", .environment, "locale"⟩ : DataBinding) ∈ tree.bindings.map Prod.snd := by
    rw [hbound]
    exact List.mem_cons_self
  obtain ⟨entry, hentry, heq⟩ := List.mem_map.mp hmem
  obtain ⟨hfree, -⟩ := hapart entry hentry (by rw [heq])
  rw [heq] at hfree
  exact hfree (by decide)

end Screenwright
