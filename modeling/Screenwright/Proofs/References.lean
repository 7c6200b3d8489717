/-
What an app without reference errors promises.

The reference checks give a list of errors, and an empty list says that none of the many
checks found anything.  Here the empty list is read as what lowering relies on: screens
that are named exist, bindings resolve, and they do so in the scope that the checks saw;
variables have names and defaults that can be declared; and there is one way to call
each handler.
-/
import Screenwright.Proofs.Lowering.Trees

namespace Screenwright

open Steps

/-! ### Screens -/

namespace ScreenNames

theorem mem_names_index {screens : List Screen} {id : String} :
    id ∈ Entries.names (index screens) ↔ ∃ screen ∈ screens, screen.id = id := by
  rw [index, Entries.mem_names_foldl_putNew]
  simp [Entries.names]

/-- A screen that exists has names. -/
theorem isSome_lookup_index {app : AppDefinition} {id : String} (h : app.hasScreen id = true) :
    ((index app.screens).lookup id).isSome := by
  have hmem : id ∈ Entries.names (index app.screens) := by
    rw [mem_names_index]
    simpa [AppDefinition.hasScreen] using h
  exact (Entries.has_iff_mem_names _ _).mpr hmem

/-- The names in the index are those of a screen with the identifier. -/
theorem exists_of_lookup_index {screens : List Screen} {id : String} {names : ScreenNames}
    (h : (index screens).lookup id = some names) :
    ∃ screen ∈ screens, screen.id = id ∧ ofScreen screen = names := by
  rcases Entries.mem_foldl_putNew (Entries.mem_of_lookup h) with hnil | ⟨screen, hmem, heq⟩
  · cases hnil
  · cases heq
    exact ⟨screen, hmem, rfl, rfl⟩

end ScreenNames

namespace TakenNames

theorem not_mem_of_conflict {table : Entries String} {screen name : String}
    (h : conflict table screen name = []) : name ∉ Entries.names table := by
  intro hmem
  obtain ⟨first, hfirst⟩ := Entries.exists_lookup hmem
  rw [conflict, hfirst] at h
  cases h

theorem link_of_linkErrors {taken : TakenNames} {screen link : String}
    (h : taken.linkErrors screen link = []) :
    Names.isDeepLink link = true ∧ link ∉ Entries.names taken.links := by
  unfold linkErrors at h
  split at h
  · cases h
  next hlink =>
    refine ⟨by simpa using hlink, fun hmem => ?_⟩
    obtain ⟨other, hother⟩ := Entries.exists_lookup hmem
    rw [hother] at h
    cases h

/-- The names of a screen are free: they are not those of the app, and none of them has been
taken. -/
structure Admits (app : AppDefinition) (taken : TakenNames) (screen : Screen) : Prop where
  id : screen.id ∉ taken.ids
  owner : app.typeOwner? (ScreenNames.ofScreen screen).viewType = .none
  viewType : (ScreenNames.ofScreen screen).viewType ∉ Entries.names taken.viewTypes
  handle : (ScreenNames.ofScreen screen).handle ∉ Entries.names taken.handles
  link : ∀ link, screen.deepLink = some link →
    Names.isDeepLink link = true ∧ link ∉ Entries.names taken.links

/-- Where the checks of several screens find nothing, the names of the first one are free, and
the others find them taken. -/
theorem admits_of_allErrors {app : AppDefinition} {taken : TakenNames} {screen : Screen}
    {rest : List Screen} (h : allErrors app taken (screen :: rest) = []) :
    Admits app taken screen ∧
      allErrors app (taken.add screen (ScreenNames.ofScreen screen)) rest = [] := by
  simp only [allErrors] at h
  split at h
  · cases h
  next hid =>
    obtain ⟨hself, hrest⟩ := List.append_eq_nil_iff.mp h
    obtain ⟨hself, hlink⟩ := List.append_eq_nil_iff.mp hself
    obtain ⟨hself, hhandle⟩ := List.append_eq_nil_iff.mp hself
    obtain ⟨howner, htype⟩ := List.append_eq_nil_iff.mp hself
    refine ⟨⟨by simpa using hid, ?_, not_mem_of_conflict htype, not_mem_of_conflict hhandle,
      fun link hdeep => ?_⟩, hrest⟩
    · cases hfound : app.typeOwner? (ScreenNames.ofScreen screen).viewType with
      | none => rfl
      | some owner =>
          rw [hfound] at howner
          cases howner
    · rw [hdeep] at hlink
      exact link_of_linkErrors hlink

/-- The screens have distinct keys, and none of these is taken. -/
def Fresh (key : Screen → String) (taken : List String) (screens : List Screen) : Prop :=
  (screens.map key).Nodup ∧ ∀ screen ∈ screens, key screen ∉ taken

theorem fresh_cons {key : Screen → String} {taken more : List String} {screen : Screen}
    {rest : List Screen} (hnew : key screen ∉ taken) (hrest : Fresh key more rest)
    (hgrow : ∀ name, name = key screen ∨ name ∈ taken → name ∈ more) :
    Fresh key taken (screen :: rest) := by
  obtain ⟨hnodup, hfresh⟩ := hrest
  refine ⟨?_, ?_⟩
  · rw [List.map_cons, List.nodup_cons]
    refine ⟨fun hmem => ?_, hnodup⟩
    obtain ⟨other, hother, heq⟩ := List.mem_map.mp hmem
    exact hfresh other hother (hgrow _ (Or.inl heq))
  · rw [List.forall_mem_cons]
    exact ⟨hnew, fun other hother hmem => hfresh other hother (hgrow _ (Or.inr hmem))⟩

/-- **No two screens of an app without errors share an identifier, a view type or a handle**,
and none takes a name that was taken before. -/
theorem fresh_of_allErrors {app : AppDefinition} {screens : List Screen} :
    ∀ {taken : TakenNames}, allErrors app taken screens = [] →
      Fresh Screen.id taken.ids screens ∧
      Fresh (fun screen => (ScreenNames.ofScreen screen).viewType)
        (Entries.names taken.viewTypes) screens ∧
      Fresh (fun screen => (ScreenNames.ofScreen screen).handle)
        (Entries.names taken.handles) screens := by
  induction screens with
  | nil => simp [Fresh]
  | cons screen rest ih =>
      intro taken h
      obtain ⟨hself, hrest⟩ := admits_of_allErrors h
      obtain ⟨hids, htypes, hhandles⟩ := ih hrest
      refine ⟨fresh_cons hself.id hids ?_, fresh_cons hself.viewType htypes ?_,
        fresh_cons hself.handle hhandles ?_⟩
      · exact fun name hname => List.mem_cons.mpr hname
      · exact fun name hname => Entries.mem_names_putNew.mpr hname.symm
      · exact fun name hname => Entries.mem_names_putNew.mpr hname.symm

end TakenNames

/-! ### Bindings -/

namespace Scope

/-- Resolving bindings changes only what bindings bring into being. -/
structure SameDeclared (a b : Scope) : Prop where
  models : b.models = a.models
  parameters : b.parameters = a.parameters
  state : b.state = a.state

theorem SameDeclared.refl (a : Scope) : SameDeclared a a :=
  ⟨rfl, rfl, rfl⟩

theorem SameDeclared.trans {a b c : Scope} (h : SameDeclared a b) (h' : SameDeclared b c) :
    SameDeclared a c :=
  ⟨h'.models.trans h.models, h'.parameters.trans h.parameters, h'.state.trans h.state⟩

variable {catalog : Catalog} {scope : Scope}

theorem sameDeclared_resolveState (path : String) (expected : Option ValueType) :
    SameDeclared scope (scope.resolveState path expected).2 := by
  unfold resolveState
  dsimp only
  repeat' split
  all_goals exact ⟨rfl, rfl, rfl⟩

theorem sameDeclared_resolveEnvironment (path : String) :
    SameDeclared scope (scope.resolveEnvironment path).2 := by
  unfold resolveEnvironment useEnvironment
  repeat' split
  all_goals exact ⟨rfl, rfl, rfl⟩

theorem sameDeclared_resolveOn (catalog : Catalog) (scope : Scope) (element : Element)
    (binding : DataBinding) :
    SameDeclared scope (scope.resolveOn catalog element binding).2 := by
  have htype : ∀ expected, SameDeclared scope (scope.typeOf binding expected).2 := by
    intro expected
    unfold typeOf
    cases binding.source with
    | state => exact sameDeclared_resolveState binding.path expected
    | parameter => exact SameDeclared.refl scope
    | environment => exact sameDeclared_resolveEnvironment binding.path
  unfold resolveOn
  split
  · exact SameDeclared.refl scope
  · split
    · exact SameDeclared.refl scope
    next schema _ =>
      have h := htype schema.kind.expectedType?
      unfold resolve
      split
      next heq => rw [heq] at h; exact h
      next heq => rw [heq] at h; exact h

theorem sameDeclared_bindingErrors (catalog : Catalog) (screen : String)
    (bindings : List (Element × DataBinding)) :
    ∀ scope : Scope, SameDeclared scope (scope.bindingErrors catalog screen bindings).2 := by
  induction bindings with
  | nil => exact SameDeclared.refl
  | cons entry rest ih =>
      obtain ⟨element, binding⟩ := entry
      intro scope
      have hstep := sameDeclared_resolveOn catalog scope element binding
      unfold bindingErrors
      split
      next heq =>
        rw [heq] at hstep
        exact hstep.trans (ih _)
      next heq =>
        rw [heq] at hstep
        exact hstep.trans (ih _)

/-- **Bindings that the checks resolve, lowering resolves, and with the same scope.** -/
theorem bindAll_of_bindingErrors {screen : String} {bindings : List (Element × DataBinding)} :
    ∀ (resolved : Resolved) {scope : Scope},
      (scope.bindingErrors catalog screen bindings).1 = [] →
      ∃ bound, bindAll catalog scope resolved bindings =
        .ok (bound, (scope.bindingErrors catalog screen bindings).2) := by
  induction bindings with
  | nil => exact fun _ _ _ => ⟨_, rfl⟩
  | cons entry rest ih =>
      obtain ⟨element, binding⟩ := entry
      intro resolved scope h
      unfold bindingErrors at h ⊢
      unfold bindAll
      cases hresolve : scope.resolveOn catalog element binding with
      | mk result scope' =>
          rw [hresolve] at h
          cases result with
          | ok bound => exact ih _ h
          | error fault => cases h

/-- A resolved binding is to what the binding names. -/
theorem resolveOn_gives (catalog : Catalog) (scope : Scope) (element : Element)
    (binding : DataBinding) :
    Gives (scope.resolveOn catalog element binding).1 fun bound =>
      bound.source = binding.source ∧ bound.path = binding.path := by
  unfold resolveOn
  split
  · exact .error
  · split
    · exact .error
    · unfold resolve
      split
      · exact .error
      · exact .map fun _ _ => ⟨rfl, rfl⟩

/-- **A property is bound to what its last binding names.** -/
theorem lookup_of_bindAll {bindings : List (Element × DataBinding)} (node property : String) :
    ∀ {scope after : Scope} {resolved bound : Resolved},
      bindAll catalog scope resolved bindings = .ok (bound, after) →
      (bound.lookup (node, property)).map (fun b => (b.source, b.path)) =
        ((bindings.reverse.find? fun (owner, b) => owner.id = node ∧ b.property = property).map
          fun (_, b) => (b.source, b.path)).or
          ((resolved.lookup (node, property)).map fun b => (b.source, b.path)) := by
  induction bindings with
  | nil =>
      rintro scope _ resolved _ ⟨⟩
      rfl
  | cons entry rest ih =>
      obtain ⟨element, binding⟩ := entry
      intro scope after resolved bound hrun
      have hresolve := resolveOn_gives catalog scope element binding
      unfold bindAll at hrun
      split at hrun
      · cases hrun
      next found scope' heq =>
        rw [heq] at hresolve
        obtain ⟨hsource, hpath⟩ := hresolve found rfl
        rw [ih hrun, List.reverse_cons, List.find?_append, Option.map_or, Option.or_assoc]
        congr 1
        by_cases hkey : element.id = node ∧ binding.property = property
        · obtain ⟨rfl, rfl⟩ := hkey
          simp [hsource, hpath]
        · have hne : ((node, property) == (element.id, binding.property)) = false := by
            refine beq_false_of_ne fun heq => hkey ?_
            exact ⟨(Prod.mk.inj heq).1.symm, (Prod.mk.inj heq).2.symm⟩
          simp [hkey, List.lookup_cons, hne]

/-! ### Animations and handlers -/

theorem lookup_of_animationError {screen node path : String}
    (h : animationError screen scope node path = []) : ∃ bound, scope.lookup path = .ok bound := by
  unfold animationError at h
  split at h
  next bound hbound => exact ⟨bound, hbound⟩
  · cases h

/-- What a handler needs that the checks have found nothing against. -/
structure Callable (scope : Scope) (name : String) : Prop where
  notReserved : name ∉ reservedNames
  notFlag : Text.startsWith "isPresenting" name = false
  notMember : scope.isMember name = false

theorem callable_of_handlerFault? {seen : Entries HandlerParams} {name : String}
    {params : HandlerParams} (h : scope.handlerFault? seen name params = none) :
    scope.Callable name ∧ ∀ first, seen.lookup name = some first → first = params := by
  unfold handlerFault? at h
  split at h
  · cases h
  next hfree =>
    split at h
    · cases h
    next hmember =>
      simp only [Bool.or_eq_true, not_or, Bool.not_eq_true] at hfree hmember
      refine ⟨⟨by simpa using hfree.1, hfree.2, hmember⟩, ?_⟩
      intro first hfirst
      rw [hfirst] at h
      simpa using h

/-- A way to call handlers: those that have been called are called as before, and every call
among the actions is possible and has the parameters that the way says. -/
structure Settles (scope : Scope) (φ : String → HandlerParams) (seen : Entries HandlerParams)
    (actions : List (Element × Action)) : Prop where
  seen : ∀ name first, seen.lookup name = some first → φ name = first
  calls : ∀ element name args params, (element, Action.custom name args) ∈ actions →
    Action.handlerParams args = .ok params → φ name = params ∧ scope.Callable name

namespace Settles

variable {φ : String → HandlerParams} {seen : Entries HandlerParams}
  {rest : List (Element × Action)} {element : Element}

/-- An action that calls no handler, or one that has been refused before, adds nothing. -/
theorem skip (h : scope.Settles φ seen rest) {action : Action}
    (hno : ∀ name args params, action = .custom name args →
      Action.handlerParams args ≠ .ok params) :
    scope.Settles φ seen ((element, action) :: rest) := by
  refine ⟨h.seen, fun e name args params hmem hparams => ?_⟩
  rcases List.mem_cons.mp hmem with heq | hmem
  · cases heq
    exact absurd hparams (hno name args params rfl)
  · exact h.calls e name args params hmem hparams

/-- A call that agrees with those before it. -/
theorem call {name : String} {args : Entries Json} {params : HandlerParams}
    (h : scope.Settles φ (Entries.putNew name params seen) rest)
    (hparams : Action.handlerParams args = .ok params) (hcallable : scope.Callable name)
    (hfirst : ∀ first, seen.lookup name = some first → first = params) :
    scope.Settles φ seen ((element, .custom name args) :: rest) := by
  have hname : φ name = params := by
    refine h.seen name params ?_
    rw [Entries.lookup_putNew]
    cases hold : seen.lookup name with
    | none => simp
    | some first => simp [hfirst first hold]
  refine ⟨fun other first hother => h.seen other first ?_, ?_⟩
  · rw [Entries.lookup_putNew, hother]
    rfl
  · intro e name' args' params' hmem hparams'
    rcases List.mem_cons.mp hmem with heq | hmem
    · cases heq
      rw [hparams] at hparams'
      cases hparams'
      exact ⟨hname, hcallable⟩
    · exact h.calls e name' args' params' hmem hparams'

end Settles

/-- **Where no handler is refused, there is one way to call each of them.** -/
theorem exists_settles_of_handlerErrors {screen : String} {actions : List (Element × Action)} :
    ∀ {seen : Entries HandlerParams}, scope.handlerErrors screen seen actions = [] →
      ∃ φ, scope.Settles φ seen actions := by
  induction actions with
  | nil =>
      intro seen _
      exact ⟨fun name => (seen.lookup name).getD [], by simp +contextual, by simp⟩
  | cons entry rest ih =>
      obtain ⟨element, action⟩ := entry
      intro seen h
      cases action with
      | custom name args =>
          simp only [handlerErrors] at h
          split at h
          next hbad =>
            obtain ⟨φ, hφ⟩ := ih h
            refine ⟨φ, hφ.skip fun name' args' params heq => ?_⟩
            cases heq
            simp [hbad]
          next params hparams =>
            split at h
            · cases h
            next hfault =>
              obtain ⟨hcallable, hfirst⟩ := callable_of_handlerFault? hfault
              obtain ⟨φ, hφ⟩ := ih h
              exact ⟨φ, hφ.call hparams hcallable hfirst⟩
      | navigate target => exact (ih h).imp fun φ hφ => hφ.skip (by simp)
      | presentSheet target => exact (ih h).imp fun φ hφ => hφ.skip (by simp)
      | dismiss => exact (ih h).imp fun φ hφ => hφ.skip (by simp)

end Scope

/-! ### Variables -/

namespace AppDefinition

variable {app : AppDefinition} {screen : String} {v : Variable}

/-- Nothing is wrong with a variable: its name can be declared, no data model that its type holds
is unknown, and what it begins with is of its type. -/
structure FaultlessVariable (app : AppDefinition) (screen : String) (v : Variable) : Prop where
  name : variableFault? v.name = none
  type : app.typeErrors (screen ++ "." ++ v.name) v.type = []
  initial : ∃ value, Swift.defaultValue v.type v.default = .ok value

theorem faultless_of_variableError (h : app.variableError screen v = []) :
    app.FaultlessVariable screen v := by
  obtain ⟨h, hdefault⟩ := List.append_eq_nil_iff.mp h
  obtain ⟨hname, htype⟩ := List.append_eq_nil_iff.mp h
  refine ⟨?_, htype, ?_⟩
  · cases hfault : variableFault? v.name with
    | none => rfl
    | some fault =>
        rw [hfault] at hname
        cases hname
  · split at hdefault
    · cases hdefault
    next value hvalue => exact ⟨value, hvalue⟩

/-- Where the checks of several variables find nothing, the first one is new and faultless. -/
theorem variableErrors_cons {seen : List String} {rest : List Variable}
    (h : app.variableErrors screen seen (v :: rest) = []) :
    v.name ∉ seen ∧ app.FaultlessVariable screen v ∧
      app.variableErrors screen (v.name :: seen) rest = [] := by
  unfold variableErrors at h
  split at h
  · cases h
  next hnew =>
    obtain ⟨hself, hrest⟩ := List.append_eq_nil_iff.mp h
    exact ⟨fun hmem => hnew (List.contains_iff_mem.mpr hmem), faultless_of_variableError hself,
      hrest⟩

/-- Where a list of variables has no errors, each of them is faultless. -/
theorem faultless_of_variableErrors {vs : List Variable} :
    ∀ {seen : List String}, app.variableErrors screen seen vs = [] →
      ∀ v ∈ vs, app.FaultlessVariable screen v := by
  induction vs with
  | nil => simp
  | cons v rest ih =>
      intro seen h
      obtain ⟨-, hself, hrest⟩ := variableErrors_cons h
      rw [List.forall_mem_cons]
      exact ⟨hself, ih hrest⟩

end AppDefinition

namespace Scope

theorem mem_firstOfEach {declared : List Variable} {entry : String × Variable}
    (h : entry ∈ firstOfEach declared) : entry.2 ∈ declared ∧ entry.2.name = entry.1 := by
  rcases Entries.mem_foldl_putNew h with hnil | ⟨v, hv, rfl⟩
  · cases hnil
  · exact ⟨hv, rfl⟩

/-- Every variable of the scope of a screen is one that the screen declares. -/
theorem mem_declared {screen : Screen} {models : List DataModel} {entry : String × Variable}
    (h : entry ∈ (ofScreen screen models).parameters ∨ entry ∈ (ofScreen screen models).state) :
    entry.2 ∈ screen.declared ∧ entry.2.name = entry.1 := by
  rcases h with h | h
  · obtain ⟨hmem, hname⟩ := mem_firstOfEach h
    exact ⟨List.mem_append_left _ hmem, hname⟩
  · obtain ⟨hmem, hname⟩ := mem_firstOfEach h
    exact ⟨List.mem_append_right _ (List.mem_of_mem_filter hmem), hname⟩

theorem exists_members {scope : Scope}
    (h : ∀ entry : String × Variable, entry ∈ scope.parameters ∨ entry ∈ scope.state →
      ∃ value, Swift.defaultValue entry.2.type entry.2.default = .ok value) :
    ∃ members, scope.members = .ok members := by
  have hinitial : ∀ entry : String × Variable, entry ∈ scope.parameters ∨ entry ∈ scope.state →
      ∃ value, initialValue entry.2 = .ok value := by
    intro entry hentry
    obtain ⟨value, hvalue⟩ := h entry hentry
    exact ⟨value, by rw [initialValue, hvalue]⟩
  unfold members
  refine exists_bind_eq_ok (exists_mapM_eq_ok fun entry hentry => ?_) fun _ _ => ?_
  · exact exists_map_eq_ok (hinitial entry (Or.inl hentry))
  refine exists_bind_eq_ok (exists_mapM_eq_ok fun entry hentry => ?_) fun _ _ => ⟨_, rfl⟩
  exact exists_map_eq_ok (hinitial entry (Or.inr hentry))

end Scope

/-! ### Uses -/

theorem PropValue.action_mem_uses {value : PropValue} {node n : String} {a : Action} :
    Use.action n a ∈ value.uses node ↔ n = node ∧ a ∈ value.heldActions := by
  cases value <;> simp [uses, heldActions, and_comm, eq_comm]

namespace Element

variable {e : Element} {info : ComponentMeta}

/-- The actions among the uses of an element are its actions. -/
theorem action_mem_uses {n : String} {a : Action} :
    Use.action n a ∈ e.uses ↔ n = e.id ∧ a ∈ e.actions := by
  rw [uses, actions, List.mem_append, List.mem_append, and_or_left]
  refine or_congr ?_ ?_
  · simp only [propUses, List.mem_flatMap, PropValue.action_mem_uses]
    constructor
    · rintro ⟨entry, hentry, hnode, ha⟩
      exact ⟨hnode, entry, hentry, ha⟩
    · rintro ⟨hnode, entry, hentry, ha⟩
      exact ⟨entry, hentry, hnode, ha⟩
  · simp only [modifierUses, List.mem_map]
    constructor
    · rintro ⟨b, hb, heq⟩
      cases heq
      exact ⟨rfl, hb⟩
    · rintro ⟨rfl, ha⟩
      exact ⟨a, ha, rfl⟩

/-- Every action of a checked element is checked. -/
theorem Checked.check_action (h : e.Checked info) {a : Action} (ha : a ∈ e.actions) :
    a.check = .ok () := by
  rcases List.mem_append.mp ha with ha | ha
  · obtain ⟨entry, hentry, ha⟩ := List.mem_flatMap.mp ha
    exact h.actions entry hentry a ha
  · obtain ⟨m, hm, haction⟩ := List.mem_filterMap.mp ha
    have htriggers : m.triggers = true := by
      by_contra hno
      rw [Modifier.action?, if_neg hno] at haction
      cases haction
    obtain ⟨_, b, -, -, hcheck, hb⟩ :=
      Modifier.exists_action_of_check (h.modifiers m hm).2 htriggers
    rw [haction] at hb
    cases hb
    exact hcheck

end Element

/-- What a check of a custom action establishes. -/
theorem Action.usable_of_check {name : String} {args : Entries Json}
    (h : (Action.custom name args).check = .ok ()) :
    Names.isUsable name = true ∧ ∃ params, handlerParams args = .ok params := by
  simp only [check] at h
  split at h
  · cases h
  next husable =>
    obtain ⟨params, hparams, -⟩ := map_eq_ok.mp h
    exact ⟨by simpa using husable, params, hparams⟩

/-- An element is suited by surroundings in which its screens exist and its handlers can
be called. -/
theorem Setting.fine_of_mem_uses {s : Setting} {φ : String → HandlerParams} {e : Element}
    {info : ComponentMeta} (he : e.Checked info)
    (hscreens : ∀ r ∈ e.references, (s.screens.lookup r.target).isSome)
    (hhandlers : ∀ name args params, Action.custom name args ∈ e.actions →
      Action.handlerParams args = .ok params → φ name = params ∧ s.scope.Callable name) :
    ∀ use ∈ e.uses, s.Fine φ use := by
  intro use huse
  have htarget : ∀ {r : ScreenReference}, use.reference? = some r →
      (s.screens.lookup r.target).isSome := by
    intro r hr
    refine hscreens r ?_
    rw [Element.references_eq_uses]
    exact List.mem_filterMap.mpr ⟨use, huse, hr⟩
  cases use with
  | link node target => exact htarget rfl
  | tab node target => exact htarget rfl
  | action node a =>
      obtain ⟨-, ha⟩ := Element.action_mem_uses.mp huse
      cases a with
      | navigate target => exact htarget rfl
      | presentSheet target => exact htarget rfl
      | dismiss => trivial
      | custom name args =>
          obtain ⟨husable, params, hparams⟩ := Action.usable_of_check (he.check_action ha)
          obtain ⟨hφ, hcallable⟩ := hhandlers name args params ha hparams
          exact ⟨husable, hφ ▸ hparams, hcallable.notReserved, hcallable.notMember,
            hcallable.notFlag⟩

/-! ### One screen -/

/-- What the reference checks of a screen promise to lowering: its bindings resolve, its
members can be declared, and each of its elements finds what it needs. -/
structure Vetted (app : AppDefinition) (screen : Screen) (tree : NormalTree)
    (bound : Scope.Resolved) (scope : Scope) (φ : String → HandlerParams) : Prop where
  bindings : (Scope.ofScreen screen app.models).bindAll Catalog.standard [] tree.bindings =
    .ok (bound, scope)
  members : ∃ members, scope.members = .ok members
  elements : ∀ (tokens : DesignTokens), ∀ e ∈ tree.elements,
    Setting.Suits ⟨screen.id, tokens, ScreenNames.index app.screens, scope, bound⟩ φ e

namespace AppDefinition

variable {app : AppDefinition} {screen : Screen} {tree : NormalTree}

/-- Nothing is wrong with a screen: what it refers to exists, and its variables, its bindings and
its handlers have no errors. -/
structure FaultlessScreen (app : AppDefinition) (catalog : Catalog) (screen : Screen)
    (tree : NormalTree) : Prop where
  targets : ∀ r ∈ tree.references, app.hasScreen r.target = true
  declared : app.variableErrors screen.id [] screen.declared = []
  data : app.dataErrors catalog screen tree = []

theorem faultless_of_screenErrors {catalog : Catalog}
    (h : app.screenErrors catalog screen tree = []) :
    app.FaultlessScreen catalog screen tree := by
  obtain ⟨h, hdata⟩ := List.append_eq_nil_iff.mp h
  obtain ⟨hnavigation, hvariables⟩ := List.append_eq_nil_iff.mp h
  refine ⟨fun r hr => ?_, hvariables, hdata⟩
  rw [navigationErrors, List.map_eq_nil_iff, List.filter_eq_nil_iff] at hnavigation
  simpa using hnavigation r hr

/-- Where the checks of several data models find nothing, the name of the first one is new, and
its type is not that of the app. -/
theorem modelNameErrors_cons {seen : List String} {model : DataModel} {rest : List DataModel}
    (h : app.modelNameErrors seen (model :: rest) = []) :
    model.name ∉ seen ∧
      Names.typeName? model.name ≠ some (Names.appTypeName app.config.name) ∧
      app.modelNameErrors (model.name :: seen) rest = [] := by
  obtain ⟨hself, hrest⟩ := List.append_eq_nil_iff.mp h
  obtain ⟨hnew, htype⟩ := List.append_eq_nil_iff.mp hself
  refine ⟨fun hmem => ?_, fun heq => ?_, hrest⟩
  · rw [if_pos (List.contains_iff_mem.mpr hmem)] at hnew
    cases hnew
  · rw [if_pos heq] at htype
    cases htype

/-- Nothing is wrong with an app whose screens have the given trees. -/
structure Faultless (app : AppDefinition) (trees : List NormalTree) (catalog : Catalog) :
    Prop where
  names : TakenNames.none.allErrors app app.screens = []
  entry : app.hasScreen app.entryScreen = true
  tabs : ∀ item ∈ app.tabs, app.hasScreen item.screen = true
  models : app.modelNameErrors [] app.models = []
  properties : ∀ model ∈ app.models, ∀ p ∈ model.properties,
    app.typeErrors (model.name ++ "." ++ p.name) p.type = []
  screens : ∀ entry ∈ app.screens.zip trees, app.FaultlessScreen catalog entry.1 entry.2

/-- **An app without reference errors is faultless.** -/
theorem faultless_of_referenceErrors {trees : List NormalTree} {catalog : Catalog}
    (h : app.referenceErrors trees catalog = []) : app.Faultless trees catalog := by
  obtain ⟨h, hscreens⟩ := List.append_eq_nil_iff.mp h
  obtain ⟨h, hproperties⟩ := List.append_eq_nil_iff.mp h
  obtain ⟨h, hmodels⟩ := List.append_eq_nil_iff.mp h
  obtain ⟨h, htabs⟩ := List.append_eq_nil_iff.mp h
  obtain ⟨hnames, hentry⟩ := List.append_eq_nil_iff.mp h
  refine ⟨hnames, ?_, fun item hitem => ?_, hmodels, fun model hmodel p hp => ?_,
    fun entry hmem => ?_⟩
  · unfold entryErrors at hentry
    split at hentry
    next hyes => exact hyes
    · cases hentry
  · rw [tabErrors, List.map_eq_nil_iff, List.filter_eq_nil_iff] at htabs
    simpa using htabs item hitem
  · have hone := List.flatMap_eq_nil_iff.mp hproperties model hmodel
    exact List.flatMap_eq_nil_iff.mp hone p hp
  · exact faultless_of_screenErrors (List.flatMap_eq_nil_iff.mp hscreens entry hmem)

/-- The components of a checked tree are all known, so none of its bindings is passed over. -/
theorem known_bindings (hchecked : tree.root.Checked) :
    (tree.bindings.filter fun (e, _) => (Catalog.standard.find? e.type).isSome) =
      tree.bindings := by
  refine List.filter_eq_self.mpr fun entry hentry => ?_
  obtain ⟨e, he, hbinding⟩ := List.mem_flatMap.mp hentry
  obtain ⟨b, -, rfl⟩ := List.mem_map.mp hbinding
  obtain ⟨_, info, hinfo, -⟩ := Tree.forall_preorder_of_each tree.root hchecked e he
  simp [hinfo.type]

/-- **A faultless screen is vetted.** -/
theorem exists_vetted (hchecked : tree.root.Checked)
    (hreferences : tree.references = tree.elements.flatMap Element.references)
    (h : app.FaultlessScreen Catalog.standard screen tree) :
    ∃ bound scope φ, Vetted app screen tree bound scope φ := by
  have hdata := h.data
  unfold dataErrors at hdata
  rw [known_bindings hchecked] at hdata
  have hsame := Scope.sameDeclared_bindingErrors Catalog.standard screen.id tree.bindings
    (Scope.ofScreen screen app.models)
  obtain ⟨hfirst, hhandlers⟩ := List.append_eq_nil_iff.mp hdata
  obtain ⟨hbindings, hanimations⟩ := List.append_eq_nil_iff.mp hfirst
  obtain ⟨bound, hbound⟩ := Scope.bindAll_of_bindingErrors [] hbindings
  obtain ⟨φ, hφ⟩ := Scope.exists_settles_of_handlerErrors hhandlers
  refine ⟨bound, _, φ, hbound, ?_, fun tokens e he => ⟨?_, ?_⟩⟩
  · refine Scope.exists_members fun entry hentry => ?_
    rw [hsame.parameters, hsame.state] at hentry
    exact (faultless_of_variableErrors h.declared entry.2 (Scope.mem_declared hentry).1).initial
  · intro path hpath
    have hone := List.flatMap_eq_nil_iff.mp hanimations e he
    exact Scope.lookup_of_animationError (List.flatMap_eq_nil_iff.mp hone path hpath)
  · obtain ⟨_, info, hinfo, -⟩ := Tree.forall_preorder_of_each tree.root hchecked e he
    refine Setting.fine_of_mem_uses hinfo (fun r hr => ?_) fun name args params ha hparams => ?_
    · refine ScreenNames.isSome_lookup_index (h.targets r ?_)
      rw [hreferences]
      exact List.mem_flatMap.mpr ⟨e, he, hr⟩
    · refine hφ.calls e name args params (List.mem_flatMap.mpr ⟨e, he, ?_⟩) hparams
      exact List.mem_map.mpr ⟨_, ha, rfl⟩

end AppDefinition

end Screenwright
