/-
What bindings are bound to.

A binding names a source and a path.  Its root, the first name of the path, is something that the
view declares: a parameter, state that the screen declares or that bindings have brought into
being, or a value of the environment.  From the type of the root the path leads on through data
models, and the type at its end is the one that the bound property expects.  The two are
compared while the bindings are resolved, one after the other, in a scope that grows; the view
is written afterwards, from the scope that the last of them leaves.  That they are the same types
all the same is the content of this module: what a scope `Holds` under a root while a binding is
resolved, it still holds at the end, with the same type, and the view has one member for it.
-/
import Screenwright.Proofs.Members
import Screenwright.Proofs.Paths

namespace Screenwright

open Steps Swift

open DataBinding (rootOf segmentsOf)

/-! ### Types of bindings -/

/-- The binding is of state that the screen does not declare. -/
def Screen.Brings (screen : Screen) (b : DataBinding) : Prop :=
  b.source = .state ∧ b.root ∉ screen.state.map Variable.name

/-- The type of the root of a binding: the one with which the screen declares it, or the one that
the bindings of undeclared state expect.  Of the values of the environment only `isEnabled` has a
type that can be bound. -/
inductive RootType (catalog : Catalog) (screen : Screen) (tree : NormalTree) :
    BindingSource → String → ValueType → Prop where
  | state {v : Variable} (hv : v ∈ screen.state) :
      RootType catalog screen tree .state v.name v.type
  | brought {entry : Element × DataBinding} {type : ValueType} (hentry : entry ∈ tree.bindings)
      (hbrings : screen.Brings entry.2)
      (htype : catalog.expectedType? entry.1 entry.2 = some type) :
      RootType catalog screen tree .state entry.2.root type
  | parameter {v : Variable} (hv : v ∈ screen.parameters) :
      RootType catalog screen tree .parameter v.name v.type
  | isEnabled : RootType catalog screen tree .environment "isEnabled" .bool

/-- The type that is found by following the path of a binding from its root. -/
def BindingType (catalog : Catalog) (models : List DataModel) (screen : Screen)
    (tree : NormalTree) (b : DataBinding) (type : ValueType) : Prop :=
  ∃ first, RootType catalog screen tree b.source b.root first ∧
    PathType models first b.segments.tail type

namespace Swift

/-- The name under which a member can be bound from a source. -/
def Member.nameIn? : BindingSource → Member → Option String
  | .state, state name _ _ => some name
  | .environment, environment _ name => some name
  | .parameter, parameter name _ _ => some name
  | _, _ => none

/-- The member can be bound under the name from the source, and from no other. -/
def Member.IsNamed (own : BindingSource) (name : String) (m : Member) : Prop :=
  ∀ source, m.nameIn? source = if source = own then some name else none

theorem Member.isNamed_parameter (name type : String) (value : Value) :
    (parameter name type value).IsNamed .parameter name := by
  intro source
  cases source <;> rfl

theorem Member.isNamed_state (name type : String) (value : Value) :
    (state name type value).IsNamed .state name := by
  intro source
  cases source <;> rfl

theorem Member.isNamed_environment (key name : String) :
    (environment key name).IsNamed .environment name := by
  intro source
  cases source <;> rfl

/-- The member is declared with the type. -/
def Member.HasType : Member → ValueType → Prop
  | state _ written _, type => written = typeText type
  | parameter _ written _, type => written = typeText type
  | environment key _, type => key = "isEnabled" ∧ type = .bool
  | router, _ => False

end Swift

/-- The bindings of a tree fit the declarations of the view that it becomes. -/
structure WellBound (catalog : Catalog) (models : List DataModel) (screen : Screen)
    (tree : NormalTree) (view : ScreenView) : Prop where
  /-- The root of every binding is one member of the view, which is declared with the type of
  the root. -/
  stored : ∀ entry ∈ tree.bindings, ∃ m,
    view.members.filter (fun m => m.nameIn? entry.2.source = some entry.2.root) = [m] ∧
      ∀ type, RootType catalog screen tree entry.2.source entry.2.root type → m.HasType type
  /-- Unless it is shown inside a text, a binding has the type that its property expects, and no
  other. -/
  typed : ∀ entry ∈ tree.bindings, ∃ info schema,
    catalog.find? entry.1.type = some info ∧ info.prop? entry.2.property = some schema ∧
      (schema.isInterpolated = false → ∃ expected, schema.kind.expectedType? = some expected ∧
        ∀ type, BindingType catalog models screen tree entry.2 type ↔ type = expected)
  /-- Bindings of one name that the screen does not declare expect one type. -/
  agree : ∀ entry ∈ tree.bindings, screen.Brings entry.2 →
    ∃ type, catalog.expectedType? entry.1 entry.2 = some type ∧
      ∀ other ∈ tree.bindings, screen.Brings other.2 → other.2.root = entry.2.root →
        catalog.expectedType? other.1 other.2 = some type

/-! ### What a scope holds -/

namespace Scope

variable {catalog : Catalog} {scope between after : Scope} {e : Element} {b : DataBinding}
  {bindings : List (Element × DataBinding)}

/-- What a scope holds under the root of a binding, with its type. -/
inductive Holds (scope : Scope) : BindingSource → String → Option ValueType → Prop where
  | state {name : String} {v : Variable} (h : scope.state.lookup name = some v) :
      Holds scope .state name (some v.type)
  | inferred {name : String} {type : ValueType} (h : scope.inferred.lookup name = some type) :
      Holds scope .state name (some type)
  | parameter {name : String} {v : Variable} (h : scope.parameters.lookup name = some v) :
      Holds scope .parameter name (some v.type)
  | environment {name : String} {isBool : Bool} (hname : name ∈ scope.environment)
      (h : environmentKeys.lookup name = some isBool) :
      Holds scope .environment name (if isBool then some .bool else none)

/-- The root of the binding is held, and the type is the one at the end of its path; there is none
if the root has none. -/
def Traces (scope : Scope) (models : List DataModel) (b : DataBinding)
    (found : Option ValueType) : Prop :=
  ∃ held, scope.Holds b.source b.root held ∧ ∀ type, found = some type ↔
    ∃ first, held = some first ∧ PathType models first b.segments.tail type

theorem segments_tail_of_length_le_one {path : String} (h : ¬ 1 < (segmentsOf path).length) :
    (segmentsOf path).tail = [] := by
  rw [← List.length_eq_zero_iff, List.length_tail]
  omega

/-- Where all bindings are resolved, each of them is resolved in a scope with the same
declarations. -/
theorem exists_resolveOn_of_bindAll :
    ∀ {scope : Scope} {resolved bound : Resolved},
      bindAll catalog scope resolved bindings = .ok (bound, after) →
      ∀ entry ∈ bindings, ∃ between found next, SameDeclared scope between ∧
        between.resolveOn catalog entry.1 entry.2 = (.ok found, next) := by
  induction bindings with
  | nil => simp
  | cons entry rest ih =>
      obtain ⟨element, binding⟩ := entry
      intro scope resolved bound h
      unfold bindAll at h
      have hsame := sameDeclared_resolveOn catalog scope element binding
      split at h
      · cases h
      next found between heq =>
        rw [heq] at hsame
        rw [List.forall_mem_cons]
        refine ⟨⟨scope, found, between, SameDeclared.refl scope, heq⟩, fun other hother => ?_⟩
        obtain ⟨last, found', next, hsame', heq'⟩ := ih h other hother
        exact ⟨last, found', next, hsame.trans hsame', heq'⟩

/-- A binding that is resolved has a property, and a type with which the property is content. -/
theorem typeOf_of_resolveOn {found : Bound}
    (h : scope.resolveOn catalog e b = (.ok found, after)) :
    ∃ info schema, catalog.find? e.type = some info ∧ info.prop? b.property = some schema ∧
      (scope.typeOf b schema.kind.expectedType?).1 = .ok found.type ∧
      checkType schema b.path found.type = .ok () := by
  unfold resolveOn at h
  split at h
  · cases h
  next info hinfo =>
    split at h
    · cases h
    next schema hschema =>
      refine ⟨info, schema, hinfo, hschema, ?_⟩
      unfold resolve at h
      split at h
      · cases h
      next type _ htype =>
        obtain ⟨_, hcheck, hbound⟩ := map_eq_ok.mp (Prod.mk.inj h).1
        rw [htype, ← hbound]
        exact ⟨rfl, hcheck⟩

/-- A property that is content with a type expects it, unless it is shown inside a text. -/
theorem eq_of_checkType {schema : PropSchema} {path : String} {found : Option ValueType}
    {expected : ValueType} (h : checkType schema path found = .ok ())
    (hschema : schema.isInterpolated = false)
    (hexpected : schema.kind.expectedType? = some expected) :
    found = some expected := by
  simp only [checkType, hexpected, hschema] at h
  cases found with
  | none => cases h
  | some actual =>
      by_cases hsame : actual = expected
      · rw [hsame]
      · simp [hsame] at h

/-- A path into state has a declared root, or it is a name that takes the expected type. -/
theorem cases_of_resolveState {path : String} {expected : Option ValueType} {type : ValueType}
    (h : (scope.resolveState path expected).1 = .ok type) :
    (∃ v, scope.state.lookup (rootOf path) = some v ∧ scope.typeAlong v.type path = .ok type) ∨
      (scope.state.lookup (rootOf path) = none ∧ ¬ 1 < (segmentsOf path).length ∧
        expected = some type) := by
  unfold resolveState at h
  dsimp only at h
  cases hlookup : scope.state.lookup (rootOf path) with
  | some v =>
      rw [hlookup] at h
      exact Or.inl ⟨v, rfl, h⟩
  | none =>
      rw [hlookup] at h
      dsimp only at h
      split at h
      · cases h
      next hlength =>
        refine Or.inr ⟨rfl, hlength, ?_⟩
        split at h
        · cases h
        · split at h
          · cases h
          · cases expected with
            | none => cases h
            | some wanted =>
                dsimp only at h
                split at h
                next first hfirst =>
                  split at h
                  · exact congrArg some (Except.ok.inj h)
                  · cases h
                next => exact congrArg some (Except.ok.inj h)

/-- A path into the environment is a key. -/
theorem key_of_resolveEnvironment {path : String} {found : Option ValueType}
    (h : (scope.resolveEnvironment path).1 = .ok found) :
    ¬ 1 < (segmentsOf path).length ∧ ∃ isBool, environmentKeys.lookup path = some isBool ∧
      found = if isBool then some .bool else none := by
  unfold resolveEnvironment at h
  split at h
  · cases h
  next hlength =>
    split at h
    · cases h
    next isBool hkey => exact ⟨hlength, isBool, hkey, (Except.ok.inj h).symm⟩

/-- Of the environment values only one is a boolean. -/
theorem eq_isEnabled_of_lookup {key : String} (h : environmentKeys.lookup key = some true) :
    key = "isEnabled" := by
  have honly : ∀ entry ∈ environmentKeys, entry.2 = true → entry.1 = "isEnabled" := by decide
  exact honly _ (Entries.mem_of_lookup h) rfl

/-- State that comes into being has no parts. -/
theorem ResolvesAll.rootOf_eq (h : ResolvesAll catalog scope bindings after) :
    ∀ entry ∈ bindings, scope.Brings entry.2 → rootOf entry.2.path = entry.2.path := by
  induction h with
  | nil => simp
  | cons hstep hrest ih =>
      rw [List.forall_mem_cons]
      refine ⟨fun hbrings => ?_, fun entry hentry hbrings => ?_⟩
      · cases hstep with
        | declared _ hdeclared => exact absurd hdeclared hbrings.2
        | inferred _ hroot => exact hroot
        | parameter hsource => exact absurd (hbrings.1.symm.trans hsource) (by decide)
        | environment hsource => exact absurd (hbrings.1.symm.trans hsource) (by decide)
      · exact ih entry hentry ((brings_iff hstep.sameDeclared).mpr hbrings)

end Scope

/-! ### The scope of a screen -/

/-- What the scope of a screen is told by: all bindings of the tree have been resolved in it, and
neither two variables of the screen nor two data models or properties have one name. -/
structure Wired (catalog : Catalog) (models : List DataModel) (screen : Screen)
    (tree : NormalTree) (scope : Scope) : Prop where
  bindings : ∃ bound, (Scope.ofScreen screen models).bindAll catalog [] tree.bindings =
    .ok (bound, scope)
  declared : (screen.declared.map Variable.name).Nodup
  models : ModelsApart models

namespace Wired

variable {catalog : Catalog} {models : List DataModel} {screen : Screen} {tree : NormalTree}
  {scope : Scope} {source : BindingSource} {name : String} {v : Variable} {type : ValueType}

theorem run (h : Wired catalog models screen tree scope) :
    Scope.ResolvesAll catalog (.ofScreen screen models) tree.bindings scope := by
  obtain ⟨_, hbindings⟩ := h.bindings
  exact Scope.resolvesAll_of_bindAll hbindings

theorem tidy (h : Wired catalog models screen tree scope) : scope.Tidy :=
  h.run.tidy (Scope.tidy_ofScreen screen models)

/-- Two variables of a screen with one name are the same. -/
theorem eq_of_name_eq (h : Wired catalog models screen tree scope) {other : Variable}
    (hv : v ∈ screen.declared) (hother : other ∈ screen.declared) (hname : v.name = other.name) :
    v = other :=
  List.inj_on_of_nodup_map h.declared hv hother hname

/-- What is found under a name that the screen declares as state. -/
theorem lookup_state_iff (h : Wired catalog models screen tree scope) :
    scope.state.lookup name = some v ↔ v ∈ screen.state ∧ v.name = name := by
  have hfound : ∀ {name v}, scope.state.lookup name = some v →
      v ∈ screen.state ∧ v.name = name := by
    intro name v hlookup
    rw [h.run.sameDeclared.state] at hlookup
    obtain ⟨hmem, hname⟩ := Scope.mem_firstOfEach (Entries.mem_of_lookup hlookup)
    exact ⟨List.mem_of_mem_filter hmem, hname⟩
  refine ⟨hfound, ?_⟩
  rintro ⟨hv, rfl⟩
  have hnotParameter : v.name ∉ Entries.names (Scope.ofScreen screen models).parameters := by
    intro hmem
    obtain ⟨other, hother, heq⟩ := List.mem_map.mp (Scope.mem_names_firstOfEach.mp hmem)
    have hnodup := h.declared
    rw [Screen.declared, List.map_append, List.nodup_append] at hnodup
    exact hnodup.2.2 _ (List.mem_map_of_mem hother) _ (List.mem_map_of_mem hv) heq
  have hmem := (Scope.mem_names_state_ofScreen screen models).mpr
    ⟨List.mem_map_of_mem hv, hnotParameter⟩
  rw [← h.run.sameDeclared.state] at hmem
  obtain ⟨other, hother⟩ := Entries.exists_lookup hmem
  obtain ⟨hmem, hname⟩ := hfound hother
  rw [hother, h.eq_of_name_eq (List.mem_append_right _ hmem) (List.mem_append_right _ hv) hname]

/-- What is found under the name of a parameter. -/
theorem lookup_parameters_iff (h : Wired catalog models screen tree scope) :
    scope.parameters.lookup name = some v ↔ v ∈ screen.parameters ∧ v.name = name := by
  have hfound : ∀ {name v}, scope.parameters.lookup name = some v →
      v ∈ screen.parameters ∧ v.name = name := by
    intro name v hlookup
    rw [h.run.sameDeclared.parameters] at hlookup
    exact Scope.mem_firstOfEach (Entries.mem_of_lookup hlookup)
  refine ⟨hfound, ?_⟩
  rintro ⟨hv, rfl⟩
  have hmem : v.name ∈ Entries.names scope.parameters := by
    rw [h.run.sameDeclared.parameters]
    exact Scope.mem_names_firstOfEach.mpr (List.mem_map_of_mem hv)
  obtain ⟨other, hother⟩ := Entries.exists_lookup hmem
  obtain ⟨hmem, hname⟩ := hfound hother
  rw [hother, h.eq_of_name_eq (List.mem_append_left _ hmem) (List.mem_append_left _ hv) hname]

/-- The names of declared state are those that the screen says. -/
theorem mem_names_state_iff (h : Wired catalog models screen tree scope) :
    name ∈ Entries.names scope.state ↔ name ∈ screen.state.map Variable.name := by
  constructor
  · intro hmem
    obtain ⟨v, hlookup⟩ := Entries.exists_lookup hmem
    obtain ⟨hv, rfl⟩ := h.lookup_state_iff.mp hlookup
    exact List.mem_map_of_mem hv
  · intro hmem
    obtain ⟨v, hv, rfl⟩ := List.mem_map.mp hmem
    exact Entries.mem_names_of_lookup (h.lookup_state_iff.mpr ⟨hv, rfl⟩)

theorem brings_iff (h : Wired catalog models screen tree scope) {b : DataBinding} :
    (Scope.ofScreen screen models).Brings b ↔ screen.Brings b := by
  rw [← Scope.brings_iff h.run.sameDeclared, Scope.Brings, Screen.Brings, h.mem_names_state_iff]
  rfl

/-- Bindings that bring a name into being expect the type that it has in the end. -/
theorem expectedType?_eq (h : Wired catalog models screen tree scope)
    {entry : Element × DataBinding} (hentry : entry ∈ tree.bindings)
    (hbrings : screen.Brings entry.2) :
    ∃ type, catalog.expectedType? entry.1 entry.2 = some type ∧
      scope.inferred.lookup entry.2.root = some type := by
  have hbrings := h.brings_iff.mpr hbrings
  have hroot : entry.2.root = entry.2.path := h.run.rootOf_eq entry hentry hbrings
  rw [hroot]
  exact h.run.expectedType?_eq entry hentry hbrings

/-! ### Roots -/

theorem rootType_state_iff (h : Wired catalog models screen tree scope)
    (hlookup : scope.state.lookup name = some v) :
    RootType catalog screen tree .state name type ↔ v.type = type := by
  obtain ⟨hv, rfl⟩ := h.lookup_state_iff.mp hlookup
  constructor
  · generalize hname : v.name = name
    intro hroot
    cases hroot with
    | state hother =>
        rw [h.eq_of_name_eq (List.mem_append_right _ hv) (List.mem_append_right _ hother) hname]
    | brought hentry hbrings => exact absurd (List.mem_map.mpr ⟨v, hv, hname⟩) hbrings.2
  · rintro rfl
    exact .state hv

theorem rootType_inferred_iff (h : Wired catalog models screen tree scope) {found : ValueType}
    (hlookup : scope.inferred.lookup name = some found) :
    RootType catalog screen tree .state name type ↔ found = type := by
  have hinferred := Entries.mem_names_of_lookup hlookup
  constructor
  · intro hroot
    cases hroot with
    | state hother =>
        have hnew := (h.tidy.undeclared _ hinferred).state
        rw [h.mem_names_state_iff] at hnew
        exact absurd (List.mem_map_of_mem hother) hnew
    | brought hentry hbrings htype =>
        obtain ⟨expected, hexpected, hfound⟩ := h.expectedType?_eq hentry hbrings
        rw [hlookup, ← hexpected, htype] at hfound
        exact Option.some.inj hfound
  · rintro rfl
    rcases h.run.mem_names_inferred.mp hinferred with hnil | ⟨entry, hentry, hbrings, hname⟩
    · cases hnil
    · have hbrings := h.brings_iff.mp hbrings
      obtain ⟨expected, hexpected, hfound⟩ := h.expectedType?_eq hentry hbrings
      have hroot : entry.2.root = name :=
        (h.run.rootOf_eq entry hentry (h.brings_iff.mpr hbrings)).trans hname
      rw [hroot, hlookup] at hfound
      rw [← hfound] at hexpected
      rw [← hroot]
      exact .brought hentry hbrings hexpected

theorem rootType_parameter_iff (h : Wired catalog models screen tree scope)
    (hlookup : scope.parameters.lookup name = some v) :
    RootType catalog screen tree .parameter name type ↔ v.type = type := by
  obtain ⟨hv, rfl⟩ := h.lookup_parameters_iff.mp hlookup
  constructor
  · generalize hname : v.name = name
    intro hroot
    cases hroot with
    | parameter hother =>
        rw [h.eq_of_name_eq (List.mem_append_left _ hv) (List.mem_append_left _ hother) hname]
  · rintro rfl
    exact .parameter hv

theorem rootType_environment_iff {isBool : Bool}
    (hkey : Scope.environmentKeys.lookup name = some isBool) :
    RootType catalog screen tree .environment name type ↔
      (if isBool then some .bool else none) = some type := by
  constructor
  · rintro ⟨⟩
    have hbool : Scope.environmentKeys.lookup "isEnabled" = some true := by decide
    rw [hbool] at hkey
    cases hkey
    rfl
  · intro hbool
    cases isBool with
    | false => cases hbool
    | true =>
        cases hbool
        obtain rfl := Scope.eq_isEnabled_of_lookup hkey
        exact .isEnabled

/-- **The type of a root is the one with which the scope holds it.** -/
theorem rootType_iff (h : Wired catalog models screen tree scope) {held : Option ValueType}
    (hheld : scope.Holds source name held) :
    RootType catalog screen tree source name type ↔ held = some type := by
  cases hheld with
  | state hlookup => rw [h.rootType_state_iff hlookup, Option.some.injEq]
  | inferred hlookup => rw [h.rootType_inferred_iff hlookup, Option.some.injEq]
  | parameter hlookup => rw [h.rootType_parameter_iff hlookup, Option.some.injEq]
  | environment hname hkey => exact rootType_environment_iff hkey

/-! ### Paths from held roots -/

/-- A path that begins at a held type leads to the type at its end, wherever it is followed. -/
theorem traces_of_typeAlong (h : Wired catalog models screen tree scope) {between : Scope}
    (hmodels : between.models = models) {b : DataBinding} {first found : ValueType}
    (hheld : scope.Holds b.source b.root (some first))
    (hfollow : between.typeAlong first b.path = .ok found) :
    scope.Traces models b (some found) := by
  refine ⟨some first, hheld, fun type => ?_⟩
  rw [Scope.typeAlong, hmodels] at hfollow
  simp only [Option.some.injEq, exists_eq_left', DataBinding.segments,
    ← Scope.follow_eq_ok_iff h.models, hfollow, Except.ok.injEq]

/-- Bindings to state lead on from what is declared, or they are names that have come into
being. -/
theorem traces_of_resolveState (h : Wired catalog models screen tree scope) {between : Scope}
    (hsame : Scope.SameDeclared (.ofScreen screen models) between)
    {entry : Element × DataBinding} (hentry : entry ∈ tree.bindings)
    (hsource : entry.2.source = .state) {found : ValueType}
    (hfound : (between.resolveState entry.2.path
      (catalog.expectedType? entry.1 entry.2)).1 = .ok found) :
    scope.Traces models entry.2 (some found) := by
  have hstate : between.state = scope.state :=
    hsame.state.trans h.run.sameDeclared.state.symm
  rcases Scope.cases_of_resolveState hfound with ⟨v, hlookup, hfollow⟩ | ⟨hnone, hlength, hwant⟩
  · rw [hstate] at hlookup
    refine h.traces_of_typeAlong hsame.models ?_ hfollow
    rw [hsource]
    exact .state hlookup
  · have hbrings : screen.Brings entry.2 := by
      refine ⟨hsource, fun hmem => ?_⟩
      obtain ⟨v, hv⟩ := Entries.exists_lookup (h.mem_names_state_iff.mpr hmem)
      rw [hstate] at hnone
      exact Option.some_ne_none v (hv.symm.trans hnone)
    obtain ⟨expected, hexpected, hlookup⟩ := h.expectedType?_eq hentry hbrings
    obtain rfl : expected = found := Option.some.inj (hexpected.symm.trans hwant)
    have hfollow : between.typeAlong expected entry.2.path = .ok expected := by
      rw [Scope.typeAlong, Scope.segments_tail_of_length_le_one hlength]
      rfl
    refine h.traces_of_typeAlong hsame.models ?_ hfollow
    rw [hsource]
    exact .inferred hlookup

/-- Bindings to parameters lead on from what is declared. -/
theorem traces_of_resolveParameter (h : Wired catalog models screen tree scope) {between : Scope}
    (hsame : Scope.SameDeclared (.ofScreen screen models) between) {b : DataBinding}
    (hsource : b.source = .parameter) {found : ValueType}
    (hfound : between.resolveParameter b.path = .ok found) :
    scope.Traces models b (some found) := by
  unfold Scope.resolveParameter at hfound
  dsimp only at hfound
  split at hfound
  next v hlookup =>
    rw [hsame.parameters.trans h.run.sameDeclared.parameters.symm] at hlookup
    refine h.traces_of_typeAlong hsame.models ?_ hfound
    rw [hsource]
    exact .parameter hlookup
  · cases hfound

/-- Bindings to the environment have no parts to lead to. -/
theorem traces_of_resolveEnvironment (h : Wired catalog models screen tree scope)
    {between : Scope} {entry : Element × DataBinding} (hentry : entry ∈ tree.bindings)
    (hsource : entry.2.source = .environment) {found : Option ValueType}
    (hfound : (between.resolveEnvironment entry.2.path).1 = .ok found) :
    scope.Traces models entry.2 found := by
  obtain ⟨hlength, isBool, hkey, rfl⟩ := Scope.key_of_resolveEnvironment hfound
  have hroot : entry.2.root = entry.2.path := DataBinding.rootOf_of_length_le_one hlength
  have hused : entry.2.path ∈ scope.environment :=
    h.run.mem_environment.mpr (Or.inr ⟨entry, hentry, hsource, rfl⟩)
  refine ⟨if isBool then some .bool else none, ?_, fun type => ?_⟩
  · rw [hsource, hroot]
    exact .environment hused hkey
  · rw [DataBinding.segments, Scope.segments_tail_of_length_le_one hlength]
    constructor
    · exact fun htype => ⟨type, htype, .whole⟩
    · rintro ⟨first, hfirst, hpath⟩
      rw [hfirst, hpath.eq_of_nil]

/-- **Every binding has been resolved with the type to which it traces back.** -/
theorem exists_traced (h : Wired catalog models screen tree scope)
    {entry : Element × DataBinding} (hentry : entry ∈ tree.bindings) :
    ∃ info schema found, catalog.find? entry.1.type = some info ∧
      info.prop? entry.2.property = some schema ∧
      Scope.checkType schema entry.2.path found = .ok () ∧
      scope.Traces models entry.2 found := by
  obtain ⟨_, hbindings⟩ := h.bindings
  obtain ⟨between, bound, next, hsame, hresolve⟩ :=
    Scope.exists_resolveOn_of_bindAll hbindings entry hentry
  obtain ⟨info, schema, hinfo, hschema, htype, hcheck⟩ := Scope.typeOf_of_resolveOn hresolve
  refine ⟨info, schema, bound.type, hinfo, hschema, hcheck, ?_⟩
  have hexpected : catalog.expectedType? entry.1 entry.2 = schema.kind.expectedType? := by
    rw [Catalog.expectedType?, hinfo, Option.bind_some, hschema, Option.bind_some]
  rw [← hexpected] at htype
  unfold Scope.typeOf at htype
  split at htype
  next hsource =>
    obtain ⟨found, hfound, heq⟩ := map_eq_ok.mp htype
    rw [← heq]
    exact h.traces_of_resolveState hsame hentry hsource hfound
  next hsource =>
    obtain ⟨found, hfound, heq⟩ := map_eq_ok.mp htype
    rw [← heq]
    exact h.traces_of_resolveParameter hsame hsource hfound
  next hsource => exact h.traces_of_resolveEnvironment hentry hsource htype

end Wired

/-! ### Members -/

namespace Scope

/-- The names that can be bound from a source in a finished view. -/
def boundNames (scope : Scope) (ledger : Ledger) : BindingSource → List String
  | .state => Entries.names scope.state ++ Entries.names scope.inferred ++
    (Entries.names ledger.sheets).filter fun flag => !scope.isMember flag
  | .environment => scope.environment ++ if ledger.usesDismiss then ["dismiss"] else []
  | .parameter => Entries.names scope.parameters

/-- Members that are named by the items of a list, all in one source, have there the names of the
list, and none in the others. -/
theorem filterMap_nameIn? {α : Type} {own : BindingSource} {key : α → String} {xs : List α}
    {found : List Member} (h : List.Forall₂ (fun x (m : Member) => m.IsNamed own (key x)) xs found)
    (source : BindingSource) :
    found.filterMap (Member.nameIn? source) = if source = own then xs.map key else [] := by
  induction h with
  | nil => simp
  | cons hm _ ih =>
      by_cases hsource : source = own
      · rw [if_pos hsource] at ih ⊢
        rw [List.filterMap_cons_some ((hm source).trans (if_pos hsource)), ih, List.map_cons]
      · rw [if_neg hsource] at ih ⊢
        rw [List.filterMap_cons_none ((hm source).trans (if_neg hsource)), ih]

theorem filterMap_nameIn?_map {α : Type} {own : BindingSource} {key : α → String}
    {make : α → Member} (hmake : ∀ x, (make x).IsNamed own (key x)) (xs : List α)
    (source : BindingSource) :
    (xs.map make).filterMap (Member.nameIn? source) = if source = own then xs.map key else [] :=
  filterMap_nameIn? (List.forall₂_map_right_iff.mpr
    (List.forall₂_same.mpr fun x _ => hmake x)) source

end Scope

namespace Setting

variable {s : Setting} {screen : Screen} {body : View} {ledger : Ledger} {view : ScreenView}
  {source : BindingSource} {name : String}

/-- **What can be bound in a finished view, from each source.** -/
theorem boundNames_of_finish (h : s.finish screen body ledger = .ok view)
    (source : BindingSource) :
    view.members.filterMap (Member.nameIn? source) = s.scope.boundNames ledger source := by
  obtain ⟨stored, hstored, hmembers⟩ := members_of_finish h
  obtain ⟨parameters, state, rfl, hparameters, hstate⟩ := Scope.members_declared hstored
  have hcommon : ((if ledger.usesRouter then [Member.router] else []) ++
      (if ledger.usesDismiss then [Member.environment "dismiss" "dismiss"] else [])).filterMap
        (Member.nameIn? source) =
      if source = .environment then (if ledger.usesDismiss then ["dismiss"] else []) else [] := by
    cases source <;> cases ledger.usesRouter <;> cases ledger.usesDismiss <;> rfl
  have hparameters := hparameters.imp fun entry m hm =>
    hm.elim fun value heq => heq.2 ▸ Member.isNamed_parameter entry.1 _ value
  have hstate := hstate.imp fun entry m hm =>
    hm.elim fun value heq => heq.2 ▸ Member.isNamed_state entry.1 _ value
  rw [hmembers]
  simp only [List.filterMap_append, flagMembers, hcommon,
    Scope.filterMap_nameIn? hparameters, Scope.filterMap_nameIn? hstate,
    Scope.filterMap_nameIn?_map fun (entry : String × ValueType) =>
      Member.isNamed_state entry.1 (typeText entry.2) (zeroValue entry.2),
    Scope.filterMap_nameIn?_map fun key => Member.isNamed_environment key key,
    Scope.filterMap_nameIn?_map fun flag => Member.isNamed_state flag "Bool" (.bool false)]
  cases source <;> simp [Scope.boundNames, Entries.names]

/-- No two members of a finished view can be bound under one name from one source. -/
theorem nodup_boundNames {catalog : Catalog} {models : List DataModel} {tree : NormalTree}
    (h : Furnished catalog models screen tree s.scope) (hclean : ledger.Clean s.scope)
    (source : BindingSource) : (s.scope.boundNames ledger source).Nodup := by
  have hstored := h.nodup_state
  rw [List.append_assoc, List.nodup_append] at hstored
  cases source with
  | parameter => exact hstored.1
  | state =>
      refine List.nodup_append.mpr ⟨hstored.2.1, hclean.sheets.filter _, ?_⟩
      intro name hname flag hflag heq
      have hfree := (List.mem_filter.mp hflag).2
      have hmember : s.scope.isMember flag = true := by
        rw [Scope.isMember_iff, ← heq, Scope.storedNames, List.mem_append, List.append_assoc,
          List.mem_append]
        exact Or.inl (Or.inr hname)
      rw [hmember] at hfree
      cases hfree
  | environment =>
      refine List.nodup_append.mpr ⟨h.tidy.environment, ?_, ?_⟩
      · split
        · exact List.nodup_singleton _
        · exact List.nodup_nil
      · intro key hkey name hname heq
        have hdismiss : name = "dismiss" := by
          split at hname
          · exact List.mem_singleton.mp hname
          · cases hname
        have hknown := h.tidy.known key hkey
        rw [heq, hdismiss] at hknown
        exact absurd hknown (by decide)

/-- **What the scope holds, the view stores, with the same type.** -/
theorem exists_member_of_holds (h : s.finish screen body ledger = .ok view)
    {held : Option ValueType} (hheld : s.scope.Holds source name held) :
    ∃ m ∈ view.members, m.nameIn? source = some name ∧
      ∀ type, held = some type → m.HasType type := by
  obtain ⟨stored, hstored, hmembers⟩ := members_of_finish h
  have hsub : ∀ m ∈ stored, m ∈ view.members := by
    intro m hm
    rw [hmembers, List.append_assoc]
    exact List.mem_append_left _ hm
  obtain ⟨parameters, state, rfl, hparameters, hstate⟩ := Scope.members_declared hstored
  simp only [List.forall_mem_append, List.forall_mem_map] at hsub
  obtain ⟨⟨⟨hinParameters, hinState⟩, hinInferred⟩, hinEnvironment⟩ := hsub
  cases hheld with
  | state hlookup =>
      obtain ⟨m, hm, value, -, rfl⟩ :=
        exists_of_forall₂ hstate.flip _ (Entries.mem_of_lookup hlookup)
      refine ⟨_, hinState _ hm, rfl, ?_⟩
      rintro _ ⟨⟩
      rfl
  | inferred hlookup =>
      refine ⟨_, hinInferred _ (Entries.mem_of_lookup hlookup), rfl, ?_⟩
      rintro _ ⟨⟩
      rfl
  | parameter hlookup =>
      obtain ⟨m, hm, value, -, rfl⟩ :=
        exists_of_forall₂ hparameters.flip _ (Entries.mem_of_lookup hlookup)
      refine ⟨_, hinParameters _ hm, rfl, ?_⟩
      rintro _ ⟨⟩
      rfl
  | @environment _ isBool hname hkey =>
      refine ⟨_, hinEnvironment _ hname, rfl, fun type htype => ?_⟩
      cases isBool with
      | false => cases htype
      | true =>
          cases htype
          exact ⟨Scope.eq_isEnabled_of_lookup hkey, rfl⟩

end Setting

/-! ### Views -/

/-- A standard component lets only those properties be bound that expect a type. -/
theorem Catalog.expects_of_bindable : ∀ schema ∈ standardSchemas, ∀ p ∈ schema.info.props,
    p.bind ≠ .fixed → p.kind.expectedType?.isSome = true := by
  decide

/-- In the standard catalog every binding of a normalized tree is of a property that expects a
type. -/
theorem exists_expected_of_bindable {e : Element} (h : e.Bindable Catalog.standard)
    {b : DataBinding} (hb : b ∈ e.bindings) {info : ComponentMeta} {schema : PropSchema}
    (hinfo : Catalog.standard.find? e.type = some info)
    (hschema : info.prop? b.property = some schema) :
    ∃ expected, schema.kind.expectedType? = some expected := by
  obtain ⟨info', hinfo', hbindable⟩ := h
  obtain ⟨schema', hschema', hfree⟩ := hbindable b hb
  obtain rfl : info = info' := Option.some.inj (hinfo.symm.trans hinfo')
  obtain rfl : schema = schema' := Option.some.inj (hschema.symm.trans hschema')
  obtain ⟨component, hlookup, hmeta⟩ := Option.map_eq_some_iff.mp hinfo
  obtain ⟨_, hmem, heq⟩ := List.mem_map.mp (Entries.mem_of_lookup hlookup)
  obtain ⟨-, rfl⟩ := Prod.mk.inj heq
  rw [← hmeta] at hschema
  exact Option.isSome_iff_exists.mp
    (Catalog.expects_of_bindable _ hmem schema (List.mem_of_find?_eq_some hschema) hfree)

namespace Built

variable {app : AppDefinition} {screen : Screen} {tree : NormalTree} {view : ScreenView}
  {s : Setting} {order : List Use} {body : View}

theorem wired (h : Built app screen tree view s order body)
    (hvariables : app.variableErrors screen.id [] screen.declared = [])
    (hmodels : ModelsApart app.models) :
    Wired Catalog.standard app.models screen tree s.scope := by
  obtain ⟨bound, scope, hbindings, rfl⟩ := h.bindings
  exact ⟨⟨bound, hbindings⟩, (AppDefinition.nodup_of_variableErrors hvariables).1, hmodels⟩

/-- **The bindings of a built screen fit the declarations of its view.** -/
theorem wellBound (h : Built app screen tree view s order body)
    (hvariables : app.variableErrors screen.id [] screen.declared = [])
    (hmodels : ModelsApart app.models)
    (hbindable : ∀ e ∈ tree.elements, e.Bindable Catalog.standard) :
    WellBound Catalog.standard app.models screen tree view := by
  have hwired := h.wired hvariables hmodels
  refine ⟨fun entry hentry => ?_, fun entry hentry => ?_, fun entry hentry hbrings => ?_⟩
  · obtain ⟨_, _, _, -, -, -, held, hheld, -⟩ := hwired.exists_traced hentry
    obtain ⟨m, hm, hname, htype⟩ := Setting.exists_member_of_holds h.finish hheld
    refine ⟨m, ?_, fun type hroot => htype type ((hwired.rootType_iff hheld).mp hroot)⟩
    refine filter_key_eq_singleton ?_ hm hname
    rw [Setting.boundNames_of_finish h.finish]
    exact Setting.nodup_boundNames (h.furnished hvariables) h.clean _
  · obtain ⟨info, schema, found, hinfo, hschema, hcheck, held, hheld, hfound⟩ :=
      hwired.exists_traced hentry
    refine ⟨info, schema, hinfo, hschema, fun hread => ?_⟩
    obtain ⟨e, he, hbinding⟩ := List.mem_flatMap.mp hentry
    obtain ⟨b, hb, rfl⟩ := List.mem_map.mp hbinding
    obtain ⟨expected, hexpected⟩ :=
      exists_expected_of_bindable (hbindable e he) hb hinfo hschema
    refine ⟨expected, hexpected, fun type => ?_⟩
    have hsame := Scope.eq_of_checkType hcheck hread hexpected
    have hbinding : BindingType Catalog.standard app.models screen tree b type ↔
        found = some type := by
      rw [hfound, BindingType]
      simp only [hwired.rootType_iff hheld]
    rw [hbinding, hsame, Option.some.injEq]
    exact eq_comm
  · obtain ⟨type, htype, hlookup⟩ := hwired.expectedType?_eq hentry hbrings
    refine ⟨type, htype, fun other hother hbrings' hroot => ?_⟩
    obtain ⟨type', htype', hlookup'⟩ := hwired.expectedType?_eq hother hbrings'
    rw [hroot, hlookup] at hlookup'
    rw [htype', hlookup']

end Built

/-- **Bindings have the types that their properties expect.**  In an accepted app the root of
every binding is one member of the view, declared with the type of the root.  Unless a binding is
shown inside a text, the type at the end of its path, followed from that root through the data
models, is the one that the bound property expects; and all bindings that bring a name of state
into being agree on its type.  The types of data models are emitted with the properties that the
paths go through. -/
theorem bindings_are_typed (app : AppDefinition) (config : GeneratorConfig) (out : GeneratedApp)
    (h : generate app Catalog.standard config = .ok out) :
    (∃ types, Generate.buildModels app = .ok types ∧
      List.Forall₂ (fun (model : DataModel) (type : DataType) =>
        List.Forall₂ ModelProperty.IsStoredAs model.properties type.properties)
        app.models types) ∧
      ∀ screen ∈ app.screens, ∃ tree view,
        normalize screen.root Catalog.standard config.limits = .ok tree ∧
        buildScreen app.buildContext screen tree = .ok view ∧
        WellBound Catalog.standard app.models screen tree view := by
  obtain ⟨types, trees, views, entry, hrun⟩ := Generate.exists_run h
  refine ⟨⟨types, hrun.models, hrun.forall₂_declared⟩, fun screen hscreen => ?_⟩
  obtain ⟨tree, view, s, order, body, hnormal, hbuilt, hvariables⟩ :=
    hrun.accepted.exists_furnished hscreen
  exact ⟨tree, view, hnormal, hbuilt.build,
    hbuilt.wellBound hvariables hrun.modelsApart (bindable_of_normalize hnormal)⟩

/-- An app whose bindings begin at each kind of root, and go through data models that hold each
other. -/
def Generate.profile : AppDefinition where
  config := ⟨"Notes", "com.example.notes", "1.0.0", .standard, .standard, false, false⟩
  screens :=
    [⟨"home", "Home", none, [⟨"owner", .model "Person", none⟩],
        [⟨"draft", .model "Note", none⟩],
        .node ⟨"root", "VStack", [], [], []⟩
          [.node ⟨"title", "TextField", [("placeholder", .string "Title")],
            [⟨"text", .state, "draft.author.name"⟩], []⟩ [],
          .node ⟨"volume", "Slider", [("min", .int 0), ("max", .int 1)],
            [⟨"value", .state, "volume"⟩], []⟩ [],
          .node ⟨"level", "ProgressView", [], [⟨"value", .state, "volume"⟩], []⟩ [],
          .node ⟨"guard", "Conditional", [], [⟨"condition", .environment, "isEnabled"⟩], []⟩
            [.node ⟨"name", "Text", [], [⟨"content", .parameter, "owner.note.title"⟩], []⟩ []]]⟩]
  models :=
    [⟨"Person", [⟨"name", .string, none, true⟩, ⟨"note", .model "Note", none, true⟩], false⟩,
      ⟨"Note", [⟨"title", .string, none, true⟩, ⟨"author", .model "Person", none, true⟩], false⟩]
  entryScreen := "home"
  tabBar := none

theorem Generate.accepts_profile : accepts profile .standard = true := by decide +kernel

/-- The profile is generated, so its bindings are typed. -/
theorem bindings_of_profile :
    ∃ out, generate Generate.profile Catalog.standard .standard = .ok out ∧
      (∃ types, Generate.buildModels Generate.profile = .ok types ∧
        List.Forall₂ (fun (model : DataModel) (type : DataType) =>
          List.Forall₂ ModelProperty.IsStoredAs model.properties type.properties)
          Generate.profile.models types) ∧
        ∀ screen ∈ Generate.profile.screens, ∃ tree view,
          normalize screen.root Catalog.standard Limits.standard = .ok tree ∧
          buildScreen Generate.profile.buildContext screen tree = .ok view ∧
          WellBound Catalog.standard Generate.profile.models screen tree view := by
  obtain ⟨out, hout⟩ := Generate.exists_generate_of_accepts Generate.accepts_profile
  exact ⟨out, hout, bindings_are_typed Generate.profile .standard out hout⟩

end Screenwright
