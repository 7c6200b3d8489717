/-
How bindings grow a scope.

A scope begins with what a screen declares, and the bindings of its tree are resolved in it one
after the other.  A binding that resolves leaves the scope as it is, or brings a name of state
into being, or brings an environment value into use.  `Resolves` has one rule for each of these,
and `ResolvesAll` is a run of them.  What is in the scope after a run is then told by the
bindings alone: their order decides only where a name stands, because a name keeps the type that
it came with and every later binding of it asks for the same.
-/
import Screenwright.Proofs.References

namespace Screenwright

/-- The type that a bound property expects, which is the type of state that comes into being
with the binding. -/
def Catalog.expectedType? (catalog : Catalog) (e : Element) (b : DataBinding) : Option ValueType :=
  ((catalog.find? e.type).bind fun info => info.prop? b.property).bind fun schema =>
    schema.kind.expectedType?

/-! ### Whole paths -/

namespace DataBinding

/-- A path without parts is its own root. -/
theorem rootOf_of_length_le_one {path : String} (h : ¬ 1 < (segmentsOf path).length) :
    rootOf path = path := by
  have hjoin := Text.intercalate_segmentsOf '.' path.toList
  rw [segmentsOf, Text.segments, List.length_map] at h
  rw [rootOf, segmentsOf, Text.segments]
  cases hpieces : Text.segmentsOf '.' path.toList with
  | nil => exact absurd hpieces (Text.segmentsOf_ne_nil '.' path.toList)
  | cons piece rest =>
      cases rest with
      | nil =>
          rw [hpieces] at hjoin
          have hpiece : piece = path.toList := by simpa [List.intercalate] using hjoin
          rw [hpiece]
          simp
      | cons next rest =>
          rw [hpieces] at h
          simp only [List.length_cons] at h
          omega

/-- A path without dots is its own root. -/
theorem rootOf_of_not_mem {path : String} (h : '.' ∉ path.toList) : rootOf path = path := by
  rw [rootOf, segmentsOf, Text.segments, Text.segmentsOf_of_not_mem h]
  simp

end DataBinding

namespace Scope

open DataBinding (rootOf segmentsOf)

variable {catalog : Catalog} {scope between after : Scope} {e : Element} {b : DataBinding}
  {bindings : List (Element × DataBinding)}

/-! ### Using an environment value -/

section UseEnvironment

variable (scope) (key : String)

theorem sameDeclared_useEnvironment : SameDeclared scope (scope.useEnvironment key) := by
  unfold useEnvironment
  split
  · exact SameDeclared.refl scope
  · exact ⟨rfl, rfl, rfl⟩

@[simp]
theorem inferred_useEnvironment : (scope.useEnvironment key).inferred = scope.inferred := by
  unfold useEnvironment
  split <;> rfl

theorem mem_environment_useEnvironment {other : String} :
    other ∈ (scope.useEnvironment key).environment ↔ other ∈ scope.environment ∨ other = key := by
  unfold useEnvironment
  by_cases hused : scope.environment.contains key = true
  · rw [if_pos hused]
    rw [List.contains_iff_mem] at hused
    constructor
    · exact Or.inl
    · rintro (h | rfl)
      · exact h
      · exact hused
  · rw [if_neg hused, List.mem_append, List.mem_singleton]

theorem nodup_environment_useEnvironment (h : scope.environment.Nodup) :
    (scope.useEnvironment key).environment.Nodup := by
  unfold useEnvironment
  by_cases hused : scope.environment.contains key = true
  · rw [if_pos hused]
    exact h
  · rw [if_neg hused]
    rw [List.contains_iff_mem] at hused
    show (scope.environment ++ [key]).Nodup
    rw [← List.concat_eq_append]
    exact List.Nodup.concat hused h

end UseEnvironment

/-! ### A path into undeclared state -/

/-- The path can come into being as state of the type, or has done so. -/
structure Admits (scope : Scope) (path : String) (type : ValueType) : Prop where
  whole : (segmentsOf path).length ≤ 1
  parameter : path ∉ Entries.names scope.parameters
  free : path ∉ reservedNames ∧ Names.isKeyword path = false
  agrees : ∀ first, scope.inferred.lookup path = some first → first = type

/-- The scope in which the path has come into being. -/
def bring (scope : Scope) (path : String) (type : ValueType) : Scope :=
  { scope with inferred := Entries.putNew path type scope.inferred }

/-- A path into undeclared state comes into being with the type that is expected, or the scope
stays as it is. -/
theorem resolveState_of_undeclared {path : String} (expected : Option ValueType)
    (hroot : rootOf path ∉ Entries.names scope.state) :
    (∃ type, expected = some type ∧ scope.Admits path type ∧
      scope.resolveState path expected = (.ok type, scope.bring path type)) ∨
    (∃ fault, scope.resolveState path expected = (.error fault, scope)) ∧
      ∀ type, expected = some type → ¬ scope.Admits path type := by
  have hnone : scope.state.lookup (rootOf path) = none := by
    cases hlookup : scope.state.lookup (rootOf path) with
    | none => rfl
    | some v => exact absurd (Entries.mem_names_of_lookup hlookup) hroot
  simp only [resolveState, hnone]
  split
  next hparts =>
    exact Or.inr ⟨⟨_, rfl⟩, fun type _ h => absurd h.whole (Nat.not_le.mpr hparts)⟩
  next hwhole =>
    rw [DataBinding.rootOf_of_length_le_one hwhole]
    split
    next hparameter =>
      exact Or.inr ⟨⟨_, rfl⟩, fun type _ h =>
        h.parameter ((Entries.has_iff_mem_names _ _).mp hparameter)⟩
    next hparameter =>
      have hparameter : path ∉ Entries.names scope.parameters :=
        fun hmem => hparameter ((Entries.has_iff_mem_names _ _).mpr hmem)
      split
      next hreserved =>
        refine Or.inr ⟨⟨_, rfl⟩, fun type _ h => ?_⟩
        rcases Bool.or_eq_true _ _ |>.mp hreserved with hname | hname
        · exact h.free.1 (List.contains_iff_mem.mp hname)
        · rw [h.free.2] at hname
          cases hname
      next hfree =>
        simp only [Bool.or_eq_true, not_or, List.contains_iff_mem, Bool.not_eq_true] at hfree
        cases expected with
        | none => exact Or.inr ⟨⟨_, rfl⟩, fun type h => by cases h⟩
        | some type =>
            have hadmits (hagrees : ∀ first, scope.inferred.lookup path = some first →
                first = type) : scope.Admits path type :=
              ⟨Nat.not_lt.mp hwhole, hparameter, hfree, hagrees⟩
            cases hfirst : scope.inferred.lookup path with
            | none =>
                refine Or.inl ⟨type, rfl, hadmits (by simp [hfirst]), ?_⟩
                simp only [bring, Entries.putNew_of_none hfirst]
            | some first =>
                by_cases hsame : first = type
                · refine Or.inl ⟨type, rfl, hadmits (by simp [hfirst, hsame]), ?_⟩
                  simp only [bring, if_pos hsame, Entries.putNew_of_some hfirst]
                · refine Or.inr ⟨⟨.conflict path first type, by simp only [if_neg hsame]⟩,
                    fun type' htype h => ?_⟩
                  cases htype
                  exact hsame (h.agrees first hfirst)

/-! ### One binding -/

/-- The name of state that a screen does not declare, but that bindings may bring into being. -/
structure Undeclared (scope : Scope) (name : String) : Prop where
  state : name ∉ Entries.names scope.state
  parameter : name ∉ Entries.names scope.parameters
  reserved : name ∉ reservedNames

theorem Undeclared.of_sameDeclared {name : String} (h : scope.Undeclared name)
    (hsame : SameDeclared scope after) : after.Undeclared name := by
  refine ⟨?_, ?_, h.reserved⟩
  · rw [hsame.state]
    exact h.state
  · rw [hsame.parameters]
    exact h.parameter

/-- How a binding that resolves changes the scope. -/
inductive Resolves (catalog : Catalog) (scope : Scope) (e : Element) (b : DataBinding) :
    Scope → Prop where
  /-- Declared state, or a part of it. -/
  | declared (hsource : b.source = .state) (hroot : rootOf b.path ∈ Entries.names scope.state) :
      Resolves catalog scope e b scope
  /-- State that comes into being, or has done so before with the same type. -/
  | inferred {type : ValueType} (hsource : b.source = .state) (hroot : rootOf b.path = b.path)
      (hname : scope.Undeclared b.path) (htype : catalog.expectedType? e b = some type)
      (hfirst : ∀ first, scope.inferred.lookup b.path = some first → first = type) :
      Resolves catalog scope e b
        { scope with inferred := Entries.putNew b.path type scope.inferred }
  | parameter (hsource : b.source = .parameter) : Resolves catalog scope e b scope
  | environment (hsource : b.source = .environment)
      (hkey : b.path ∈ Entries.names environmentKeys) :
      Resolves catalog scope e b (scope.useEnvironment b.path)

/-- The scope that resolving a path into state leaves. -/
theorem resolves_of_resolveState {expected : Option ValueType} {type : ValueType}
    (hsource : b.source = .state) (hexpected : catalog.expectedType? e b = expected)
    (h : scope.resolveState b.path expected = (.ok type, after)) :
    Resolves catalog scope e b after := by
  by_cases hroot : rootOf b.path ∈ Entries.names scope.state
  · obtain ⟨v, hv⟩ := Entries.exists_lookup hroot
    simp only [resolveState, hv] at h
    rw [← (Prod.mk.inj h).2]
    exact .declared hsource hroot
  · rcases resolveState_of_undeclared expected hroot with
      ⟨wanted, hwanted, hadmits, heq⟩ | ⟨⟨fault, heq⟩, -⟩
    · rw [heq] at h
      cases h
      have hwhole := DataBinding.rootOf_of_length_le_one (Nat.not_lt.mpr hadmits.whole)
      rw [hwhole] at hroot
      exact .inferred hsource hwhole ⟨hroot, hadmits.parameter, hadmits.free.1⟩
        (hexpected.trans hwanted) hadmits.agrees
    · rw [heq] at h
      cases h

/-- **A binding that resolves changes the scope by one of the rules.** -/
theorem resolves_of_resolveOn {bound : Bound}
    (h : scope.resolveOn catalog e b = (.ok bound, after)) : Resolves catalog scope e b after := by
  unfold resolveOn at h
  split at h
  · cases h
  next info hinfo =>
    split at h
    · cases h
    next schema hschema =>
      have hexpected : catalog.expectedType? e b = schema.kind.expectedType? := by
        simp [Catalog.expectedType?, hinfo, hschema]
      unfold resolve at h
      split at h
      · cases h
      next type scope' htype =>
        -- The check of the type comes last and does not touch the scope.
        have hafter : scope' = after := (Prod.mk.inj h).2
        rw [hafter] at htype
        unfold typeOf at htype
        split at htype
        next hsource =>
          split at htype
          next result scope'' hstate =>
            obtain ⟨hresult, rfl⟩ := Prod.mk.inj htype
            obtain ⟨type', rfl, -⟩ := Steps.map_eq_ok.mp hresult
            exact resolves_of_resolveState hsource hexpected hstate
        next hsource =>
          obtain ⟨-, rfl⟩ := Prod.mk.inj htype
          exact .parameter hsource
        next hsource =>
          unfold resolveEnvironment at htype
          split at htype
          · cases htype
          · split at htype
            · cases htype
            next hkey =>
              cases htype
              exact .environment hsource (Entries.mem_names_of_lookup hkey)

/-- A binding leaves alone what the screen declares. -/
theorem Resolves.sameDeclared (h : Resolves catalog scope e b after) :
    SameDeclared scope after := by
  cases h with
  | declared => exact SameDeclared.refl scope
  | inferred => exact ⟨rfl, rfl, rfl⟩
  | parameter => exact SameDeclared.refl scope
  | environment => exact sameDeclared_useEnvironment scope b.path

/-! ### A run of bindings -/

/-- How bindings that resolve one after the other change the scope. -/
inductive ResolvesAll (catalog : Catalog) : Scope → List (Element × DataBinding) → Scope → Prop where
  | nil {scope : Scope} : ResolvesAll catalog scope [] scope
  | cons {scope between after : Scope} {e : Element} {b : DataBinding}
      {rest : List (Element × DataBinding)} (hstep : Resolves catalog scope e b between)
      (hrest : ResolvesAll catalog between rest after) :
      ResolvesAll catalog scope ((e, b) :: rest) after

/-- **Bindings that are all resolved are a run.** -/
theorem resolvesAll_of_bindAll :
    ∀ {scope : Scope} {resolved bound : Resolved},
      bindAll catalog scope resolved bindings = .ok (bound, after) →
      ResolvesAll catalog scope bindings after := by
  induction bindings with
  | nil =>
      rintro scope _ _ ⟨⟩
      exact .nil
  | cons entry rest ih =>
      obtain ⟨element, binding⟩ := entry
      intro scope resolved bound h
      unfold bindAll at h
      split at h
      · cases h
      next found between heq => exact .cons (resolves_of_resolveOn heq) (ih h)

theorem ResolvesAll.sameDeclared (h : ResolvesAll catalog scope bindings after) :
    SameDeclared scope after := by
  induction h with
  | nil => exact SameDeclared.refl _
  | cons hstep _ ih => exact hstep.sameDeclared.trans ih

/-! ### What comes into being -/

/-- The binding is of state that the screen does not declare. -/
def Brings (scope : Scope) (b : DataBinding) : Prop :=
  b.source = .state ∧ rootOf b.path ∉ Entries.names scope.state

theorem brings_iff (h : SameDeclared scope between) : between.Brings b ↔ scope.Brings b := by
  rw [Brings, Brings, h.state]

/-- One binding brings its own path into being, or nothing. -/
theorem Resolves.mem_names_inferred (h : Resolves catalog scope e b after) {name : String} :
    name ∈ Entries.names after.inferred ↔
      name ∈ Entries.names scope.inferred ∨ scope.Brings b ∧ b.path = name := by
  cases h with
  | declared hsource hroot => simp [Brings, hroot]
  | inferred hsource hroot hname =>
      rw [Entries.mem_names_putNew, Brings, hroot]
      simp [hsource, hname.state, eq_comm]
  | parameter hsource => simp [Brings, hsource]
  | environment hsource hkey => simp [Brings, hsource]

theorem Resolves.mem_environment (h : Resolves catalog scope e b after) {key : String} :
    key ∈ after.environment ↔
      key ∈ scope.environment ∨ b.source = .environment ∧ b.path = key := by
  cases h with
  | declared hsource => simp [hsource]
  | inferred hsource => simp [hsource]
  | parameter hsource => simp [hsource]
  | environment hsource hkey =>
      rw [mem_environment_useEnvironment]
      simp [hsource, eq_comm]

/-- **The names that come into being are the paths of state that is not declared.** -/
theorem ResolvesAll.mem_names_inferred (h : ResolvesAll catalog scope bindings after)
    {name : String} :
    name ∈ Entries.names after.inferred ↔
      name ∈ Entries.names scope.inferred ∨
        ∃ entry ∈ bindings, scope.Brings entry.2 ∧ entry.2.path = name := by
  induction h with
  | nil => simp
  | cons hstep _ ih =>
      rw [ih, hstep.mem_names_inferred, List.exists_mem_cons_iff, or_assoc]
      simp only [brings_iff hstep.sameDeclared]

/-- **The environment values in use are those that are bound.** -/
theorem ResolvesAll.mem_environment (h : ResolvesAll catalog scope bindings after)
    {key : String} :
    key ∈ after.environment ↔
      key ∈ scope.environment ∨
        ∃ entry ∈ bindings, entry.2.source = .environment ∧ entry.2.path = key := by
  induction h with
  | nil => simp
  | cons hstep _ ih => rw [ih, hstep.mem_environment, List.exists_mem_cons_iff, or_assoc]

/-! ### The types of what comes into being -/

/-- What has come into being keeps its type. -/
theorem Resolves.lookup_inferred (h : Resolves catalog scope e b after) {name : String}
    {type : ValueType} (hname : scope.inferred.lookup name = some type) :
    after.inferred.lookup name = some type := by
  cases h with
  | declared => exact hname
  | inferred => rw [Entries.lookup_putNew, hname]; rfl
  | parameter => exact hname
  | environment =>
      rw [inferred_useEnvironment]
      exact hname

theorem ResolvesAll.lookup_inferred (h : ResolvesAll catalog scope bindings after)
    {name : String} {type : ValueType} (hname : scope.inferred.lookup name = some type) :
    after.inferred.lookup name = some type := by
  induction h with
  | nil => exact hname
  | cons hstep _ ih => exact ih (hstep.lookup_inferred hname)

/-- A binding that brings a name into being finds it afterwards with the type it expects. -/
theorem Resolves.expectedType?_eq (h : Resolves catalog scope e b after) (hb : scope.Brings b) :
    ∃ type, catalog.expectedType? e b = some type ∧
      after.inferred.lookup b.path = some type := by
  obtain ⟨hstate, hroot⟩ := hb
  cases h with
  | declared _ hdeclared => exact absurd hdeclared hroot
  | @inferred type _ _ _ htype hfirst =>
      refine ⟨type, htype, ?_⟩
      rw [Entries.lookup_putNew]
      cases hlookup : scope.inferred.lookup b.path with
      | none => simp
      | some first => simp [hfirst first hlookup]
  | parameter hsource =>
      rw [hstate] at hsource
      cases hsource
  | environment hsource =>
      rw [hstate] at hsource
      cases hsource

/-- **All bindings of a name that comes into being expect the type that it has.** -/
theorem ResolvesAll.expectedType?_eq (h : ResolvesAll catalog scope bindings after) :
    ∀ entry ∈ bindings, scope.Brings entry.2 →
      ∃ type, catalog.expectedType? entry.1 entry.2 = some type ∧
        after.inferred.lookup entry.2.path = some type := by
  induction h with
  | nil => simp
  | cons hstep hrest ih =>
      rw [List.forall_mem_cons]
      constructor
      · intro hbrings
        obtain ⟨type, htype, hlookup⟩ := hstep.expectedType?_eq hbrings
        exact ⟨type, htype, hrest.lookup_inferred hlookup⟩
      · intro entry hentry hbrings
        exact ih entry hentry ((brings_iff hstep.sameDeclared).mpr hbrings)

/-! ### Scopes in order -/

/-- What has come into being is named once and is not declared, and the environment values in
use are known and named once. -/
structure Tidy (scope : Scope) : Prop where
  inferred : (Entries.names scope.inferred).Nodup
  undeclared : ∀ name ∈ Entries.names scope.inferred, scope.Undeclared name
  environment : scope.environment.Nodup
  known : ∀ key ∈ scope.environment, key ∈ Entries.names environmentKeys

theorem Resolves.tidy (h : Resolves catalog scope e b after) (ht : scope.Tidy) : after.Tidy := by
  have hsame := h.sameDeclared
  cases h with
  | declared => exact ht
  | parameter => exact ht
  | inferred _ _ hname =>
      refine ⟨Entries.nodup_putNew ht.inferred, ?_, ht.environment, ht.known⟩
      intro name hmem
      rcases Entries.mem_names_putNew.mp hmem with hmem | rfl
      · exact (ht.undeclared name hmem).of_sameDeclared hsame
      · exact hname.of_sameDeclared hsame
  | environment _ hkey =>
      refine ⟨?_, fun name hmem => ?_, ?_, fun key hmem => ?_⟩
      · rw [inferred_useEnvironment]
        exact ht.inferred
      · rw [inferred_useEnvironment] at hmem
        exact (ht.undeclared name hmem).of_sameDeclared hsame
      · exact nodup_environment_useEnvironment scope b.path ht.environment
      · rcases (mem_environment_useEnvironment scope b.path).mp hmem with hmem | rfl
        · exact ht.known key hmem
        · exact hkey

theorem ResolvesAll.tidy (h : ResolvesAll catalog scope bindings after) (ht : scope.Tidy) :
    after.Tidy := by
  induction h with
  | nil => exact ht
  | cons hstep _ ih => exact ih (hstep.tidy ht)

/-! ### The scope of a screen -/

section Screen

variable (screen : Screen) (models : List DataModel)

theorem tidy_ofScreen : (ofScreen screen models).Tidy :=
  ⟨List.nodup_nil, by simp [ofScreen, Entries.names], List.nodup_nil, by simp [ofScreen]⟩

theorem mem_names_firstOfEach {declared : List Variable} {name : String} :
    name ∈ Entries.names (firstOfEach declared) ↔ name ∈ declared.map Variable.name := by
  rw [firstOfEach, Entries.mem_names_foldl_putNew, List.mem_map]
  simp [Entries.names]

theorem nodup_names_firstOfEach (declared : List Variable) :
    (Entries.names (firstOfEach declared)).Nodup :=
  Entries.nodup_foldl_putNew List.nodup_nil

/-- The names of declared state are those that are not names of parameters. -/
theorem mem_names_state_ofScreen {name : String} :
    name ∈ Entries.names (ofScreen screen models).state ↔
      name ∈ screen.state.map Variable.name ∧
        name ∉ Entries.names (ofScreen screen models).parameters := by
  have hhas : ∀ name, (firstOfEach screen.parameters).has name = true ↔
      name ∈ Entries.names (firstOfEach screen.parameters) :=
    fun name => Entries.has_iff_mem_names name _
  show name ∈ Entries.names (firstOfEach _) ↔ _ ∧ name ∉ Entries.names (firstOfEach _)
  rw [mem_names_firstOfEach, List.mem_map, List.mem_map]
  constructor
  · rintro ⟨v, hv, rfl⟩
    rw [List.mem_filter] at hv
    refine ⟨⟨v, hv.1, rfl⟩, fun hmem => ?_⟩
    rw [(hhas v.name).mpr hmem] at hv
    simp at hv
  · rintro ⟨⟨v, hv, rfl⟩, hnot⟩
    refine ⟨v, List.mem_filter.mpr ⟨hv, ?_⟩, rfl⟩
    by_cases hparameter : (firstOfEach screen.parameters).has v.name = true
    · exact absurd ((hhas v.name).mp hparameter) hnot
    · simpa using hparameter

/-- The parameters and the state are what the screen declares. -/
theorem mem_names_declared {name : String} :
    name ∈ screen.declared.map Variable.name ↔
      name ∈ Entries.names (ofScreen screen models).parameters ∨
        name ∈ Entries.names (ofScreen screen models).state := by
  have hparameters : name ∈ Entries.names (ofScreen screen models).parameters ↔
      name ∈ screen.parameters.map Variable.name := mem_names_firstOfEach
  rw [mem_names_state_ofScreen, hparameters, Screen.declared, List.map_append, List.mem_append]
  by_cases hmem : name ∈ screen.parameters.map Variable.name
  · simp [hmem]
  · simp [hmem]

end Screen

end Scope

end Screenwright
