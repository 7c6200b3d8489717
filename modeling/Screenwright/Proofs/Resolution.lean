/-
What resolving a binding leaves behind, above all when it fails.

A binding of undeclared state is the only one whose outcome depends on the bindings before it, and
the only one that adds state; what every other binding gives is told by the declarations alone.
State comes into being with the last check of its binding, so a binding that fails adds none.  The
environment is different: a key is in use before the type of its value is checked, and it stays in
use when that check fails.  Such a binding fails, and its key is a member of the view all the same.
Nothing else of a binding that fails can be seen by what comes after it.
-/
import Screenwright.Proofs.Scopes

namespace Screenwright

namespace Scope

open DataBinding (rootOf segmentsOf)

/-- A binding together with the schema of the property that it is on. -/
abbrev Call := DataBinding × PropSchema

/-- The scope after some bindings, also after those that fail. -/
def run (scope : Scope) (calls : List Call) : Scope :=
  calls.foldl (fun scope call => (scope.resolve call.1 call.2).2) scope

/-- What the bindings give, one after the other. -/
def outcomes (scope : Scope) : List Call → List (Except PathFault Bound)
  | [] => []
  | (b, schema) :: rest =>
    (scope.resolve b schema).1 :: outcomes (scope.resolve b schema).2 rest

variable {scope other after : Scope} {b : DataBinding} {schema : PropSchema}

theorem run_cons (call : Call) (rest : List Call) :
    scope.run (call :: rest) = (scope.resolve call.1 call.2).2.run rest := rfl

theorem outcomes_cons (call : Call) (rest : List Call) :
    scope.outcomes (call :: rest) =
      (scope.resolve call.1 call.2).1 :: (scope.resolve call.1 call.2).2.outcomes rest := rfl

theorem run_append (calls more : List Call) :
    scope.run (calls ++ more) = (scope.run calls).run more :=
  List.foldl_append

/-! ### Undeclared state -/

/-- A property takes a value of the type that it expects. -/
theorem checkType_of_expected {path : String} {type : ValueType}
    (h : schema.kind.expectedType? = some type) : checkType schema path (some type) = .ok () := by
  simp [checkType, h]

/-- **A binding of undeclared state brings its path into being, or the scope stays as it is.** -/
theorem resolve_of_brings (schema : PropSchema) (hb : scope.Brings b) :
    (∃ type, schema.kind.expectedType? = some type ∧ scope.Admits b.path type ∧
      scope.resolve b schema = (.ok ⟨.state, b.path, some type⟩, scope.bring b.path type)) ∨
    (∃ fault, scope.resolve b schema = (.error fault, scope)) ∧
      ∀ type, schema.kind.expectedType? = some type → ¬ scope.Admits b.path type := by
  obtain ⟨hsource, hroot⟩ := hb
  rcases resolveState_of_undeclared schema.kind.expectedType? hroot with
    ⟨type, hexpected, hadmits, hstate⟩ | ⟨⟨fault, hstate⟩, hrefused⟩
  · refine Or.inl ⟨type, hexpected, hadmits, ?_⟩
    simp only [resolve, typeOf, hsource, hstate, Except.map, checkType_of_expected hexpected]
  · exact Or.inr ⟨⟨fault, by simp only [resolve, typeOf, hsource, hstate, Except.map]⟩, hrefused⟩

/-! ### All other bindings -/

theorem dot_not_mem_key : ∀ key ∈ Entries.names environmentKeys, '.' ∉ key.toList := by
  decide

/-- A key is in use as soon as it is known. -/
theorem resolveEnvironment_snd (path : String) :
    (scope.resolveEnvironment path).2 =
      if path ∈ Entries.names environmentKeys then scope.useEnvironment path else scope := by
  unfold resolveEnvironment
  split
  next hparts =>
    rw [if_neg fun hkey => ?_]
    have hone : (segmentsOf path).length = 1 := by
      rw [segmentsOf, Text.segments, Text.segmentsOf_of_not_mem (dot_not_mem_key path hkey)]
      rfl
    omega
  next =>
    cases hlookup : environmentKeys.lookup path with
    | none =>
        rw [if_neg fun hkey => ?_]
        obtain ⟨isBool, hisBool⟩ := Entries.exists_lookup hkey
        rw [hlookup] at hisBool
        cases hisBool
    | some isBool => rw [if_pos (Entries.mem_names_of_lookup hlookup)]

/-- The check of the type comes last and does not touch the scope. -/
theorem resolve_snd :
    (scope.resolve b schema).2 = (scope.typeOf b schema.kind.expectedType?).2 := by
  unfold resolve
  split <;> simp_all

/-- A binding of what is declared leaves the scope as it is, apart from a key that it uses. -/
theorem resolve_snd_of_not_brings (hb : ¬ scope.Brings b) :
    (scope.resolve b schema).2 =
      if b.source = .environment ∧ b.path ∈ Entries.names environmentKeys then
        scope.useEnvironment b.path
      else scope := by
  rw [resolve_snd, typeOf]
  cases hsource : b.source with
  | state =>
      obtain ⟨v, hv⟩ := Entries.exists_lookup (not_not.mp fun hroot => hb ⟨hsource, hroot⟩)
      simp [resolveState, hv]
  | parameter => simp
  | environment => simp [resolveEnvironment_snd]

/-- What a binding of what is declared gives is told by the declarations. -/
theorem resolve_fst_of_not_brings (hsame : SameDeclared scope other) (hb : ¬ scope.Brings b) :
    (other.resolve b schema).1 = (scope.resolve b schema).1 := by
  have htype (expected : Option ValueType) :
      (other.typeOf b expected).1 = (scope.typeOf b expected).1 := by
    unfold typeOf
    cases hsource : b.source with
    | state =>
        obtain ⟨v, hv⟩ := Entries.exists_lookup (not_not.mp fun hroot => hb ⟨hsource, hroot⟩)
        simp only [resolveState, hsame.state, hv, typeAlong, hsame.models]
    | parameter =>
        simp only [resolveParameter, hsame.parameters, typeAlong, hsame.models]
    | environment =>
        simp only [resolveEnvironment]
        split
        · rfl
        · split <;> rfl
  unfold resolve
  have h := htype schema.kind.expectedType?
  revert h
  rcases other.typeOf b schema.kind.expectedType? with ⟨_ | _, _⟩ <;>
    rcases scope.typeOf b schema.kind.expectedType? with ⟨_ | _, _⟩ <;> simp +contextual

/-! ### The environment values in use -/

/-- The scope with other environment values in use. -/
def withEnvironment (scope : Scope) (keys : List String) : Scope :=
  { scope with environment := keys }

theorem exists_withEnvironment_useEnvironment (scope : Scope) (key : String) :
    ∃ keys, scope.useEnvironment key = scope.withEnvironment keys := by
  unfold useEnvironment
  split
  · exact ⟨scope.environment, rfl⟩
  · exact ⟨_, rfl⟩

theorem resolveState_withEnvironment (scope : Scope) (keys : List String) (path : String)
    (expected : Option ValueType) :
    (scope.withEnvironment keys).resolveState path expected =
      ((scope.resolveState path expected).1,
        (scope.resolveState path expected).2.withEnvironment keys) := by
  unfold resolveState withEnvironment
  dsimp only
  repeat' split
  all_goals rfl

/-- **No binding depends on the environment values in use.** -/
theorem resolve_withEnvironment (scope : Scope) (b : DataBinding) (schema : PropSchema)
    (keys : List String) :
    ((scope.withEnvironment keys).resolve b schema).1 = (scope.resolve b schema).1 ∧
      ∃ keys', ((scope.withEnvironment keys).resolve b schema).2 =
        (scope.resolve b schema).2.withEnvironment keys' := by
  by_cases hb : scope.Brings b
  · have hstate := resolveState_withEnvironment scope keys b.path schema.kind.expectedType?
    simp only [resolve, typeOf, hb.1, hstate]
    rcases scope.resolveState b.path schema.kind.expectedType? with ⟨_ | type, after⟩
    · exact ⟨rfl, keys, rfl⟩
    · exact ⟨rfl, keys, rfl⟩
  · refine ⟨resolve_fst_of_not_brings ⟨rfl, rfl, rfl⟩ hb, ?_⟩
    have hb' : ¬ (scope.withEnvironment keys).Brings b := hb
    rw [resolve_snd_of_not_brings hb', resolve_snd_of_not_brings hb]
    split
    · obtain ⟨used, hused⟩ :=
        exists_withEnvironment_useEnvironment (scope.withEnvironment keys) b.path
      obtain ⟨used', hused'⟩ := exists_withEnvironment_useEnvironment scope b.path
      exact ⟨used, by rw [hused, hused']; rfl⟩
    · exact ⟨keys, rfl⟩

theorem outcomes_withEnvironment (calls : List Call) :
    ∀ (scope : Scope) (keys : List String),
      (scope.withEnvironment keys).outcomes calls = scope.outcomes calls := by
  induction calls with
  | nil => exact fun _ _ => rfl
  | cons call rest ih =>
      intro scope keys
      obtain ⟨hfst, keys', hsnd⟩ := resolve_withEnvironment scope call.1 call.2 keys
      rw [outcomes_cons, outcomes_cons, hfst, hsnd, ih]

theorem lookup_withEnvironment (keys : List String) (path : String) :
    (scope.withEnvironment keys).lookup path = scope.lookup path := rfl

theorem isMember_withEnvironment {key name : String} :
    (scope.withEnvironment (scope.environment ++ [key])).isMember name = true ↔
      scope.isMember name = true ∨ key = name := by
  simp only [withEnvironment, isMember, Bool.or_eq_true, List.contains_iff_mem, List.mem_append,
    List.mem_singleton, or_assoc, @eq_comm _ name]

/-- The members that a screen declares. -/
def declaredMembers (scope : Scope) : Except BadDefault (List Swift.Member) := do
  let parameters ← scope.parameters.mapM fun (name, v) =>
    (initialValue v).map fun value => Swift.Member.parameter name (Swift.typeText v.type) value
  let state ← scope.state.mapM fun (name, v) =>
    (initialValue v).map fun value => Swift.Member.state name (Swift.typeText v.type) value
  return parameters ++ state

/-- The members that bindings have added. -/
def addedMembers (scope : Scope) : List Swift.Member :=
  (scope.inferred.map fun (name, type) =>
    Swift.Member.state name (Swift.typeText type) (Swift.zeroValue type)) ++
    scope.environment.map fun key => Swift.Member.environment key key

theorem members_eq_map (scope : Scope) :
    scope.members = scope.declaredMembers.map (· ++ scope.addedMembers) := by
  unfold members declaredMembers
  cases scope.parameters.mapM fun (name, v) =>
    (initialValue v).map fun value => Swift.Member.parameter name (Swift.typeText v.type) value with
  | error => rfl
  | ok parameters =>
      cases scope.state.mapM fun (name, v) =>
        (initialValue v).map fun value =>
          Swift.Member.state name (Swift.typeText v.type) value with
      | error => rfl
      | ok state => simp [Steps.ok_bind, Steps.pure_eq_ok, Except.map, addedMembers]

theorem members_withEnvironment (key : String) :
    (scope.withEnvironment (scope.environment ++ [key])).members =
      scope.members.map (· ++ [Swift.Member.environment key key]) := by
  rw [members_eq_map, members_eq_map]
  show scope.declaredMembers.map _ = _
  cases scope.declaredMembers with
  | error => rfl
  | ok declared => simp [Except.map, addedMembers, withEnvironment]

/-! ### Bindings that fail -/

/-- The binding is to an environment value that is not in use yet. -/
def Enters (scope : Scope) (b : DataBinding) : Prop :=
  b.source = .environment ∧ b.path ∈ Entries.names environmentKeys ∧ b.path ∉ scope.environment

/-- Where its key is not the first use of an environment value, a binding that fails leaves the
scope as it is. -/
theorem snd_of_error {fault : PathFault} (hfails : (scope.resolve b schema).1 = .error fault)
    (hb : ¬ scope.Enters b) : (scope.resolve b schema).2 = scope := by
  by_cases hbrings : scope.Brings b
  · rcases resolve_of_brings schema hbrings with ⟨_, _, _, heq⟩ | ⟨⟨_, heq⟩, _⟩
    · rw [heq] at hfails
      cases hfails
    · rw [heq]
  · rw [resolve_snd_of_not_brings hbrings]
    split
    next hkey =>
      have hused : b.path ∈ scope.environment := by
        by_contra hnew
        exact hb ⟨hkey.1, hkey.2, hnew⟩
      rw [useEnvironment, if_pos (List.contains_iff_mem.mpr hused)]
    · rfl

/-- The first use of an environment value leaves its key, whether the binding fails or not. -/
theorem snd_of_enters (hb : scope.Enters b) :
    (scope.resolve b schema).2 = scope.withEnvironment (scope.environment ++ [b.path]) := by
  obtain ⟨hsource, hkey, hnew⟩ := hb
  rw [resolve_snd_of_not_brings (by simp [Brings, hsource]), if_pos ⟨hsource, hkey⟩,
    useEnvironment, if_neg (by simpa using hnew)]
  rfl

theorem exists_withEnvironment_of_error {fault : PathFault}
    (hfails : (scope.resolve b schema).1 = .error fault) :
    ∃ keys, (scope.resolve b schema).2 = scope.withEnvironment keys := by
  by_cases hb : scope.Enters b
  · exact ⟨_, snd_of_enters hb⟩
  · exact ⟨scope.environment, snd_of_error hfails hb⟩

/-- **What a binding that fails leaves behind**, after any run of bindings.  It leaves the scope as
it is iff it is not the first use of an environment value; if it is, the key is in use from then
on, and a handler may not have its name.  What paths stand for and what later bindings give is the
same as without it. -/
theorem resolve_of_error (screen : Screen) (models : List DataModel) (calls : List Call)
    (b : DataBinding) (schema : PropSchema) (fault : PathFault) (after : Scope)
    (hfails : ((ofScreen screen models).run calls).resolve b schema = (.error fault, after)) :
    let before := (ofScreen screen models).run calls
    (after = before ↔ ¬ before.Enters b) ∧
    (before.Enters b → after = before.withEnvironment (before.environment ++ [b.path])) ∧
    (∀ path, after.lookup path = before.lookup path) ∧
    (∀ more, after.outcomes more = before.outcomes more) ∧
    (∀ name, after.isMember name = true ↔
      before.isMember name = true ∨ before.Enters b ∧ b.path = name) ∧
    (∀ seen name params, ¬ (before.Enters b ∧ b.path = name) →
      after.handlerFault? seen name params = before.handlerFault? seen name params) ∧
    (before.Enters b →
      after.members = before.members.map (· ++ [Swift.Member.environment b.path b.path])) := by
  intro before
  have hfst : (before.resolve b schema).1 = .error fault := congrArg Prod.fst hfails
  have hsnd : (before.resolve b schema).2 = after := congrArg Prod.snd hfails
  by_cases hb : before.Enters b
  · rw [snd_of_enters hb] at hsnd
    subst hsnd
    refine ⟨⟨fun hsame => ?_, fun hnot => absurd hb hnot⟩, fun _ => rfl, fun _ => rfl,
      fun more => outcomes_withEnvironment more before _, fun name => ?_,
      fun seen name params hname => ?_, fun _ => members_withEnvironment b.path⟩
    · have hkeys : before.environment ++ [b.path] = before.environment :=
        congrArg Scope.environment hsame
      simp at hkeys
    · rw [isMember_withEnvironment]
      simp [hb]
    · have hmember : (before.withEnvironment (before.environment ++ [b.path])).isMember name =
          before.isMember name := by
        rw [Bool.eq_iff_iff, isMember_withEnvironment]
        exact or_iff_left fun hpath => hname ⟨hb, hpath⟩
      simp only [handlerFault?, hmember]
  · rw [snd_of_error hfst hb] at hsnd
    subst hsnd
    simp [hb]

/-- A screen that declares nothing. -/
def bareScreen : Screen :=
  ⟨"home", "Home", none, [], [], .node ⟨"t", "Text", [], [], []⟩ []⟩

/-- A binding to a parameter that the screen does not have leaves everything as it is. -/
theorem resolve_of_missing_parameter :
    ((ofScreen bareScreen []).run []).resolve ⟨"content", .parameter, "title"⟩
        ⟨"content", .string, false, none, .read⟩ =
      (.error (.notParameter "title"), (ofScreen bareScreen []).run []) :=
  have hafter := resolve_of_error bareScreen [] [] ⟨"content", .parameter, "title"⟩
    ⟨"content", .string, false, none, .read⟩ (.notParameter "title") _ rfl
  congrArg (Prod.mk _) (hafter.1.mpr (by simp [Enters]))

/-- The color scheme is no boolean, so this binding fails; afterwards its key is a member. -/
theorem isMember_of_colorScheme :
    ¬ ∀ (screen : Screen) (models : List DataModel) (calls : List Call) (b : DataBinding)
      (schema : PropSchema) (fault : PathFault) (after : Scope),
      ((ofScreen screen models).run calls).resolve b schema = (.error fault, after) →
        ∀ name, after.isMember name = ((ofScreen screen models).run calls).isMember name := by
  intro h
  have hmember := h bareScreen [] [] ⟨"condition", .environment, "colorScheme"⟩
    ⟨"condition", .bool, false, none, .read⟩ (.opaqueValue "colorScheme" .bool) _ rfl "colorScheme"
  revert hmember
  decide

/-! ### The bindings of a tree -/

variable {catalog : Catalog} {element : Element} {fault : PathFault}

theorem exists_resolve_of_resolveOn_error
    (h : scope.resolveOn catalog element b = (.error fault, after)) :
    after = scope ∨ ∃ schema, scope.resolve b schema = (.error fault, after) := by
  unfold resolveOn at h
  split at h
  · exact Or.inl (congrArg Prod.snd h).symm
  · split at h
    · exact Or.inl (congrArg Prod.snd h).symm
    next schema _ => exact Or.inr ⟨schema, h⟩

theorem resolveOn_withEnvironment (catalog : Catalog) (scope : Scope) (element : Element)
    (b : DataBinding) (keys : List String) :
    ((scope.withEnvironment keys).resolveOn catalog element b).1 =
        (scope.resolveOn catalog element b).1 ∧
      ∃ keys', ((scope.withEnvironment keys).resolveOn catalog element b).2 =
        (scope.resolveOn catalog element b).2.withEnvironment keys' := by
  unfold resolveOn
  split
  · exact ⟨rfl, keys, rfl⟩
  · split
    · exact ⟨rfl, keys, rfl⟩
    next schema _ => exact resolve_withEnvironment scope b schema keys

theorem bindingErrors_withEnvironment (screenId : String)
    (bindings : List (Element × DataBinding)) :
    ∀ (scope : Scope) (keys : List String),
      ((scope.withEnvironment keys).bindingErrors catalog screenId bindings).1 =
        (scope.bindingErrors catalog screenId bindings).1 := by
  induction bindings with
  | nil => exact fun _ _ => rfl
  | cons entry rest ih =>
      obtain ⟨element, b⟩ := entry
      intro scope keys
      obtain ⟨hfst, keys', hsnd⟩ := resolveOn_withEnvironment catalog scope element b keys
      unfold bindingErrors
      rcases hresolve : scope.resolveOn catalog element b with ⟨found, after⟩
      rw [hresolve] at hfst hsnd
      rw [show (scope.withEnvironment keys).resolveOn catalog element b =
        (found, after.withEnvironment keys') from Prod.ext hfst hsnd]
      cases found with
      | ok bound => exact ih after keys'
      | error fault =>
          exact congrArg
            (.unresolvedBinding screenId element.id b.source b.path fault :: ·) (ih after keys')

/-- **A binding that fails is one error among those of a tree.**  The other bindings have the errors
that they have without it, and unless it is the first use of an environment value, the scope for
all further checks is the same too. -/
theorem bindingErrors_of_error (screenId : String) (rest : List (Element × DataBinding))
    (h : scope.resolveOn catalog element b = (.error fault, after)) :
    (scope.bindingErrors catalog screenId ((element, b) :: rest)).1 =
        .unresolvedBinding screenId element.id b.source b.path fault ::
          (scope.bindingErrors catalog screenId rest).1 ∧
      (¬ scope.Enters b → (scope.bindingErrors catalog screenId ((element, b) :: rest)).2 =
        (scope.bindingErrors catalog screenId rest).2) := by
  have hsteps : scope.bindingErrors catalog screenId ((element, b) :: rest) =
      (.unresolvedBinding screenId element.id b.source b.path fault ::
        (after.bindingErrors catalog screenId rest).1,
        (after.bindingErrors catalog screenId rest).2) := by
    rw [bindingErrors, h]
  rw [hsteps]
  rcases exists_resolve_of_resolveOn_error h with rfl | ⟨schema, hresolve⟩
  · exact ⟨rfl, fun _ => rfl⟩
  · have hfst : (scope.resolve b schema).1 = .error fault := congrArg Prod.fst hresolve
    have hsnd : (scope.resolve b schema).2 = after := congrArg Prod.snd hresolve
    obtain ⟨keys, hkeys⟩ := exists_withEnvironment_of_error hfst
    refine ⟨?_, fun hb => ?_⟩
    · rw [← hsnd, hkeys, bindingErrors_withEnvironment]
    · rw [← hsnd, snd_of_error hfst hb]

end Scope

end Screenwright
