/-
The order of bindings.

Bindings that resolve one after the other resolve in every order.  A binding that has resolved
changes what a later one gives in one way only: where both are of the same undeclared state, the
second has to expect the type that the first has brought.  So a run succeeds iff each of its
bindings does so alone and any two of the same undeclared state expect the same, neither of which
speaks of the order.  What the bindings give is what they give alone, and what is declared
afterwards depends on which bindings there are.  A path that has a meaning keeps it through every
run, also through bindings that fail.
-/
import Screenwright.Proofs.Resolution

namespace Screenwright

namespace Scope

open DataBinding (rootOf segmentsOf)

variable {scope other after : Scope} {b : DataBinding} {schema : PropSchema} {c c' : Call}
  {calls calls' : List Call}

/-! ### What a run keeps -/

/-- What is declared stays, what has come into being keeps its type, and no parameter comes into
being as state. -/
structure Grows (scope after : Scope) : Prop extends SameDeclared scope after where
  inferred : ∀ name type, scope.inferred.lookup name = some type →
    after.inferred.lookup name = some type
  apart : ∀ name ∈ Entries.names after.inferred, name ∈ Entries.names scope.inferred ∨
    name ∉ Entries.names scope.parameters

theorem Grows.refl (scope : Scope) : Grows scope scope :=
  ⟨SameDeclared.refl scope, fun _ _ h => h, fun _ h => Or.inl h⟩

theorem Grows.trans {between : Scope} (h : Grows scope between) (h' : Grows between after) :
    Grows scope after := by
  refine ⟨h.toSameDeclared.trans h'.toSameDeclared,
    fun name type hname => h'.inferred name type (h.inferred name type hname), fun name hname => ?_⟩
  rcases h'.apart name hname with hbetween | hnot
  · exact h.apart name hbetween
  · rw [h.parameters] at hnot
    exact Or.inr hnot

theorem grows_bring {path : String} {type : ValueType} (h : scope.Admits path type) :
    Grows scope (scope.bring path type) := by
  refine ⟨⟨rfl, rfl, rfl⟩, fun name first hname => ?_, fun name hname => ?_⟩
  · rw [bring, Entries.lookup_putNew, hname]
    rfl
  · rcases Entries.mem_names_putNew.mp hname with hold | rfl
    · exact Or.inl hold
    · exact Or.inr h.parameter

/-- **A binding keeps what is declared and what has come into being, whether it resolves or not.** -/
theorem grows_resolve (scope : Scope) (b : DataBinding) (schema : PropSchema) :
    Grows scope (scope.resolve b schema).2 := by
  by_cases hb : scope.Brings b
  · rcases resolve_of_brings schema hb with ⟨type, _, hadmits, heq⟩ | ⟨⟨fault, heq⟩, _⟩
    · rw [heq]
      exact grows_bring hadmits
    · rw [heq]
      exact Grows.refl scope
  · rw [resolve_snd_of_not_brings hb]
    split
    · obtain ⟨keys, hkeys⟩ := exists_withEnvironment_useEnvironment scope b.path
      rw [hkeys]
      exact ⟨⟨rfl, rfl, rfl⟩, fun _ _ h => h, fun _ h => Or.inl h⟩
    · exact Grows.refl scope

theorem grows_run (calls : List Call) : ∀ scope : Scope, Grows scope (scope.run calls) := by
  induction calls with
  | nil => exact Grows.refl
  | cons call rest ih => exact fun scope => (grows_resolve _ call.1 call.2).trans (ih _)

/-- **A path that has a meaning keeps it.** -/
theorem Grows.lookup_eq_ok (h : Grows scope after) {path : String} {bound : Bound}
    (hlookup : scope.lookup path = .ok bound) : after.lookup path = .ok bound := by
  have htype (type : ValueType) : after.typeAlong type path = scope.typeAlong type path := by
    rw [typeAlong, typeAlong, h.models]
  unfold lookup at hlookup ⊢
  dsimp only at hlookup ⊢
  simp only [h.state, h.parameters, htype]
  cases hstate : scope.state.lookup (rootOf path) with
  | some v =>
      rw [hstate] at hlookup
      exact hlookup
  | none =>
      rw [hstate] at hlookup
      by_cases hwhole : (segmentsOf path).length ≤ 1
      · simp only [hwhole, if_true] at hlookup ⊢
        cases hinferred : scope.inferred.lookup (rootOf path) with
        | some type =>
            rw [hinferred] at hlookup
            rw [h.inferred _ _ hinferred]
            exact hlookup
        | none =>
            rw [hinferred] at hlookup
            cases hafter : after.inferred.lookup (rootOf path) with
            | none => exact hlookup
            | some type =>
                -- A root that has come into being since is no parameter, so it had no meaning.
                exfalso
                rcases h.apart _ (Entries.mem_names_of_lookup hafter) with hold | hnot
                · obtain ⟨first, hfirst⟩ := Entries.exists_lookup hold
                  rw [hinferred] at hfirst
                  cases hfirst
                · cases hparameter : scope.parameters.lookup (rootOf path) with
                  | some v => exact hnot (Entries.mem_names_of_lookup hparameter)
                  | none =>
                      rw [hparameter] at hlookup
                      cases hlookup
      · simp only [hwhole, if_false] at hlookup ⊢
        exact hlookup

/-! ### Two bindings -/

/-- The binding resolves. -/
def Succeeds (scope : Scope) (c : Call) : Prop :=
  ∃ bound, (scope.resolve c.1 c.2).1 = .ok bound

/-- If the two are of the same undeclared state, they expect the same type. -/
def Concur (scope : Scope) (c c' : Call) : Prop :=
  scope.Brings c.1 → scope.Brings c'.1 → c.1.path = c'.1.path →
    c.2.kind.expectedType? = c'.2.kind.expectedType?

theorem Concur.symm (h : scope.Concur c c') : scope.Concur c' c :=
  fun hb hb' hpath => (h hb' hb hpath.symm).symm

theorem concur_eq (hsame : SameDeclared scope other) : other.Concur = scope.Concur := by
  funext c c'
  simp only [Concur, brings_iff hsame]

/-- A binding of undeclared state resolves iff its path can come into being with the type that the
property expects. -/
theorem succeeds_iff_of_brings (hb : scope.Brings c.1) : scope.Succeeds c ↔
    ∃ type, c.2.kind.expectedType? = some type ∧ scope.Admits c.1.path type := by
  rcases resolve_of_brings c.2 hb with
    ⟨type, htype, hadmits, heq⟩ | ⟨⟨fault, heq⟩, hrefused⟩
  · exact ⟨fun _ => ⟨type, htype, hadmits⟩, fun _ => ⟨_, congrArg Prod.fst heq⟩⟩
  · constructor
    · rintro ⟨bound, hbound⟩
      rw [heq] at hbound
      cases hbound
    · rintro ⟨type, htype, hadmits⟩
      exact absurd hadmits (hrefused type htype)

theorem resolve_of_admits (hb : scope.Brings b) {type : ValueType}
    (htype : schema.kind.expectedType? = some type) (hadmits : scope.Admits b.path type) :
    scope.resolve b schema = (.ok ⟨.state, b.path, some type⟩, scope.bring b.path type) := by
  rcases resolve_of_brings schema hb with ⟨type', htype', -, heq⟩ | ⟨-, hrefused⟩
  · rw [htype] at htype'
    cases htype'
    exact heq
  · exact absurd hadmits (hrefused type htype)

/-- Once a path has come into being, it can do so again with the same type. -/
theorem admits_bring_iff {path path' : String} {type type' : ValueType}
    (h : scope.Admits path type) : (scope.bring path type).Admits path' type' ↔
      scope.Admits path' type' ∧ (path = path' → type = type') := by
  have hlookup : (scope.bring path type).inferred.lookup path' =
      (scope.inferred.lookup path').orElse fun _ => if path' = path then some type else none :=
    Entries.lookup_putNew
  constructor
  · intro h'
    refine ⟨⟨h'.whole, h'.parameter, h'.free, fun first hfirst => h'.agrees first ?_⟩, ?_⟩
    · rw [hlookup, hfirst]
      rfl
    · rintro rfl
      refine h'.agrees type ?_
      rw [hlookup]
      cases hfirst : scope.inferred.lookup path with
      | none => simp
      | some first => rw [h.agrees first hfirst, Option.orElse_some]
  · rintro ⟨h', hsame⟩
    refine ⟨h'.whole, h'.parameter, h'.free, fun first hfirst => ?_⟩
    rw [hlookup] at hfirst
    cases hold : scope.inferred.lookup path' with
    | some old =>
        rw [hold, Option.orElse_some] at hfirst
        cases hfirst
        exact h'.agrees first hold
    | none =>
        simp only [hold, Option.orElse_none, Option.ite_none_right_eq_some] at hfirst
        rw [← hsame hfirst.1.symm]
        exact (Option.some.inj hfirst.2).symm

/-- A binding of what is declared brings nothing into being. -/
theorem inferred_of_not_brings (schema : PropSchema) (hb : ¬ scope.Brings b) :
    (scope.resolve b schema).2.inferred = scope.inferred := by
  rw [resolve_snd_of_not_brings hb]
  split
  · exact inferred_useEnvironment scope b.path
  · rfl

/-- **A binding that has resolved lets the same bindings resolve as before**, but for those of the
state that it has brought, which now have to expect the same type. -/
theorem succeeds_after_iff (hc : scope.Succeeds c) : (scope.resolve c.1 c.2).2.Succeeds c' ↔
    scope.Succeeds c' ∧ scope.Concur c c' := by
  have hsame := (grows_resolve scope c.1 c.2).toSameDeclared
  by_cases hb' : scope.Brings c'.1
  · rw [succeeds_iff_of_brings ((brings_iff hsame).mpr hb'), succeeds_iff_of_brings hb']
    by_cases hb : scope.Brings c.1
    · obtain ⟨type, htype, hadmits⟩ := (succeeds_iff_of_brings hb).mp hc
      rw [resolve_of_admits hb htype hadmits]
      simp only [admits_bring_iff hadmits]
      constructor
      · rintro ⟨type', htype', hadmits', hpath⟩
        refine ⟨⟨type', htype', hadmits'⟩, fun _ _ heq => ?_⟩
        rw [htype, htype', hpath heq]
      · rintro ⟨⟨type', htype', hadmits'⟩, hconcur⟩
        refine ⟨type', htype', hadmits', fun heq => ?_⟩
        have hexpected := hconcur hb hb' heq
        rw [htype, htype'] at hexpected
        exact Option.some.inj hexpected
    · have hadmits (type : ValueType) : (scope.resolve c.1 c.2).2.Admits c'.1.path type ↔
          scope.Admits c'.1.path type := by
        constructor
        · intro h
          exact ⟨h.whole, hsame.parameters ▸ h.parameter, h.free,
            inferred_of_not_brings c.2 hb ▸ h.agrees⟩
        · intro h
          refine ⟨h.whole, ?_, h.free, ?_⟩
          · rw [hsame.parameters]
            exact h.parameter
          · rw [inferred_of_not_brings c.2 hb]
            exact h.agrees
      simp only [hadmits]
      exact ⟨fun h => ⟨h, fun hbrings => absurd hbrings hb⟩, And.left⟩
  · rw [Succeeds, resolve_fst_of_not_brings hsame hb']
    exact ⟨fun h => ⟨h, fun _ hbrings => absurd hbrings hb'⟩, And.left⟩

/-- Where a binding resolves, it gives the same. -/
theorem resolve_fst_eq (hsame : SameDeclared scope other) (h : scope.Succeeds c)
    (h' : other.Succeeds c) : (other.resolve c.1 c.2).1 = (scope.resolve c.1 c.2).1 := by
  by_cases hb : scope.Brings c.1
  · have hb' := (brings_iff hsame).mpr hb
    obtain ⟨type, htype, hadmits⟩ := (succeeds_iff_of_brings hb).mp h
    obtain ⟨type', htype', hadmits'⟩ := (succeeds_iff_of_brings hb').mp h'
    rw [htype] at htype'
    cases htype'
    rw [resolve_of_admits hb htype hadmits, resolve_of_admits hb' htype hadmits']
  · exact resolve_fst_of_not_brings hsame hb

/-! ### Runs that succeed -/

/-- All bindings of the run resolve. -/
def AllSucceed (scope : Scope) (calls : List Call) : Prop :=
  ∀ outcome ∈ scope.outcomes calls, ∃ bound, outcome = .ok bound

theorem allSucceed_cons {rest : List Call} : scope.AllSucceed (c :: rest) ↔
    scope.Succeeds c ∧ (scope.resolve c.1 c.2).2.AllSucceed rest := by
  rw [AllSucceed, outcomes_cons, List.forall_mem_cons]
  rfl

/-- **A run succeeds iff its bindings do so alone and those of the same state concur.** -/
theorem allSucceed_iff (calls : List Call) : ∀ scope : Scope, scope.AllSucceed calls ↔
    (∀ c ∈ calls, scope.Succeeds c) ∧ calls.Pairwise scope.Concur := by
  induction calls with
  | nil => exact fun _ => by simp [AllSucceed, outcomes]
  | cons c rest ih =>
      intro scope
      have hsame := (grows_resolve scope c.1 c.2).toSameDeclared
      rw [allSucceed_cons, ih, List.forall_mem_cons, List.pairwise_cons, and_assoc]
      refine and_congr_right fun hc => ?_
      simp only [succeeds_after_iff hc, concur_eq hsame, forall_and, and_assoc]

/-- **What the bindings of a run that succeeds give is what they give alone.** -/
theorem AllSucceed.outcomes_eq {scope : Scope} (h : scope.AllSucceed calls) :
    scope.outcomes calls = calls.map fun c => (scope.resolve c.1 c.2).1 := by
  induction calls generalizing scope with
  | nil => rfl
  | cons c rest ih =>
      have halone := (allSucceed_iff _ _).mp h
      obtain ⟨hc, hrest⟩ := allSucceed_cons.mp h
      have hafter := ((allSucceed_iff _ _).mp hrest).1
      rw [outcomes_cons, ih hrest, List.map_cons]
      congr 1
      refine List.map_congr_left fun c' hc' => ?_
      exact resolve_fst_eq (grows_resolve _ c.1 c.2).toSameDeclared
        (halone.1 c' (List.mem_cons_of_mem _ hc')) (hafter c' hc')

/-- A run succeeds in every order. -/
theorem AllSucceed.perm (h : scope.AllSucceed calls) (horder : calls.Perm calls') :
    scope.AllSucceed calls' := by
  rw [allSucceed_iff] at h ⊢
  refine ⟨fun c hc => h.1 c (horder.mem_iff.mpr hc), ?_⟩
  exact (horder.pairwise_iff fun hconcur => hconcur.symm).mp h.2

/-! ### What a run declares -/

theorem environment_of_brings (hb : scope.Brings b) :
    (scope.resolve b schema).2.environment = scope.environment := by
  rcases resolve_of_brings schema hb with ⟨_, _, _, heq⟩ | ⟨⟨_, heq⟩, _⟩
  · rw [heq]
    rfl
  · rw [heq]

theorem mem_environment_resolve {key : String} : key ∈ (scope.resolve b schema).2.environment ↔
    key ∈ scope.environment ∨
      b.source = .environment ∧ b.path ∈ Entries.names environmentKeys ∧ b.path = key := by
  by_cases hb : scope.Brings b
  · rw [environment_of_brings hb]
    simp [hb.1]
  · rw [resolve_snd_of_not_brings hb]
    split
    next hkey => rw [mem_environment_useEnvironment]; simp [hkey, eq_comm]
    next hkey => simp only [← and_assoc, hkey, false_and, or_false]

theorem mem_environment_run {key : String} (calls : List Call) : ∀ scope : Scope,
    key ∈ (scope.run calls).environment ↔ key ∈ scope.environment ∨ ∃ c ∈ calls,
      c.1.source = .environment ∧ c.1.path ∈ Entries.names environmentKeys ∧ c.1.path = key := by
  induction calls with
  | nil => simp [run]
  | cons c rest ih =>
      intro scope
      rw [run_cons, ih, mem_environment_resolve, List.exists_mem_cons_iff, or_assoc]

/-- What a binding that resolves has brought into being. -/
theorem lookup_inferred_resolve (hc : scope.Succeeds c) {name : String} {type : ValueType} :
    (scope.resolve c.1 c.2).2.inferred.lookup name = some type ↔
      scope.inferred.lookup name = some type ∨
        scope.Brings c.1 ∧ c.1.path = name ∧ c.2.kind.expectedType? = some type := by
  by_cases hb : scope.Brings c.1
  · obtain ⟨wanted, hwanted, hadmits⟩ := (succeeds_iff_of_brings hb).mp hc
    rw [resolve_of_admits hb hwanted hadmits]
    show (Entries.putNew c.1.path wanted scope.inferred).lookup name = some type ↔ _
    rw [Entries.lookup_putNew, hwanted]
    cases hfirst : scope.inferred.lookup name with
    | none => simp [hb, eq_comm]
    | some first =>
        simp only [Option.orElse_some, hb, true_and]
        refine ⟨Or.inl, ?_⟩
        rintro (h | ⟨rfl, h⟩)
        · exact h
        · rw [← h, hadmits.agrees first hfirst]
  · rw [inferred_of_not_brings c.2 hb]
    simp [hb]

/-- **What a run that succeeds brings into being is told by its bindings**, whatever their order. -/
theorem AllSucceed.lookup_inferred {scope : Scope} (h : scope.AllSucceed calls) {name : String}
    {type : ValueType} : (scope.run calls).inferred.lookup name = some type ↔
      scope.inferred.lookup name = some type ∨ ∃ c ∈ calls,
        scope.Brings c.1 ∧ c.1.path = name ∧ c.2.kind.expectedType? = some type := by
  induction calls generalizing scope with
  | nil => simp [run]
  | cons c rest ih =>
      obtain ⟨hc, hrest⟩ := allSucceed_cons.mp h
      have hsame := (grows_resolve scope c.1 c.2).toSameDeclared
      rw [run_cons, ih hrest, lookup_inferred_resolve hc, List.exists_mem_cons_iff, or_assoc]
      simp only [brings_iff hsame]

/-- No name comes into being twice, and no key is in use twice. -/
structure Distinct (scope : Scope) : Prop where
  inferred : (Entries.names scope.inferred).Nodup
  environment : scope.environment.Nodup

theorem Distinct.resolve (h : scope.Distinct) (b : DataBinding) (schema : PropSchema) :
    (scope.resolve b schema).2.Distinct := by
  by_cases hb : scope.Brings b
  · rcases resolve_of_brings schema hb with ⟨_, _, _, heq⟩ | ⟨⟨_, heq⟩, _⟩
    · rw [heq]
      exact ⟨Entries.nodup_putNew h.inferred, h.environment⟩
    · rw [heq]
      exact h
  · rw [resolve_snd_of_not_brings hb]
    split
    · refine ⟨?_, nodup_environment_useEnvironment scope b.path h.environment⟩
      rw [inferred_useEnvironment]
      exact h.inferred
    · exact h

theorem Distinct.run (calls : List Call) : ∀ {scope : Scope}, scope.Distinct →
    (scope.run calls).Distinct := by
  induction calls with
  | nil => exact fun h => h
  | cons c rest ih => exact fun h => ih (h.resolve c.1 c.2)

/-- Scopes that declare the same, each in its own order. -/
structure Rearranged (scope other : Scope) : Prop extends SameDeclared scope other where
  inferred : scope.inferred.Perm other.inferred
  environment : scope.environment.Perm other.environment

/-- **A run that succeeds declares the same in every order.** -/
theorem AllSucceed.rearranged (h : scope.AllSucceed calls) (hdistinct : scope.Distinct)
    (horder : calls.Perm calls') : Rearranged (scope.run calls) (scope.run calls') := by
  have hrun := hdistinct.run calls
  have hrun' := hdistinct.run calls'
  have hgrows := grows_run calls scope
  have hgrows' := grows_run calls' scope
  have hmem {table : Entries ValueType} (hnodup : (Entries.names table).Nodup)
      (entry : String × ValueType) : entry ∈ table ↔ table.lookup entry.1 = some entry.2 :=
    ⟨Entries.lookup_of_mem hnodup, Entries.mem_of_lookup⟩
  refine ⟨⟨hgrows'.models.trans hgrows.models.symm, hgrows'.parameters.trans hgrows.parameters.symm,
    hgrows'.state.trans hgrows.state.symm⟩, ?_, ?_⟩
  · refine (List.perm_ext_iff_of_nodup hrun.inferred.of_map hrun'.inferred.of_map).mpr ?_
    intro entry
    rw [hmem hrun.inferred, hmem hrun'.inferred, h.lookup_inferred,
      (h.perm horder).lookup_inferred]
    simp only [horder.mem_iff]
  · refine (List.perm_ext_iff_of_nodup hrun.environment hrun'.environment).mpr fun key => ?_
    rw [mem_environment_run, mem_environment_run]
    simp only [horder.mem_iff]

/-- Scopes that declare the same have the same members. -/
theorem Rearranged.members (h : Rearranged scope other) :
    (∃ fault, scope.members = .error fault ∧ other.members = .error fault) ∨
      ∃ found found', scope.members = .ok found ∧ other.members = .ok found' ∧
        found.Perm found' := by
  have hdeclared : other.declaredMembers = scope.declaredMembers := by
    simp only [declaredMembers, h.parameters, h.state]
  have hadded : scope.addedMembers.Perm other.addedMembers :=
    (h.inferred.map _).append (h.environment.map _)
  rw [members_eq_map, members_eq_map, hdeclared]
  cases scope.declaredMembers with
  | error fault => exact Or.inl ⟨fault, rfl, rfl⟩
  | ok declared => exact Or.inr ⟨_, _, rfl, rfl, hadded.append_left declared⟩

/-- **Bindings resolve in every order or in none.**  If those of a screen all resolve in one order,
they do so in every other, each gives what it gives alone, and the screen has the same members with
the same types.  In every run, whether its bindings resolve or not, a path that has a meaning keeps
it. -/
theorem bindings_commute (screen : Screen) (models : List DataModel) :
    let fresh := ofScreen screen models
    (∀ calls calls', calls.Perm calls' → fresh.AllSucceed calls →
      fresh.AllSucceed calls' ∧
      fresh.outcomes calls = (calls.map fun c => (fresh.resolve c.1 c.2).1) ∧
      fresh.outcomes calls' = (calls'.map fun c => (fresh.resolve c.1 c.2).1) ∧
      Rearranged (fresh.run calls) (fresh.run calls') ∧
      ((∃ fault, (fresh.run calls).members = .error fault ∧
          (fresh.run calls').members = .error fault) ∨
        ∃ found found', (fresh.run calls).members = .ok found ∧
          (fresh.run calls').members = .ok found' ∧ found.Perm found')) ∧
    ∀ calls more path bound, (fresh.run calls).lookup path = .ok bound →
      (fresh.run (calls ++ more)).lookup path = .ok bound := by
  intro fresh
  refine ⟨fun calls calls' horder hall => ?_, fun calls more path bound hlookup => ?_⟩
  · have hall' := hall.perm horder
    have hsame := hall.rearranged ⟨List.nodup_nil, List.nodup_nil⟩ horder
    exact ⟨hall', hall.outcomes_eq, hall'.outcomes_eq, hsame, hsame.members⟩
  · rw [run_append]
    exact (grows_run more _).lookup_eq_ok hlookup

/-- A text of undeclared state. -/
def titleCall : Call :=
  (⟨"text", .state, "title"⟩, ⟨"text", .string, false, none, .twoWay⟩)

/-- A switch of undeclared state. -/
def doneCall : Call :=
  (⟨"isOn", .state, "done"⟩, ⟨"isOn", .bool, false, none, .twoWay⟩)

/-- The two are bound in either order, and the text keeps its state. -/
theorem bindings_commute_of_two :
    (ofScreen bareScreen []).AllSucceed [titleCall, doneCall] ∧
      (ofScreen bareScreen []).AllSucceed [doneCall, titleCall] ∧
      ((ofScreen bareScreen []).run ([titleCall] ++ [doneCall])).lookup "title" =
        .ok ⟨.state, "title", some .string⟩ := by
  have hall : (ofScreen bareScreen []).AllSucceed [titleCall, doneCall] := by
    rw [allSucceed_iff, List.pairwise_pair]
    refine ⟨fun c hc => ?_, fun _ _ hpath => absurd hpath (by decide)⟩
    rcases List.mem_pair.mp hc with rfl | rfl
    · exact ⟨⟨.state, "title", some .string⟩, rfl⟩
    · exact ⟨⟨.state, "done", some .bool⟩, rfl⟩
  obtain ⟨horder, hkeep⟩ := bindings_commute bareScreen []
  exact ⟨hall, (horder _ _ (.swap doneCall titleCall []) hall).1, hkeep _ _ _ _ rfl⟩

end Scope

end Screenwright
