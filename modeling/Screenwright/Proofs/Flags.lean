/-
The flags of sheets.

An action that presents a screen sets a flag of the view, and a sheet of the view shows the
screen while the flag is set.  For that the view declares the flag as a boolean that begins with
false, unless it has a member of that name already.  Such a member can only be state that a
binding has brought into being: nothing that is declared begins like a flag, and neither does an
environment value or a handler.  So every flag is declared once, as state, and the question is
only of which type; it is a boolean exactly if every binding of the name is of a property that
takes one, `BoundAsFlag`.  `flag_of_composed` is an accepted app in which a flag is a text.
-/
import Screenwright.Proofs.Lowering.Emission
import Screenwright.Proofs.Members
import Screenwright.Proofs.Sheets
import Screenwright.Proofs.Ways

namespace Screenwright

open Steps Swift

/-- The stored members of a view that have a name. -/
def Swift.ScreenView.membersNamed (view : ScreenView) (name : String) : List Member :=
  view.members.filter fun m => m.name = name

/-- Every binding of the name, as state, is of a property that takes a boolean. -/
def BoundAsFlag (catalog : Catalog) (tree : NormalTree) (name : String) : Prop :=
  ∀ entry ∈ tree.bindings, entry.2.source = .state → entry.2.path = name →
    catalog.expectedType? entry.1 entry.2 = some .bool

/-! ### Names of flags -/

namespace ScreenNames

variable (names : ScreenNames)

/-- A flag has no parts. -/
theorem rootOf_presentationFlag :
    DataBinding.rootOf names.presentationFlag = names.presentationFlag := by
  have hlist : names.presentationFlag.toList =
      "isPresenting".toList ++ Names.upperCamel names.handle.toList := by
    simp [presentationFlag]
  refine DataBinding.rootOf_of_not_mem fun hdot => ?_
  rw [hlist, List.mem_append] at hdot
  rcases hdot with hdot | hdot
  · have hnot : '.' ∉ "isPresenting".toList := by decide
    exact hnot hdot
  · have halphanum := Names.isAlphanum_of_mem_upperCamel names.handle.toList '.' hdot
    cases halphanum

theorem not_declarable_presentationFlag : ¬ Declarable names.presentationFlag := by
  intro h
  have hstarts := names.startsWith_presentationFlag
  rw [h.flag] at hstarts
  cases hstarts

end ScreenNames

/-! ### The one member of a flag -/

theorem filter_name_eq_nil {members : List Member} {name : String}
    (h : name ∉ members.map Member.name) : members.filter (fun m => m.name = name) = [] := by
  refine List.filter_eq_nil_iff.mpr fun m hm => ?_
  rw [decide_eq_true_eq]
  rintro rfl
  exact h (List.mem_map_of_mem hm)

/-- Of the state that bindings have brought into being, the one of a name. -/
theorem filter_inferred {inferred : Entries ValueType} (hnodup : (Entries.names inferred).Nodup)
    (name : String) :
    (inferred.map fun entry =>
        Member.state entry.1 (typeText entry.2) (zeroValue entry.2)).filter
        (fun m => m.name = name) =
      ((inferred.lookup name).map fun type =>
        Member.state name (typeText type) (zeroValue type)).toList := by
  rw [List.filter_map]
  show (inferred.filter fun entry => entry.1 = name).map _ = _
  rw [Entries.filter_name_eq hnodup]
  cases inferred.lookup name <;> rfl

/-- A flag of the ledger is added exactly if it is no member. -/
theorem filter_flagMembers {scope : Scope} {sheets : Entries String}
    (hnodup : (Entries.names sheets).Nodup) {flag : String} (hflag : flag ∈ Entries.names sheets) :
    (Setting.flagMembers scope sheets).filter (fun m => m.name = flag) =
      if scope.isMember flag then [] else [.state flag "Bool" (.bool false)] := by
  have hone : (Entries.names sheets).filter (fun name => name = flag) = [flag] := by
    rw [List.filter_eq, List.count_eq_one_of_mem hnodup hflag, List.replicate_one]
  rw [Setting.flagMembers, List.filter_map]
  show (((Entries.names sheets).filter fun name => !scope.isMember name).filter
    fun name => name = flag).map _ = _
  rw [List.filter_comm, hone]
  by_cases hmember : scope.isMember flag = true
  · simp [hmember]
  · simp [hmember]

/-- Only a boolean is declared as a flag is. -/
theorem state_eq_flag_iff {name : String} {type : ValueType} :
    Member.state name (typeText type) (zeroValue type) = .state name "Bool" (.bool false) ↔
      type = .bool := by
  constructor
  · intro heq
    have hzero : zeroValue type = .bool false := (Member.state.inj heq).2.2
    cases type with
    | bool => rfl
    | _ => cases hzero
  · rintro rfl
    rfl

namespace Furnished

variable {catalog : Catalog} {models : List DataModel} {screen : Screen} {tree : NormalTree}
  {scope : Scope} {flag : String}

/-- A name that cannot be declared is stored only if bindings have brought it into being. -/
theorem mem_storedNames_iff (h : Furnished catalog models screen tree scope)
    (hflag : ¬ Declarable flag) :
    flag ∈ scope.storedNames ↔ flag ∈ Entries.names scope.inferred := by
  have hdeclared : ¬ (flag ∈ Entries.names scope.parameters ∨
      flag ∈ Entries.names scope.state) :=
    fun hmem => hflag (h.declarable flag (h.mem_declared.mpr hmem))
  have henvironment : flag ∉ scope.environment :=
    fun hmem => hflag (Scope.declarable_of_key flag (h.tidy.known flag hmem)).1
  rw [Scope.storedNames, List.mem_append, List.mem_append, List.mem_append]
  simp [hdeclared, henvironment]

/-- The type under which bindings have brought a name into being is the one that they expect. -/
theorem boundAsFlag_iff (h : Furnished catalog models screen tree scope)
    (hflag : ¬ Declarable flag) (hroot : DataBinding.rootOf flag = flag) :
    BoundAsFlag catalog tree flag ↔
      ∀ type, scope.inferred.lookup flag = some type → type = .bool := by
  have hbrings : ∀ {entry : Element × DataBinding}, scope.Brings entry.2 ↔
      (Scope.ofScreen screen models).Brings entry.2 :=
    Scope.brings_iff h.run.sameDeclared
  constructor
  · intro hbound type htype
    obtain ⟨entry, hentry, hentrybrings, hpath⟩ :=
      h.mem_inferred.mp (Entries.mem_names_of_lookup htype)
    obtain ⟨type', hexpected, hlookup⟩ :=
      h.run.expectedType?_eq entry hentry (hbrings.mp hentrybrings)
    rw [hpath, htype] at hlookup
    rw [hbound entry hentry hentrybrings.1 hpath] at hexpected
    rw [Option.some.inj hlookup, ← Option.some.inj hexpected]
  · intro hlookup entry hentry hsource hpath
    have hundeclared : DataBinding.rootOf entry.2.path ∉ Entries.names scope.state := by
      rw [hpath, hroot]
      exact fun hmem => hflag (h.declarable flag (h.mem_declared.mpr (Or.inr hmem)))
    obtain ⟨type, hexpected, htype⟩ :=
      h.run.expectedType?_eq entry hentry (hbrings.mp ⟨hsource, hundeclared⟩)
    rw [hpath] at htype
    rw [hexpected, hlookup type htype]

end Furnished

/-- What a finished view stores under a name that cannot be declared: the state that bindings
have brought into being, or the flag of a sheet. -/
theorem Setting.membersNamed_of_finish {s : Setting} {catalog : Catalog}
    {models : List DataModel} {screen : Screen} {tree : NormalTree} {body : View}
    {ledger : Ledger} {view : ScreenView} (hfinish : s.finish screen body ledger = .ok view)
    (h : Furnished catalog models screen tree s.scope) (hclean : ledger.Clean s.scope)
    {flag : String} (hmem : flag ∈ Entries.names ledger.sheets) (hflag : ¬ Declarable flag) :
    view.membersNamed flag =
      [(s.scope.inferred.lookup flag).elim (.state flag "Bool" (.bool false)) fun type =>
        .state flag (typeText type) (zeroValue type)] := by
  obtain ⟨stored, hstored, hmembers⟩ := members_of_finish hfinish
  obtain ⟨declared, rfl, hnames⟩ := Scope.members_eq hstored
  have hdeclared : declared.filter (fun m => m.name = flag) = [] := by
    refine filter_name_eq_nil fun hin => hflag (h.declarable flag (h.mem_declared.mpr ?_))
    rw [hnames, List.mem_append] at hin
    exact hin
  have henvironment : (s.scope.environment.map fun key => Member.environment key key).filter
      (fun m => m.name = flag) = [] := by
    refine filter_name_eq_nil fun hin => hflag ?_
    obtain ⟨m, hm, rfl⟩ := List.mem_map.mp hin
    obtain ⟨key, hkey, rfl⟩ := List.mem_map.mp hm
    exact (Scope.declarable_of_key key (h.tidy.known key hkey)).1
  have hcommon : ((if ledger.usesRouter then [Member.router] else []) ++
      (if ledger.usesDismiss then [Member.environment "dismiss" "dismiss"] else [])).filter
        (fun m => m.name = flag) = [] := by
    refine filter_name_eq_nil fun hin => ?_
    rw [Ledger.map_name_common] at hin
    have hstarts := hclean.flags flag hmem
    rcases Ledger.mem_common hin with rfl | rfl
    · cases hstarts
    · cases hstarts
  rw [ScreenView.membersNamed, hmembers, List.filter_append, List.filter_append,
    List.filter_append, List.filter_append, hdeclared, henvironment, hcommon,
    filter_inferred h.tidy.inferred, filter_flagMembers hclean.sheets hmem]
  have hmember : s.scope.isMember flag = (s.scope.inferred.lookup flag).isSome := by
    rw [Bool.eq_iff_iff, Scope.isMember_iff, h.mem_storedNames_iff hflag]
    exact (Entries.has_iff_mem_names _ _).symm
  rw [hmember]
  cases s.scope.inferred.lookup flag <;> rfl

/-! ### The flags of a view -/

namespace Built

variable {app : AppDefinition} {screen : Screen} {tree : NormalTree} {view : ScreenView}
  {s : Setting} {order : List Use} {body : View} {flag : String}

/-- A flag that a statement of the view sets is a flag of the ledger. -/
theorem mem_sheets_of_run (h : Built app screen tree view s order body)
    (hrun : .run (.present flag) ∈ view.body.effects) :
    flag ∈ Entries.names (order.foldl s.record .empty).sheets := by
  obtain ⟨order', effects, hledger, -, hdoes, heffects⟩ :=
    Setting.root_emits s tree.root .empty body _ h.run
  rw [Setting.effects_of_finish h.finish, List.mem_append] at hrun
  rcases hrun with hrun | hrun
  · rw [heffects] at hrun
    rw [hledger, Setting.sheets_foldl_record, Entries.mem_names_foldl_putNew]
    obtain ⟨use, huse, hdone⟩ := exists_of_forall₂ hdoes _ hrun
    cases hdone with
    | present hnames => exact Or.inr ⟨_, List.mem_filterMap.mpr ⟨_, huse, hnames⟩, rfl⟩
  · obtain ⟨sheet, -, heq⟩ := List.mem_map.mp hrun
    cases heq

/-- The flag of a screen that the tree presents is a flag of the ledger. -/
theorem mem_sheets_of_presented (h : Built app screen tree view s order body) {target : String}
    (htarget : target ∈ tree.presented) (hflag : app.sheetFlag? target = some flag) :
    flag ∈ Entries.names (order.foldl s.record .empty).sheets := by
  obtain ⟨names, hnames, rfl⟩ := Option.map_eq_some_iff.mp hflag
  exact h.sheetsOf.shown target (h.mem_presented.mp htarget) names hnames

/-- A flag of the ledger has a sheet of the view. -/
theorem exists_sheetModifier (h : Built app screen tree view s order body)
    (hmem : flag ∈ Entries.names (order.foldl s.record .empty).sheets) :
    ∃ viewType, Setting.sheetModifier flag viewType ∈ view.body.chain := by
  obtain ⟨viewType, hlookup⟩ := Entries.exists_lookup hmem
  refine ⟨viewType, ?_⟩
  rw [Setting.body_of_finish h.finish, View.chain_modify]
  refine List.mem_append_right _ (List.mem_append_right _ ?_)
  exact List.mem_map.mpr ⟨_, Entries.mem_of_lookup hlookup, rfl⟩

/-- **Every flag is declared once, as state, and as a flag exactly if it is bound as one.** -/
theorem membersNamed_flag (h : Built app screen tree view s order body)
    (hvariables : app.variableErrors screen.id [] screen.declared = [])
    (hmem : flag ∈ Entries.names (order.foldl s.record .empty).sheets) :
    (∃ type initial, view.membersNamed flag = [.state flag type initial]) ∧
      (view.membersNamed flag = [.state flag "Bool" (.bool false)] ↔
        BoundAsFlag Catalog.standard tree flag) := by
  have hfurnished := h.furnished hvariables
  have hnames : ∃ names : ScreenNames, names.presentationFlag = flag := by
    rw [Setting.sheets_foldl_record, Entries.mem_names_foldl_putNew] at hmem
    rcases hmem with hnil | ⟨names, -, hflag⟩
    · cases hnil
    · exact ⟨names, hflag⟩
  obtain ⟨names, rfl⟩ := hnames
  have hflag := names.not_declarable_presentationFlag
  rw [Setting.membersNamed_of_finish h.finish hfurnished h.clean hmem hflag,
    hfurnished.boundAsFlag_iff hflag names.rootOf_presentationFlag]
  cases s.scope.inferred.lookup names.presentationFlag with
  | none =>
      refine ⟨⟨_, _, rfl⟩, fun _ type htype => ?_, fun _ => rfl⟩
      cases htype
  | some type =>
      refine ⟨⟨_, _, rfl⟩, ?_⟩
      show [Member.state _ (typeText type) (zeroValue type)] = _ ↔ _
      rw [List.singleton_inj, state_eq_flag_iff]
      constructor
      · rintro rfl other hother
        exact (Option.some.inj hother).symm
      · exact fun hall => hall type rfl

end Built

/-- **When the flags of a view are flags.**  In an accepted app a flag that a view sets, or that
belongs to a screen that its tree presents, has a sheet of the view, and the view declares it
exactly once, as state.  It is declared as a boolean that begins with false exactly if every
binding of its name is of a property that takes a boolean. -/
theorem flags_declared_iff (app : AppDefinition) (config : GeneratorConfig) (out : GeneratedApp)
    (h : generate app Catalog.standard config = .ok out) :
    ∀ screen ∈ app.screens, ∃ tree view,
      normalize screen.root Catalog.standard config.limits = .ok tree ∧
      buildScreen app.buildContext screen tree = .ok view ∧
      ∀ flag, (.run (.present flag) ∈ view.body.effects ∨
          ∃ target ∈ tree.presented, app.sheetFlag? target = some flag) →
        (∃ viewType, Setting.sheetModifier flag viewType ∈ view.body.chain) ∧
        (∃ type initial, view.membersNamed flag = [.state flag type initial]) ∧
        (view.membersNamed flag = [.state flag "Bool" (.bool false)] ↔
          BoundAsFlag Catalog.standard tree flag) := by
  intro screen hscreen
  obtain ⟨types, trees, haccepted⟩ := Generate.exists_accepted h
  obtain ⟨tree, view, s, order, body, hnormal, hbuilt, hvariables⟩ :=
    haccepted.exists_furnished hscreen
  refine ⟨tree, view, hnormal, hbuilt.build, fun flag hflag => ?_⟩
  have hmem : flag ∈ Entries.names (order.foldl s.record .empty).sheets := by
    rcases hflag with hrun | ⟨target, htarget, hflag⟩
    · exact hbuilt.mem_sheets_of_run hrun
    · exact hbuilt.mem_sheets_of_presented htarget hflag
  exact ⟨hbuilt.exists_sheetModifier hmem, hbuilt.membersNamed_flag hvariables hmem⟩

/-- The desk presents a screen, so its view has a flag. -/
theorem flags_of_desk :
    ∃ out, generate Generate.desk Catalog.standard .standard = .ok out ∧
      ∀ screen ∈ Generate.desk.screens, ∃ tree view,
        normalize screen.root Catalog.standard Limits.standard = .ok tree ∧
        buildScreen Generate.desk.buildContext screen tree = .ok view ∧
        ∀ flag, (.run (.present flag) ∈ view.body.effects ∨
            ∃ target ∈ tree.presented, Generate.desk.sheetFlag? target = some flag) →
          (∃ viewType, Setting.sheetModifier flag viewType ∈ view.body.chain) ∧
          (∃ type initial, view.membersNamed flag = [.state flag type initial]) ∧
          (view.membersNamed flag = [.state flag "Bool" (.bool false)] ↔
            BoundAsFlag Catalog.standard tree flag) := by
  have haccepts : Generate.accepts Generate.desk .standard = true := by decide +kernel
  obtain ⟨out, hout⟩ := Generate.exists_generate_of_accepts haccepts
  exact ⟨out, hout, flags_declared_iff Generate.desk .standard out hout⟩

/-! ### A flag that is bound as a text -/

/-- A screen that presents another one, and binds the text of a field to state that is called
like the flag of that screen. -/
def composedScreen : Screen :=
  ⟨"home", "Home", none, [], [],
    .node ⟨"root", "VStack", [], [], []⟩
      [.node (presentButton "open" "compose") [],
        .node ⟨"input", "TextField", [("placeholder", .string "x")],
          [⟨"text", .state, "isPresentingCompose"⟩], []⟩ []]⟩

/-- An app of that screen and the one that it presents. -/
def composed : AppDefinition where
  config := ⟨"Notes", "com.example.notes", "1.0.0", .standard, .standard, false, false⟩
  screens :=
    [composedScreen,
      ⟨"compose", "Compose", none, [], [], .node ⟨"body", "Text", [], [], []⟩ []⟩]
  models := []
  entryScreen := "home"
  tabBar := none

/-- **An accepted app in which the flag of a sheet is not declared as a flag.** -/
theorem flag_of_composed :
    ∃ out, generate composed Catalog.standard .standard = .ok out ∧
      ∃ screen ∈ composed.screens, ∃ tree view,
        normalize screen.root Catalog.standard Limits.standard = .ok tree ∧
        buildScreen composed.buildContext screen tree = .ok view ∧
        ∃ target ∈ tree.presented, ∃ flag, composed.sheetFlag? target = some flag ∧
          view.membersNamed flag ≠ [.state flag "Bool" (.bool false)] := by
  have haccepts : Generate.accepts composed .standard = true := by decide +kernel
  obtain ⟨types, trees, haccepted⟩ := Generate.accepted_of_accepts haccepts
  obtain ⟨out, hout⟩ := haccepted.exists_generate
  have hhome : composedScreen ∈ composed.screens := List.mem_cons_self
  obtain ⟨tree, view, s, order, body, hnormal, hbuilt, hvariables⟩ :=
    haccepted.exists_furnished hhome
  have hrun : (normalize composedScreen.root Catalog.standard Limits.standard).toOption.map
      (fun tree => (tree.presented, tree.bindings.map fun entry =>
        (Catalog.standard.expectedType? entry.1 entry.2, entry.2))) =
      some (["compose"],
        [(some .string, ⟨"text", .state, "isPresentingCompose"⟩)]) := by decide +kernel
  have hread := eq_of_toOption_map hnormal hrun
  obtain ⟨hpresented, hbound⟩ := Prod.mk.inj hread
  have htarget : "compose" ∈ tree.presented := by
    rw [hpresented]
    exact List.mem_cons_self
  have hflag : composed.sheetFlag? "compose" = some "isPresentingCompose" := by decide +kernel
  refine ⟨out, hout, composedScreen, hhome, tree, view, hnormal, hbuilt.build, "compose", htarget,
    "isPresentingCompose", hflag, fun hdeclared => ?_⟩
  have hall := (hbuilt.membersNamed_flag hvariables
    (hbuilt.mem_sheets_of_presented htarget hflag)).2.mp hdeclared
  have hmem : ((some .string, ⟨"text", .state, "isPresentingCompose"⟩) :
      Option ValueType × DataBinding) ∈ tree.bindings.map fun entry =>
        (Catalog.standard.expectedType? entry.1 entry.2, entry.2) := by
    rw [hbound]
    exact List.mem_cons_self
  obtain ⟨entry, hentry, heq⟩ := List.mem_map.mp hmem
  obtain ⟨htype, hbinding⟩ := Prod.mk.inj heq
  have hbool := hall entry hentry (by rw [hbinding]) (by rw [hbinding])
  rw [htype] at hbool
  exact absurd hbool (by decide)

end Screenwright
