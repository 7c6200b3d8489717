/-
The sheets that a screen presents.

An action that presents a screen as a sheet sets a flag, and the view is given one sheet for
every flag in use.  The sheet of a flag shows the screen that was first presented under it,
and an element of the tree may hang a sheet of its own there under the same flag.  So every
action shows its screen and nothing else exactly if the flags are kept apart, `FlagsApart`.
Handles are checked to be distinct, but a flag is a handle whose words are cut anew, and two
handles can fall into the same words: `flag_collision` is such a pair, and
`sheet_of_collision` an accepted app in which a button shows the wrong screen.
-/
import Screenwright.Proofs.Lowering.Chains
import Screenwright.Proofs.Navigation

namespace Screenwright

open Steps

/-- The screen that an action presents as a sheet. -/
def Action.sheetTarget? : Action → Option String
  | presentSheet target => some target
  | _ => none

/-- The screen that a use presents as a sheet. -/
def Use.sheetTarget? : Use → Option String
  | action _ a => a.sheetTarget?
  | _ => none

/-- The screens that the actions of a tree present as sheets. -/
def NormalTree.presented (t : NormalTree) : List String :=
  t.actions.filterMap fun (_, a) => a.sheetTarget?

namespace AppDefinition

/-- The flag that presents a screen as a sheet. -/
def sheetFlag? (app : AppDefinition) (target : String) : Option String :=
  ((ScreenNames.index app.screens).lookup target).map ScreenNames.presentationFlag

/-- The type of the view of a screen. -/
def viewType? (app : AppDefinition) (target : String) : Option String :=
  ((ScreenNames.index app.screens).lookup target).map ScreenNames.viewType

end AppDefinition

/-! ### The sheets of a ledger -/

/-- The sheets are those of the targets: every target has a sheet under its flag, no flag has
two sheets, and every sheet shows one of the targets that have its flag. -/
structure SheetsOf (screens : ScreenIndex) (targets : List String) (sheets : Entries String) :
    Prop where
  nodup : (Entries.names sheets).Nodup
  shown : ∀ target ∈ targets, ∀ names, screens.lookup target = some names →
    names.presentationFlag ∈ Entries.names sheets
  only : ∀ entry ∈ sheets, ∃ target ∈ targets, ∃ names, screens.lookup target = some names ∧
    (names.presentationFlag, names.viewType) = entry

namespace SheetsOf

variable {s : Setting} {targets : List String} {ledger : Ledger}

/-- One more target leaves the sheets it finds, and gets one if its flag has none. -/
theorem record (h : SheetsOf s.screens targets ledger.sheets) {use : Use}
    (hfine : ∃ φ, s.Fine φ use) :
    SheetsOf s.screens (targets ++ use.sheetTarget?.toList) (s.record ledger use).sheets := by
  have hsame : use.sheetTarget? = none → (s.record ledger use).sheets = ledger.sheets →
      SheetsOf s.screens (targets ++ use.sheetTarget?.toList) (s.record ledger use).sheets := by
    intro hnone heq
    rw [hnone, heq, Option.toList_none, List.append_nil]
    exact h
  cases use with
  | link node target => exact hsame rfl rfl
  | tab node target => exact hsame rfl rfl
  | action node a =>
      cases a with
      | navigate target => exact hsame rfl rfl
      | dismiss => exact hsame rfl rfl
      | custom name args =>
          refine hsame rfl ?_
          simp only [Setting.record, Setting.recordAction]
          split <;> rfl
      | presentSheet target =>
          obtain ⟨φ, hfine⟩ := hfine
          obtain ⟨names, hnames⟩ := Option.isSome_iff_exists.mp hfine
          have hsheets : (s.record ledger (.action node (.presentSheet target))).sheets =
              Entries.putNew names.presentationFlag names.viewType ledger.sheets := by
            simp only [Setting.record, Setting.recordAction, hnames]
          rw [hsheets]
          show SheetsOf s.screens (targets ++ [target]) _
          refine ⟨Entries.nodup_putNew h.nodup, ?_, ?_⟩
          · intro t ht other hother
            rw [Entries.mem_names_putNew]
            rcases List.mem_append.mp ht with ht | ht
            · exact Or.inl (h.shown t ht other hother)
            · rw [List.mem_singleton.mp ht, hnames] at hother
              cases hother
              exact Or.inr rfl
          · intro entry hentry
            rcases Entries.mem_putNew hentry with hentry | rfl
            · obtain ⟨t, ht, other, hother, heq⟩ := h.only entry hentry
              exact ⟨t, List.mem_append_left _ ht, other, hother, heq⟩
            · exact ⟨target, List.mem_append_right _ List.mem_cons_self, names, hnames, rfl⟩

theorem foldl_record {order : List Use} (hfine : ∀ use ∈ order, ∃ φ, s.Fine φ use) :
    ∀ (targets : List String) (ledger : Ledger), SheetsOf s.screens targets ledger.sheets →
      SheetsOf s.screens (targets ++ order.filterMap Use.sheetTarget?)
        (order.foldl s.record ledger).sheets := by
  induction order with
  | nil =>
      intro targets ledger h
      rw [List.filterMap_nil, List.append_nil]
      exact h
  | cons use order ih =>
      intro targets ledger h
      have hstep := h.record (hfine use List.mem_cons_self)
      have hrest := ih (fun u hu => hfine u (List.mem_cons_of_mem _ hu)) _ _ hstep
      rw [List.append_assoc] at hrest
      cases huse : use.sheetTarget? with
      | none =>
          rw [List.filterMap_cons_none huse]
          rwa [huse] at hrest
      | some target =>
          rw [List.filterMap_cons_some huse]
          rwa [huse] at hrest

end SheetsOf

/-! ### What the sheets of a ledger show -/

namespace AppDefinition

variable {app : AppDefinition}

/-- In an app without errors, different screens have different view types. -/
theorem viewType_injective {trees : List NormalTree} {catalog : Catalog}
    (h : app.referenceErrors trees catalog = []) {t u : String} {names other : ScreenNames}
    (ht : (ScreenNames.index app.screens).lookup t = some names)
    (hu : (ScreenNames.index app.screens).lookup u = some other)
    (heq : names.viewType = other.viewType) : t = u := by
  obtain ⟨-, ⟨hnodup, -⟩, -⟩ := TakenNames.fresh_of_allErrors (faultless_of_referenceErrors h).names
  obtain ⟨a, ha, rfl, rfl⟩ := ScreenNames.exists_of_lookup_index ht
  obtain ⟨b, hb, rfl, rfl⟩ := ScreenNames.exists_of_lookup_index hu
  rw [List.inj_on_of_nodup_map hnodup ha hb heq]

/-- **The sheets show their targets exactly if no two targets share a flag.** -/
theorem lookup_iff_flags_injective {trees : List NormalTree} {catalog : Catalog}
    (h : app.referenceErrors trees catalog = []) {targets : List String}
    {sheets : Entries String}
    (hsheets : SheetsOf (ScreenNames.index app.screens) targets sheets)
    (hexist : ∀ t ∈ targets, ∃ names, (ScreenNames.index app.screens).lookup t = some names) :
    (∀ t ∈ targets, (app.sheetFlag? t).bind (fun flag => sheets.lookup flag) = app.viewType? t) ↔
      ∀ t ∈ targets, ∀ u ∈ targets, app.sheetFlag? t = app.sheetFlag? u → t = u := by
  constructor
  · intro hshows t ht u hu hflag
    obtain ⟨names, hnames⟩ := hexist t ht
    obtain ⟨other, hother⟩ := hexist u hu
    -- The one sheet of the flag shows both targets, and a view type tells its screen.
    have hview : app.viewType? t = app.viewType? u := by
      rw [← hshows t ht, ← hshows u hu, hflag]
    rw [viewType?, viewType?, hnames, hother] at hview
    exact viewType_injective h hnames hother (Option.some.inj hview)
  · intro hinjective t ht
    obtain ⟨names, hnames⟩ := hexist t ht
    obtain ⟨viewType, hlookup⟩ := Entries.exists_lookup (hsheets.shown t ht names hnames)
    obtain ⟨u, hu, other, hother, heq⟩ := hsheets.only _ (Entries.mem_of_lookup hlookup)
    have hflag : app.sheetFlag? t = app.sheetFlag? u := by
      rw [sheetFlag?, sheetFlag?, hnames, hother, Option.map_some, Option.map_some]
      exact congrArg some (Prod.mk.inj heq).1.symm
    obtain rfl : t = u := hinjective t ht u hu hflag
    rw [hnames] at hother
    cases hother
    rw [sheetFlag?, viewType?, hnames, Option.map_some, Option.map_some, Option.bind_some, hlookup]
    exact congrArg some (Prod.mk.inj heq).2.symm

end AppDefinition

/-! ### The sheets of a view -/

/-- The sheets on the outside of a view that have a flag. -/
def Swift.View.sheetsOn (view : Swift.View) (flag : String) : List Swift.ViewModifier :=
  view.chain.filter fun m => m.sheetFlag? = some flag

namespace Setting

open Swift

/-- Of the sheets of a ledger, the one that has a flag. -/
theorem filter_sheetModifiers {sheets : Entries String} (hnodup : (Entries.names sheets).Nodup)
    (flag : String) :
    (sheets.map fun (flag, viewType) => sheetModifier flag viewType).filter
        (fun m => m.sheetFlag? = some flag) =
      ((sheets.lookup flag).map (sheetModifier flag)).toList := by
  have hflag : ∀ entry : String × String,
      (sheetModifier entry.1 entry.2).sheetFlag? = some flag ↔ entry.1 = flag := by
    intro entry
    show some entry.1 = some flag ↔ _
    rw [Option.some.injEq]
  rw [List.filter_map]
  show (sheets.filter fun entry => (sheetModifier entry.1 entry.2).sheetFlag? = some flag).map _ = _
  simp only [hflag]
  rw [Entries.filter_name_eq hnodup]
  cases sheets.lookup flag <;> rfl

/-- A finished view shows one sheet on a flag, and of that view type, if its tree hangs no
sheet there and the ledger has the view type under the flag. -/
theorem sheetsOn_eq_iff (screen : Screen) {base : View} {sheets : Entries String} {flag : String}
    (hnodup : (Entries.names sheets).Nodup) (hmem : flag ∈ Entries.names sheets)
    (viewType : String) :
    (base.modify (titleModifier screen ++
        sheets.map fun (flag, viewType) => sheetModifier flag viewType)).sheetsOn flag =
      [sheetModifier flag viewType] ↔
      flag ∉ sheetFlags base.chain ∧ sheets.lookup flag = some viewType := by
  obtain ⟨shown, hlookup⟩ := Entries.exists_lookup hmem
  have htitle : (titleModifier screen).filter (fun m => m.sheetFlag? = some flag) = [] := by
    refine List.filter_eq_nil_iff.mpr fun m hm => ?_
    rw [ViewModifier.sheetFlag?_eq_none (viewless_titleModifier screen m hm)]
    simp
  have hchain : (base.modify (titleModifier screen ++
      sheets.map fun (flag, viewType) => sheetModifier flag viewType)).sheetsOn flag =
      base.sheetsOn flag ++ [sheetModifier flag shown] := by
    rw [View.sheetsOn, View.chain_modify, List.filter_append, List.filter_append, htitle,
      filter_sheetModifiers hnodup, hlookup]
    rfl
  have hbase : base.sheetsOn flag = [] ↔ flag ∉ sheetFlags base.chain := by
    simp [View.sheetsOn, sheetFlags]
  rw [hchain, hlookup, ← hbase]
  constructor
  · intro h
    obtain ⟨hnil, hone⟩ := List.append_inj' (h.trans (List.nil_append _).symm) rfl
    refine ⟨hnil, ?_⟩
    simp only [sheetModifier, List.cons.injEq, ViewModifier.mk.injEq, Closure.first,
      Closure.mk.injEq, View.leaf.injEq, LeafKind.custom.injEq] at hone
    rw [hone.1.2.2.1.2.2.1.1]
  · rintro ⟨hnil, hshown⟩
    rw [hnil, Option.some.inj hshown]
    rfl

/-- An action that presents a screen sets the flag of that screen. -/
theorem run_presentSheet {s : Setting} {node target : String} {names : ScreenNames}
    (h : s.screens.lookup target = some names) (ledger : Ledger) :
    ∃ after, (s.action node (.presentSheet target)).run ledger =
      .ok ([.present names.presentationFlag], after) := by
  have htarget : s.target node target = .ok names := by rw [Setting.target, h]
  simp only [action, htarget]
  exact ⟨_, rfl⟩

end Setting

/-! ### The sheets of a screen -/

/-- The path of the state that a property of an element is bound to. -/
def NormalTree.stateOf? (t : NormalTree) (e : Element) (property : String) : Option String :=
  (t.bindings.reverse.find? fun (owner, b) => owner.id = e.id ∧ b.property = property).bind
    fun (_, b) => if b.source = .state then some b.path else none

/-- The targets of the sheets are those of the uses. -/
theorem NormalTree.mem_presented {tree : NormalTree} {target : String} :
    target ∈ tree.presented ↔ target ∈ tree.root.uses.filterMap Use.sheetTarget? := by
  simp only [presented, actions, Tree.uses, List.mem_filterMap, List.mem_flatMap, List.mem_map]
  constructor
  · rintro ⟨_, ⟨e, he, a, ha, rfl⟩, htarget⟩
    exact ⟨.action e.id a, ⟨e, he, Element.action_mem_uses.mpr ⟨rfl, ha⟩⟩, htarget⟩
  · rintro ⟨use, ⟨e, he, huse⟩, htarget⟩
    cases use with
    | link node target => cases htarget
    | tab node target => cases htarget
    | action node a =>
        exact ⟨(e, a), ⟨e, he, a, (Element.action_mem_uses.mp huse).2, rfl⟩, htarget⟩

namespace AppDefinition

/-- Every action that presents the screen sets the flag of the screen, and does nothing
else. -/
def Sets (app : AppDefinition) (target flag : String) : Prop :=
  ∀ s : Setting, s.screens = ScreenNames.index app.screens → ∀ node ledger, ∃ after,
    (s.action node (.presentSheet target)).run ledger = .ok ([.present flag], after)

/-- On the flag of the screen the view has exactly one sheet, which shows the screen. -/
def Shows (app : AppDefinition) (view : Swift.View) (target : String) : Prop :=
  ∃ flag viewType, app.sheetFlag? target = some flag ∧ app.viewType? target = some viewType ∧
    view.sheetsOn flag = [Setting.sheetModifier flag viewType]

/-- The flags of the screens that a tree presents are kept apart, from each other and from the
flags of the sheets that the tree itself hangs on the view. -/
structure FlagsApart (app : AppDefinition) (tree : NormalTree) : Prop where
  distinct : ∀ t ∈ tree.presented, ∀ u ∈ tree.presented,
    app.sheetFlag? t = app.sheetFlag? u → t = u
  free : ∀ t ∈ tree.presented, ∀ e ∈ tree.root.rootSheets,
    tree.stateOf? e "isPresented" ≠ app.sheetFlag? t

end AppDefinition

namespace Built

variable {app : AppDefinition} {screen : Screen} {tree : NormalTree} {view : Swift.ScreenView}
  {s : Setting} {order : List Use} {body : Swift.View}

/-- The state behind a sheet of the tree is what the tree binds it to. -/
theorem sheetState?_eq (h : Built app screen tree view s order body) (e : Element) :
    s.sheetState? e = tree.stateOf? e "isPresented" := by
  obtain ⟨bound, scope, hbindings, rfl⟩ := h.bindings
  have hlookup := Scope.lookup_of_bindAll e.id "isPresented" hbindings
  rw [List.lookup_nil, Option.map_none, Option.or_none] at hlookup
  have hstate := congrArg (fun found => found.bind fun target : BindingSource × String =>
    if target.1 = .state then some target.2 else none) hlookup
  simp only [Option.bind_map] at hstate
  exact hstate

/-- The presented screens are the targets of the recorded uses. -/
theorem mem_presented (h : Built app screen tree view s order body) {target : String} :
    target ∈ tree.presented ↔ target ∈ order.filterMap Use.sheetTarget? := by
  rw [NormalTree.mem_presented]
  exact (h.perm.filterMap Use.sheetTarget?).symm.mem_iff

/-- The ledger ends with the sheets of the presented screens. -/
theorem sheetsOf (h : Built app screen tree view s order body) :
    SheetsOf (ScreenNames.index app.screens) (order.filterMap Use.sheetTarget?)
      (order.foldl s.record .empty).sheets := by
  have hsheets := SheetsOf.foldl_record (s := s) h.fine [] .empty
    ⟨List.nodup_nil, by simp, by simp [Ledger.empty]⟩
  rwa [List.nil_append, h.screens] at hsheets

/-- The presented screens are screens of the app. -/
theorem exists_names (h : Built app screen tree view s order body) {target : String}
    (htarget : target ∈ tree.presented) :
    ∃ names, (ScreenNames.index app.screens).lookup target = some names := by
  obtain ⟨use, huse, hpresents⟩ := List.mem_filterMap.mp (h.mem_presented.mp htarget)
  obtain ⟨φ, hfine⟩ := h.fine use huse
  cases use with
  | link node target => cases hpresents
  | tab node target => cases hpresents
  | action node a =>
      cases a with
      | presentSheet target =>
          cases hpresents
          rw [← h.screens]
          exact Option.isSome_iff_exists.mp hfine
      | _ => cases hpresents

/-- What a presented screen needs to be shown: the tree hangs no sheet on its flag, and in the
ledger the flag has its view type. -/
theorem shows_iff (h : Built app screen tree view s order body) {target : String}
    (htarget : target ∈ tree.presented) :
    app.Shows view.body target ↔
      (∀ e ∈ tree.root.rootSheets, tree.stateOf? e "isPresented" ≠ app.sheetFlag? target) ∧
        (app.sheetFlag? target).bind (fun flag =>
          (order.foldl s.record .empty).sheets.lookup flag) = app.viewType? target := by
  obtain ⟨names, hnames⟩ := h.exists_names htarget
  have hflag : app.sheetFlag? target = some names.presentationFlag := by
    rw [AppDefinition.sheetFlag?, hnames, Option.map_some]
  have hview : app.viewType? target = some names.viewType := by
    rw [AppDefinition.viewType?, hnames, Option.map_some]
  have hhung := ((Setting.root_sheets s tree.root) .empty body _ trivial h.run).1
  have hfree : names.presentationFlag ∉ Swift.sheetFlags body.chain ↔
      ∀ e ∈ tree.root.rootSheets, tree.stateOf? e "isPresented" ≠ app.sheetFlag? target := by
    rw [hhung, hflag]
    simp only [List.mem_filterMap, h.sheetState?_eq, not_exists, not_and, ne_eq]
  have hshown := h.sheetsOf.shown target (h.mem_presented.mp htarget) names hnames
  rw [← hfree, hflag, hview, Option.bind_some,
    ← Setting.sheetsOn_eq_iff screen h.sheetsOf.nodup hshown]
  rw [AppDefinition.Shows, Setting.body_of_finish h.finish, hflag, hview]
  constructor
  · rintro ⟨_, _, ⟨⟩, ⟨⟩, hone⟩
    exact hone
  · exact fun hone => ⟨_, _, rfl, rfl, hone⟩

end Built

/-- **When the sheets of a built screen show what its actions present.** -/
theorem Generate.Accepted.shows_iff_flagsApart {app : AppDefinition} {config : GeneratorConfig}
    {types : List Swift.DataType} {trees : List NormalTree} (h : Accepted app config types trees)
    {screen : Screen} {tree : NormalTree} (hmem : (screen, tree) ∈ app.screens.zip trees) :
    ∃ view, buildScreen app.buildContext screen tree = .ok view ∧
      (∀ t ∈ tree.presented, ∃ flag, app.sheetFlag? t = some flag ∧ app.Sets t flag) ∧
      ((∀ t ∈ tree.presented, app.Shows view.body t) ↔ app.FlagsApart tree) := by
  obtain ⟨view, s, order, body, hbuilt⟩ := h.exists_built hmem
  refine ⟨view, hbuilt.build, fun t ht => ?_, ?_⟩
  · obtain ⟨names, hnames⟩ := hbuilt.exists_names ht
    refine ⟨names.presentationFlag, by rw [AppDefinition.sheetFlag?, hnames, Option.map_some], ?_⟩
    exact fun s hscreens node ledger => Setting.run_presentSheet (hscreens ▸ hnames) ledger
  · have hledger := AppDefinition.lookup_iff_flags_injective h.references hbuilt.sheetsOf
      fun t ht => hbuilt.exists_names (hbuilt.mem_presented.mpr ht)
    simp only [← hbuilt.mem_presented] at hledger
    constructor
    · intro hall
      refine ⟨hledger.mp fun t ht => ((hbuilt.shows_iff ht).mp (hall t ht)).2, fun t ht => ?_⟩
      exact ((hbuilt.shows_iff ht).mp (hall t ht)).1
    · intro hapart t ht
      exact (hbuilt.shows_iff ht).mpr ⟨hapart.free t ht, hledger.mpr hapart.distinct t ht⟩

/-- **When the sheets of a screen show what its actions present.**  In an accepted app every
action that presents a screen sets the flag of that screen.  The view of a screen has exactly
one sheet on each flag that its actions set, and it shows the target of the action, exactly if
no two targets share a flag and the tree hangs no sheet of its own on one of the flags. -/
theorem sheets_show_iff (app : AppDefinition) (config : GeneratorConfig) (out : GeneratedApp)
    (h : generate app Catalog.standard config = .ok out) :
    ∀ screen ∈ app.screens, ∃ tree view,
      normalize screen.root Catalog.standard config.limits = .ok tree ∧
      buildScreen app.buildContext screen tree = .ok view ∧
      (∀ t ∈ tree.presented, ∃ flag, app.sheetFlag? t = some flag ∧ app.Sets t flag) ∧
      ((∀ t ∈ tree.presented, app.Shows view.body t) ↔ app.FlagsApart tree) := by
  intro screen hscreen
  obtain ⟨types, trees, haccepted⟩ := Generate.exists_accepted h
  obtain ⟨tree, hmem⟩ := haccepted.exists_mem_zip hscreen
  obtain ⟨view, hview⟩ := haccepted.shows_iff_flagsApart hmem
  exact ⟨tree, view, haccepted.normalize_of_mem_zip hmem, hview⟩

/-- The sample presents one screen. -/
theorem sheets_of_sample :
    ∃ out, generate Generate.sample Catalog.standard .standard = .ok out ∧
      ∀ screen ∈ Generate.sample.screens, ∃ tree view,
        normalize screen.root Catalog.standard Limits.standard = .ok tree ∧
        buildScreen Generate.sample.buildContext screen tree = .ok view ∧
        (∀ t ∈ tree.presented, ∃ flag, Generate.sample.sheetFlag? t = some flag ∧
          Generate.sample.Sets t flag) ∧
        ((∀ t ∈ tree.presented, Generate.sample.Shows view.body t) ↔
          Generate.sample.FlagsApart tree) := by
  obtain ⟨types, trees, haccepted⟩ := Generate.accepted_of_accepts Generate.accepts_sample
  obtain ⟨out, hout⟩ := haccepted.exists_generate
  exact ⟨out, hout, sheets_show_iff Generate.sample .standard out hout⟩

/-! ### Handles that fall into the same words -/

/-- A button that presents a screen. -/
def presentButton (id target : String) : Component :=
  ⟨id, "Button",
    [("action", .object [("target", .string target), ("type", .string "presentSheet")])], [], []⟩

/-- A screen with two buttons, each of which presents a screen of its own. -/
def twoButtons : Screen :=
  ⟨"home", "", none, [], [],
    .node ⟨"root", "VStack", [], [], []⟩
      [.node (presentButton "first" "a-b-c") [], .node (presentButton "second" "a-bc") []]⟩

/-- The handles of the two presented screens differ only in which letters are capitals. -/
def collision : AppDefinition where
  config := ⟨"Notes", "com.example.notes", "1.0.0", .standard, .standard, false, false⟩
  screens :=
    [twoButtons,
      ⟨"a-b-c", "First", none, [], [], .node ⟨"body", "Text", [], [], []⟩ []⟩,
      ⟨"a-bc", "Second", none, [], [], .node ⟨"body", "Text", [], [], []⟩ []⟩]
  models := []
  entryScreen := "home"
  tabBar := none

/-- The handles `aBC` and `aBc` are different, and yet they make the same flag. -/
theorem flag_collision :
    Names.memberName "a-b-c" ≠ Names.memberName "a-bc" ∧
      collision.sheetFlag? "a-b-c" = collision.sheetFlag? "a-bc" := by
  decide +kernel

/-- **An accepted app in which a button presents the wrong screen.** -/
theorem sheet_of_collision :
    ∃ out, generate collision Catalog.standard .standard = .ok out ∧
      ∃ screen ∈ collision.screens, ∃ tree view,
        normalize screen.root Catalog.standard Limits.standard = .ok tree ∧
        buildScreen collision.buildContext screen tree = .ok view ∧
        ∃ target ∈ tree.presented, ¬ collision.Shows view.body target := by
  have haccepts : Generate.accepts collision .standard = true := by decide +kernel
  obtain ⟨types, trees, haccepted⟩ := Generate.accepted_of_accepts haccepts
  obtain ⟨out, hout⟩ := haccepted.exists_generate
  have hhome : twoButtons ∈ collision.screens := List.mem_cons_self
  obtain ⟨tree, hmem⟩ := haccepted.exists_mem_zip hhome
  have hnormal := haccepted.normalize_of_mem_zip hmem
  obtain ⟨view, hbuild, -, hiff⟩ := haccepted.shows_iff_flagsApart hmem
  refine ⟨out, hout, twoButtons, hhome, tree, view, hnormal, hbuild, ?_⟩
  have hpresented : tree.presented = ["a-b-c", "a-bc"] := by
    have hrun : (normalize twoButtons.root Catalog.standard Limits.standard).toOption.map
        NormalTree.presented = some ["a-b-c", "a-bc"] := by decide +kernel
    have hnormal' : normalize twoButtons.root Catalog.standard Limits.standard = .ok tree := hnormal
    rw [hnormal'] at hrun
    exact Option.some.inj hrun
  by_contra hall
  have hshow : ∀ t ∈ tree.presented, collision.Shows view.body t := by
    intro t ht
    by_contra hno
    exact hall ⟨t, ht, hno⟩
  have heq := (hiff.mp hshow).distinct "a-b-c" (by simp [hpresented]) "a-bc"
    (by simp [hpresented]) flag_collision.2
  exact absurd heq (by decide)

end Screenwright
