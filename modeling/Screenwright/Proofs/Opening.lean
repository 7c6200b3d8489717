/-
What an app opens with.

The root view is a navigation stack of the entry screen, or a bar with such a stack for each tab.
It is read twice here: as a view, and as the lines that are printed of it.  On both readings the
stacks show the screens that the app asks for, in their order, and the tags of the tabs are the
routes to these screens, because all names come from one index of the screens.
-/
import Screenwright.Proofs.Declarations
import Screenwright.Proofs.Lowering.Effects
import Screenwright.Proofs.Naming

namespace Screenwright

open Steps Swift

/-! ### The root view -/

namespace Swift.View

/-- The type of the generated view that a navigation stack begins with. -/
def stackRoot? : View → Option String
  | container .navigationStack _ [modified (leaf (.custom type) _) _] _ => some type
  | _ => none

/-- The items of a tab bar. -/
def barItems : View → List View
  | container .tabView _ content _ => content
  | _ => []

/-- What an item of a tab bar shows, and the value that selects it. -/
def barItem? : View → Option (String × Value)
  | modified stack [_, .mk "tag" [(none, tag)] _] => stack.stackRoot?.map fun type => (type, tag)
  | _ => none

end Swift.View

theorem stackRoot?_routedStack (type : String) : (routedStack type).stackRoot? = some type := rfl

theorem barItem?_barTab (item : TabItem) (names : ScreenNames) :
    (barTab item names).barItem? =
      some (names.viewType, .ident ("Route." ++ names.routeCase)) := rfl

theorem effects_routedStack (viewType : String) :
    (routedStack viewType).effects = [.view viewType, .view "routeView"] := rfl

theorem effects_barTab (item : TabItem) (names : ScreenNames) :
    (barTab item names).effects = [.view names.viewType, .view "routeView"] := by
  rw [barTab, effects_modify, effects_routedStack]
  rfl

theorem effects_bar (args : List Arg) (named : List (TabItem × ScreenNames)) :
    (View.ofContent .tabView args (named.map fun found => barTab found.1 found.2)).effects =
      argEffects args ++
        named.flatMap fun found => [.view found.2.viewType, .view "routeView"] := by
  have hcontent : viewEffects (named.map fun found => barTab found.1 found.2) =
      named.flatMap fun found => [.view found.2.viewType, .view "routeView"] := by
    induction named with
    | nil => rfl
    | cons found named ih =>
        rw [List.map_cons, viewEffects, ih, effects_barTab]
        rfl
  rw [← hcontent]
  exact List.append_nil _

/-! ### The lines of the root view -/

namespace Swift

/-- The line that opens the stack of a screen. -/
def stackHead : String := "NavigationStack(path: $router.path) \x7b"

/-- How the line begins that gives a tab its route. -/
def tagStart : String := ".tag(Route."

end Swift

theorem texts_routedStack (type : String) (depth : Nat) :
    ((routedStack type).lines depth).map Line.text =
      [stackHead, type ++ "()", ".navigationDestination(for: Route.self) \x7b route in",
        "routeView(for: route)", "\x7d", "\x7d"] := by
  have hcall : LeafKind.name (.custom type) ++ "(" ++ argsText [] ++ ")" = type ++ "()" := by
    rw [LeafKind.name, String.append_assoc, String.append_assoc]
    rfl
  rw [← hcall]
  rfl

theorem texts_barTab (item : TabItem) (names : ScreenNames) (depth : Nat) :
    ((barTab item names).lines depth).map Line.text =
      ((routedStack names.viewType).lines depth).map Line.text ++
        [".tabItem \x7b", "Label(" ++ argsText [bare (.string item.title),
          labeled "systemImage" (.string item.icon)] ++ ")", "\x7d",
          tagStart ++ names.routeCase ++ ")"] := by
  have htag : modifierHead "tag" [bare (.ident ("Route." ++ names.routeCase))] false =
      tagStart ++ names.routeCase ++ ")" := by
    show ".tag" ++ "(" ++ ("Route." ++ names.routeCase) ++ ")" = _
    exact String.toList_inj.mp (by simp [tagStart])
  rw [← htag]
  rfl

/-- A call is no line that opens a stack. -/
theorem call_ne_stackHead (head : String) : head ++ ")" ≠ stackHead :=
  ne_of_getLast? (by simp [stackHead])

theorem behind_routedStack (type : String) (depth : Nat) (rest : List String) :
    behind stackHead (((routedStack type).lines depth).map Line.text ++ rest) =
      (type ++ "()") :: behind stackHead rest := by
  have hcall : type ++ "()" ≠ stackHead := by
    have hne := call_ne_stackHead (type ++ "(")
    rwa [String.append_assoc] at hne
  have hothers : ∀ line ∈ [type ++ "()", ".navigationDestination(for: Route.self) \x7b route in",
      "routeView(for: route)", "\x7d", "\x7d"], line ≠ stackHead :=
    List.forall_mem_cons.mpr ⟨hcall, by decide⟩
  rw [texts_routedStack, List.cons_append, List.cons_append, behind_self]
  exact congrArg _ (behind_append_of_ne hothers rest)

/-- **The stacks of a bar are those of its tabs, in their order.** -/
theorem behind_bar (named : List (TabItem × ScreenNames)) (depth : Nat) (rest : List String) :
    behind stackHead ((viewLines depth (named.map fun found => barTab found.1 found.2)).map
        Line.text ++ rest) =
      named.map (fun found => found.2.viewType ++ "()") ++ behind stackHead rest := by
  induction named with
  | nil => rfl
  | cons found named ih =>
      have htab : ∀ line ∈ [".tabItem \x7b", "Label(" ++ argsText [bare (.string found.1.title),
          labeled "systemImage" (.string found.1.icon)] ++ ")", "\x7d",
          tagStart ++ found.2.routeCase ++ ")"], line ≠ stackHead := by
        simp only [List.forall_mem_cons]
        exact ⟨by decide, call_ne_stackHead _, by decide, call_ne_stackHead _,
          List.forall_mem_nil _⟩
      rw [List.map_cons, viewLines, List.map_append, texts_barTab, List.append_assoc,
        List.append_assoc, behind_routedStack, behind_append_of_ne htab, ih]
      rfl

/-- No line of a stack gives a tab its route. -/
theorem filter_tags_routedStack {type : String} (h : ∀ c ∈ type.toList, c.isAlphanum = true)
    (depth : Nat) :
    (((routedStack type).lines depth).map Line.text).filter (Text.startsWith tagStart) = [] := by
  have hcall : Text.startsWith tagStart (type ++ "()") = false := by
    refine Bool.eq_false_iff.mpr fun hstarts => ?_
    obtain ⟨rest, hrest⟩ := List.isPrefixOf_iff_prefix.mp hstarts
    cases htype : type.toList with
    | nil => simp [tagStart, htype] at hrest
    | cons c cs =>
        have hdot : '.' = c := by simpa [tagStart, htype] using congrArg List.head? hrest
        have halnum := h c (htype ▸ List.mem_cons_self)
        rw [← hdot] at halnum
        cases halnum
  rw [texts_routedStack, List.filter_cons_of_neg (by decide),
    List.filter_cons_of_neg (by rw [hcall]; exact Bool.false_ne_true)]
  decide

/-- **The tags of a bar are the routes of its tabs, in their order.** -/
theorem filter_tags_bar {named : List (TabItem × ScreenNames)}
    (h : ∀ found ∈ named, ∀ c ∈ found.2.viewType.toList, c.isAlphanum = true) (depth : Nat) :
    ((viewLines depth (named.map fun found => barTab found.1 found.2)).map Line.text).filter
        (Text.startsWith tagStart) =
      named.map fun found => tagStart ++ found.2.routeCase ++ ")" := by
  induction named with
  | nil => rfl
  | cons found named ih =>
      rw [List.forall_mem_cons] at h
      have htag : Text.startsWith tagStart (tagStart ++ found.2.routeCase ++ ")") = true := by
        rw [String.append_assoc]
        exact Text.startsWith_append tagStart _
      have hlabel : ∀ rest, Text.startsWith tagStart ("Label(" ++ rest) = false := by
        intro rest
        rw [Text.startsWith, String.toList_append]
        rfl
      have hitem : [".tabItem \x7b", "Label(" ++ argsText [bare (.string found.1.title),
          labeled "systemImage" (.string found.1.icon)] ++ ")", "\x7d",
          tagStart ++ found.2.routeCase ++ ")"].filter (Text.startsWith tagStart) =
            [tagStart ++ found.2.routeCase ++ ")"] := by
        rw [List.filter_cons_of_neg (by decide),
          List.filter_cons_of_neg (by rw [String.append_assoc, hlabel]; exact Bool.false_ne_true),
          List.filter_cons_of_neg (by decide), List.filter_cons_of_pos htag, List.filter_nil]
      rw [List.map_cons, viewLines, List.map_append, List.filter_append, ih h.2, texts_barTab,
        List.filter_append, filter_tags_routedStack h.1, hitem]
      rfl

/-! ### Routes -/

/-- The route to a screen. -/
def Screen.route (screen : Screen) : Route :=
  ⟨screen.routeCase, screen.viewType, screen.deepLink⟩

@[simp]
theorem Screen.name_route (screen : Screen) : screen.route.name = screen.routeCase := rfl

@[simp]
theorem Screen.viewType_route (screen : Screen) : screen.route.viewType = screen.viewType := rfl

@[simp]
theorem Screen.deepLink_route (screen : Screen) : screen.route.deepLink = screen.deepLink := rfl

namespace AppDefinition

variable {app : AppDefinition}

/-- The routes are those of the screens. -/
theorem routesOf_eq (h : (app.screens.map Screen.id).Nodup) :
    routesOf (ScreenNames.index app.screens) app.screens = app.screens.map Screen.route := by
  rw [routesOf, ← List.filterMap_eq_map]
  refine List.filterMap_congr fun screen hscreen => ?_
  rw [ScreenNames.lookup_index_of_mem h hscreen]
  rfl

theorem exists_of_entryTarget {place target : String} {names : ScreenNames}
    (h : entryTarget (ScreenNames.index app.screens) place target = .ok names) :
    ∃ t ∈ app.screens, t.id = target ∧ ScreenNames.ofScreen t = names := by
  unfold entryTarget at h
  split at h
  next found hfound =>
    cases h
    exact ScreenNames.exists_of_lookup_index hfound
  · cases h

/-- The names found for the tabs are those of the screens that are asked for. -/
theorem forall₂_of_tabTargets {tabs : List TabItem} {named : List (TabItem × ScreenNames)}
    (h : tabs.mapM (fun item =>
      (entryTarget (ScreenNames.index app.screens) "tabBar" item.screen).map
        fun names => (item, names)) = .ok named) :
    List.Forall₂ (fun (item : TabItem) (found : TabItem × ScreenNames) =>
      ∃ t ∈ app.screens, t.id = item.screen ∧ ScreenNames.ofScreen t = found.2) tabs named := by
  refine (mapM_eq_ok.mp h).imp fun item found hfound => ?_
  obtain ⟨names, hnames, rfl⟩ := map_eq_ok.mp hfound
  exact exists_of_entryTarget hnames

/-- The first view and the tabs are those of the screens that are asked for. -/
theorem tabs_of_rootView {first : ScreenNames} {tabs : List TabItem} {root : View}
    {names : List String}
    (h : rootView (ScreenNames.index app.screens) first tabs = .ok (root, names)) :
    (tabs = [] → root.stackRoot? = some first.viewType) ∧
      List.Forall₂ (fun item view => ∃ t ∈ app.screens, t.id = item.screen ∧
        view.barItem? = some (t.viewType, .ident ("Route." ++ t.routeCase))) tabs root.barItems ∧
      List.Forall₂ (fun item name => ∃ t ∈ app.screens, t.id = item.screen ∧
        name = t.routeCase) tabs names := by
  unfold rootView at h
  split at h
  next hempty =>
    cases h
    rw [List.isEmpty_iff.mp hempty]
    exact ⟨fun _ => stackRoot?_routedStack first.viewType, .nil, .nil⟩
  next hsome =>
    obtain ⟨named, hnamed, h⟩ := bind_eq_ok.mp h
    cases h
    have hitems := forall₂_of_tabTargets hnamed
    refine ⟨fun hnil => absurd (List.isEmpty_iff.mpr hnil) hsome, ?_, ?_⟩
    · refine List.forall₂_map_right_iff.mpr (hitems.imp fun item found hfound => ?_)
      obtain ⟨t, ht, hid, hnames⟩ := hfound
      refine ⟨t, ht, hid, ?_⟩
      show (barTab found.1 found.2).barItem? = _
      rw [barItem?_barTab, ← hnames]
      rfl
    · refine List.forall₂_map_right_iff.mpr (hitems.imp fun item found hfound => ?_)
      obtain ⟨t, ht, hid, hnames⟩ := hfound
      refine ⟨t, ht, hid, ?_⟩
      show found.2.routeCase = t.routeCase
      rw [← hnames]
      rfl

/-! ### What is shown first -/

/-- The screens that the app opens with: those of the tabs, or the entry screen. -/
def openers (app : AppDefinition) : List String :=
  if app.tabs.isEmpty then [app.entryScreen] else app.tabs.map TabItem.screen

/-- The lines of a bar are those of its tabs between its first and its last one. -/
theorem texts_bar (content : List View) (depth : Nat) :
    ((View.ofContent .tabView [labeled "selection" (.binding "router.selectedTab")]
      content).lines depth).map Line.text =
        "TabView(selection: $router.selectedTab) \x7b" ::
          ((viewLines (depth + 1) content).map Line.text ++ ["\x7d"]) := by
  rw [View.ofContent, View.lines, closureLines, List.append_nil, List.cons_append, List.map_cons,
    List.map_append]
  rfl

/-- **The stacks in the lines of the root view are those of the screens that the app opens
with.** -/
theorem stacks_of_rootView {t : Screen} (ht : t ∈ app.screens) (hid : t.id = app.entryScreen)
    {root : View} {names : List String}
    (h : rootView (ScreenNames.index app.screens) (ScreenNames.ofScreen t) app.tabs =
      .ok (root, names)) (depth : Nat) {rest : List String}
    (hrest : ∀ line ∈ rest, line ≠ stackHead) :
    List.Forall₂ (fun target text => ∃ t ∈ app.screens, t.id = target ∧ text = t.viewType ++ "()")
      app.openers (behind stackHead ((root.lines depth).map Line.text ++ rest)) := by
  unfold rootView at h
  rw [openers]
  split at h
  next hempty =>
    cases h
    rw [if_pos hempty, behind_routedStack, behind_of_ne hrest]
    exact .cons ⟨t, ht, hid, rfl⟩ .nil
  next hsome =>
    obtain ⟨named, hnamed, h⟩ := bind_eq_ok.mp h
    cases h
    have hclose : ∀ line ∈ "\x7d" :: rest, line ≠ stackHead :=
      List.forall_mem_cons.mpr ⟨by decide, hrest⟩
    rw [if_neg hsome, texts_bar, List.cons_append, behind_cons_of_ne (by decide), List.append_assoc]
    show List.Forall₂ _ _ (behind stackHead ((viewLines (depth + 1)
      (named.map fun found => barTab found.1 found.2)).map Line.text ++ "\x7d" :: rest))
    rw [behind_bar, behind_of_ne hclose, List.append_nil, List.forall₂_map_left_iff,
      List.forall₂_map_right_iff]
    refine (forall₂_of_tabTargets hnamed).imp fun item found hfound => ?_
    obtain ⟨t, ht, hid, hnames⟩ := hfound
    exact ⟨t, ht, hid, hnames ▸ rfl⟩

/-- **The tags in the lines of the root view are the routes of the tabs.** -/
theorem tags_of_rootView {t : Screen} {root : View} {names : List String}
    (h : rootView (ScreenNames.index app.screens) (ScreenNames.ofScreen t) app.tabs =
      .ok (root, names)) (depth : Nat) :
    List.Forall₂ (fun item text => ∃ t ∈ app.screens, t.id = item.screen ∧
        text = tagStart ++ t.routeCase ++ ")")
      app.tabs (((root.lines depth).map Line.text).filter (Text.startsWith tagStart)) := by
  unfold rootView at h
  split at h
  next hempty =>
    cases h
    rw [List.isEmpty_iff.mp hempty]
    exact filter_tags_routedStack t.isAlphanum_of_mem_viewType depth ▸ .nil
  next hsome =>
    obtain ⟨named, hnamed, h⟩ := bind_eq_ok.mp h
    cases h
    have hitems := forall₂_of_tabTargets hnamed
    have hnames : ∀ found ∈ named, ∀ c ∈ found.2.viewType.toList, c.isAlphanum = true := by
      intro found hfound
      obtain ⟨item, -, t, -, -, hnames⟩ := exists_of_forall₂ hitems found hfound
      exact hnames ▸ t.isAlphanum_of_mem_viewType
    rw [texts_bar, List.filter_cons_of_neg (by decide), List.filter_append]
    show List.Forall₂ _ _ (((viewLines (depth + 1)
      (named.map fun found => barTab found.1 found.2)).map Line.text).filter _ ++ _)
    rw [filter_tags_bar hnames, List.filter_cons_of_neg (by decide), List.filter_nil,
      List.append_nil, List.forall₂_map_right_iff]
    refine hitems.imp fun item found hfound => ?_
    obtain ⟨t, ht, hid, hnames⟩ := hfound
    exact ⟨t, ht, hid, hnames ▸ rfl⟩

end AppDefinition

namespace Generate.Run

variable {app : AppDefinition} {catalog : Catalog} {config : GeneratorConfig} {out : GeneratedApp}
  {types : List DataType} {trees : List NormalTree} {views : List ScreenView} {entry : AppEntry}

/-- The routes of the app are those of the screens. -/
theorem routes_eq (h : Run app catalog config out types trees views entry) :
    entry.routes = app.screens.map Screen.route := by
  obtain ⟨_, _, _, _, -, -, -, rfl⟩ := exists_of_buildEntry h.opening
  exact AppDefinition.routesOf_eq h.namesApart.ids

/-- The root view is made for the entry screen and the tabs. -/
theorem exists_opening (h : Run app catalog config out types trees views entry) :
    ∃ t ∈ app.screens, t.id = app.entryScreen ∧ entry.rootCase = t.routeCase ∧
      rootView (ScreenNames.index app.screens) (ScreenNames.ofScreen t) app.tabs =
        .ok (entry.root, entry.tabs) := by
  obtain ⟨first, root, names, accent, hfirst, hroot, -, rfl⟩ := exists_of_buildEntry h.opening
  obtain ⟨t, ht, hid, rfl⟩ := AppDefinition.exists_of_entryTarget hfirst
  exact ⟨t, ht, hid, rfl, hroot⟩

end Generate.Run

end Screenwright
