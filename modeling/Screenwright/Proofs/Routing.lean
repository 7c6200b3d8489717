/-
Routes lead to their screens.

A route is written in many places: in the statements and links of the views, in the tags of the
tab bar, in the enumeration of the routes, and in the two switches by which the app finds the
view of a route and the route of a link.  Each place looks its names up by itself.  They agree,
because all of them look up the same screen under the same identifier; and because the names
are apart, a reader of the app who follows one of them comes to one screen only.

What the entry file says is read from its text: a function is found there by its first line, and
where a label leads is what stands behind it.
-/
import Screenwright.Proofs.Navigation
import Screenwright.Proofs.SourceLines

namespace Screenwright

open Steps Swift

/-! ### Switches -/

namespace Swift

/-- A case with one line under it leads there under its own label only. -/
theorem behind_case {label head body : String} (h : body ≠ label) (rest : List String) :
    behind label (head :: body :: rest) =
      (if head = label then [body] else []) ++ behind label rest := by
  rw [behind, behind_cons_of_ne h]
  split <;> rfl

/-- **Behind the label of a route stand the views of the routes of that name.** -/
theorem behind_viewCases (name : String) (routes : List Route) (rest : List String) :
    behind ("case ." ++ name ++ ":") ((routes.flatMap fun route =>
        ["case ." ++ route.name ++ ":", route.viewType ++ "()"]) ++ rest) =
      (routes.filter fun route => route.name = name).map (fun route => route.viewType ++ "()") ++
        behind ("case ." ++ name ++ ":") rest := by
  induction routes with
  | nil => rfl
  | cons route routes ih =>
      have hbody : route.viewType ++ "()" ≠ "case ." ++ name ++ ":" := ne_of_getLast? (by simp [List.getLast?_cons])
      rw [List.flatMap_cons, List.append_assoc, List.cons_append, List.cons_append,
        List.nil_append, behind_case hbody, ih]
      by_cases hname : route.name = name
      · rw [if_pos (Text.between_inj.mpr hname), List.filter_cons_of_pos (by simpa using hname)]
        rfl
      · rw [if_neg (hname ∘ Text.between_inj.mp), List.filter_cons_of_neg (by simpa using hname)]
        rfl

end Swift

/-- A deep link stands in a literal as it is. -/
theorem escapeChars_of_isDeepLink {link : String} (h : Names.isDeepLink link = true) :
    escapeChars link.toList = link.toList := by
  have hchars : ∀ c ∈ link.toList, escapeChar c = [c] := by
    intro c hc
    have hpart : ∀ d : Char, (d.isAlphanum || d = '_' || d = '-') = true → escapeChar d = [d] := by
      intro d hd
      simp only [Bool.or_eq_true, decide_eq_true_eq] at hd
      rcases hd with (hd | rfl) | rfl
      · exact Names.forall_ascii (p := fun c => c.isAlphanum = true → escapeChar c = [c])
          (by decide +kernel) (Names.toNat_lt_of_isAlphanum hd) hd
      · rfl
      · rfl
    have hcase : c = '/' ∨ ∃ piece ∈ Text.segmentsOf '/' link.toList, c ∈ piece :=
      Text.mem_segmentsOf hc
    rcases hcase with rfl | ⟨piece, hpiece, hmem⟩
    · rfl
    · unfold Names.isDeepLink at h
      split at h
      next part parts heq =>
        rw [heq] at hpiece
        rcases List.mem_cons.mp hpiece with rfl | hpiece
        · cases hmem
        have hlink := List.all_eq_true.mp h piece hpiece
        rw [Names.isLinkPart, Bool.and_eq_true, List.all_eq_true] at hlink
        exact hpart c (hlink.2 c hmem)
      · cases h
  rw [escapeChars]
  generalize link.toList = cs at hchars
  induction cs with
  | nil => rfl
  | cons c cs ih =>
      rw [List.forall_mem_cons] at hchars
      rw [List.flatMap_cons, hchars.1, ih hchars.2]
      rfl

/-- The literals of deep links tell them apart. -/
theorem stringLiteral_deepLink_inj {a b : String} (ha : Names.isDeepLink a = true)
    (hb : Names.isDeepLink b = true) : stringLiteral a = stringLiteral b ↔ a = b := by
  constructor
  · intro heq
    rw [stringLiteral, stringLiteral, escapeChars_of_isDeepLink ha, escapeChars_of_isDeepLink hb,
      String.ofList_inj, List.cons_append, List.cons_append] at heq
    exact String.toList_inj.mp (List.append_cancel_right (List.cons.inj heq).2)
  · rintro rfl
    rfl

/-- **Behind the label of a link stand the routes that it opens.** -/
theorem behind_linkCases {link : String} (hlink : Names.isDeepLink link = true)
    {routes : List Route}
    (h : ∀ other ∈ routes.filterMap Route.deepLink, Names.isDeepLink other = true)
    (rest : List String) :
    behind ("case " ++ stringLiteral link ++ ":") ((routes.flatMap fun route =>
        route.deepLink.toList.flatMap fun link =>
          ["case " ++ stringLiteral link ++ ":", "self = ." ++ route.name]) ++ rest) =
      (routes.filter fun route => route.deepLink = some link).map
          (fun route => "self = ." ++ route.name) ++
        behind ("case " ++ stringLiteral link ++ ":") rest := by
  induction routes with
  | nil => rfl
  | cons route routes ih =>
      rw [List.flatMap_cons]
      cases hroute : route.deepLink with
      | none =>
          rw [List.filterMap_cons_none hroute] at h
          rw [List.filter_cons_of_neg (by simp [hroute])]
          exact ih h
      | some other =>
          rw [List.filterMap_cons_some hroute, List.forall_mem_cons] at h
          have hbody : "self = ." ++ route.name ≠ "case " ++ stringLiteral link ++ ":" :=
            ne_of_head? (by simp)
          have hlabel : "case " ++ stringLiteral other ++ ":" =
              "case " ++ stringLiteral link ++ ":" ↔ other = link :=
            Text.between_inj.trans (stringLiteral_deepLink_inj h.1 hlink)
          rw [Option.toList_some, List.flatMap_singleton, List.append_assoc, List.cons_append,
            List.cons_append, List.nil_append, behind_case hbody, ih h.2]
          by_cases hsame : other = link
          · rw [if_pos (hlabel.mpr hsame), List.filter_cons_of_pos (by simp [hroute, hsame])]
            rfl
          · rw [if_neg (hsame ∘ hlabel.mp), List.filter_cons_of_neg (by simp [hroute, hsame])]
            rfl

/-! ### What the entry file says -/

namespace AppDefinition

/-- What the lines of the entry file say of the screens. -/
structure EntryRouted (app : AppDefinition) (entry : AppEntry) (lines : List String) : Prop where
  /-- The cases of the routes are those of the screens, in their order. -/
  cases : (bodyOf routeHead lines).filter (Text.startsWith "case ") =
    app.screens.map fun screen => "case " ++ screen.routeCase
  /-- The root view shows the screens of the tabs, or the entry screen, in their order. -/
  shown : List.Forall₂ (fun target text => ∃ t ∈ app.screens, t.id = target ∧
    text = t.viewType ++ "()") app.openers (behind stackHead (bodyOf rootHead lines))
  /-- The tags of the tabs are the routes to their screens. -/
  tags : List.Forall₂ (fun item text => ∃ t ∈ app.screens, t.id = item.screen ∧
    text = tagStart ++ t.routeCase ++ ")") app.tabs
      ((bodyOf rootHead lines).filter (Text.startsWith tagStart))
  /-- The function from routes to views is one switch, with the routes of the screens. -/
  routeView : bodyOf routeViewHead lines = "switch route \x7b" ::
    (app.screens.flatMap fun screen =>
      ["case ." ++ screen.routeCase ++ ":", screen.viewType ++ "()"]) ++
    ["\x7d", "\x7d", "\x7d", ""]
  /-- It has one branch for the route of a screen, and this makes the view of the screen. -/
  viewSwitch : ∀ screen ∈ app.screens,
    behind ("case ." ++ screen.routeCase ++ ":") (bodyOf routeViewHead lines) =
      [screen.viewType ++ "()"]
  /-- The initializer from links is one switch, with the links of the screens. -/
  links : (∃ screen ∈ app.screens, screen.deepLink.isSome = true) → bodyOf linkHead lines =
    ["let components = [url.host].compactMap \x7b $0 \x7d + " ++
        "url.pathComponents.filter \x7b $0 != \"/\" \x7d",
      "switch \"/\" + components.joined(separator: \"/\") \x7b"] ++
    (app.screens.flatMap fun screen => screen.deepLink.toList.flatMap fun link =>
      ["case " ++ stringLiteral link ++ ":", "self = ." ++ screen.routeCase]) ++
    ["default:", "return nil", "\x7d", "\x7d", "\x7d", ""]
  /-- It has one branch for the link of a screen, and this is the route to the screen. -/
  linkSwitch : ∀ screen ∈ app.screens, ∀ link, screen.deepLink = some link →
    behind ("case " ++ stringLiteral link ++ ":") (bodyOf linkHead lines) =
      ["self = ." ++ screen.routeCase]
  /-- The tab that is selected first is that of the first route of the tabs. -/
  selection : ∀ first ∈ entry.tabs.head?,
    behind "@Published var path = NavigationPath()" (bodyOf routerHead lines) =
      ["@Published var selectedTab: Route = ." ++ first ++ " \x7b"]
  /-- The route of a link is selected if it is that of a tab, or pushed. -/
  opening : (∃ screen ∈ app.screens, screen.deepLink.isSome = true) → bodyOf openHead lines =
    ["guard let route = Route(url: url) else \x7b return \x7d", "popToRoot()"] ++
    (if entry.tabs.isEmpty then
      ["if route != ." ++ entry.rootCase ++ " \x7b", "navigate(to: route)", "\x7d"]
    else
      ["if [" ++ Text.join ", " (entry.tabs.map ("Route." ++ ·)) ++ "].contains(route) \x7b",
        "selectedTab = route", "\x7d else \x7b", "navigate(to: route)", "\x7d"]) ++
    ["\x7d", "\x7d", ""]

/-- Every name by which the app leads to a screen is the name of that screen and of no other. -/
structure Routed (app : AppDefinition) (catalog : Catalog) (config : GeneratorConfig)
    (out : GeneratedApp) (entry : AppEntry) : Prop where
  names : app.NamesApart
  /-- There is one route for each screen, in the order of the screens. -/
  routes : entry.routes = app.screens.map Screen.route
  /-- The statements, links, tabs and sheets of the views. -/
  views : ∀ screen ∈ app.screens, ∃ tree view,
    normalize screen.root catalog config.limits = .ok tree ∧
    buildScreen (app.contextIn catalog) screen tree = .ok view ∧
    view.viewType = screen.viewType ∧ app.LeadsAsRecorded view ∧
    (⟨screenPath (Names.appFolder app.config.name) screen.viewType,
      view.print config.indentWidth config.emitPreviews⟩ : SourceFile) ∈ out.files ∧
    (catalog = Catalog.standard →
      (view.edges.map fun e => (e.node, e.target, e.kind)).Perm
        (tree.references.map fun r => (r.node, r.target, r.kind.edgeKind)) ∧
      (view.body.lines 2).map Line.text <:+:
        Text.codeLines (view.print config.indentWidth config.emitPreviews))
  /-- The view that is shown first if there is no tab bar. -/
  first : ∃ t ∈ app.screens, t.id = app.entryScreen ∧ entry.rootCase = t.routeCase ∧
    (app.tabs = [] → entry.root.stackRoot? = some t.viewType)
  /-- The items of the tab bar. -/
  bar : List.Forall₂ (fun item view => ∃ t ∈ app.screens, t.id = item.screen ∧
    view.barItem? = some (t.viewType, .ident ("Route." ++ t.routeCase)))
    app.tabs entry.root.barItems
  /-- The routes that the router takes for those of tabs. -/
  tabs : List.Forall₂ (fun item name => ∃ t ∈ app.screens, t.id = item.screen ∧
    name = t.routeCase) app.tabs entry.tabs
  /-- The text of the entry file. -/
  file : app.EntryRouted entry (Text.codeLines (entry.print config.indentWidth))

variable {app : AppDefinition}

/-- Of the routes of the screens one has the name of a screen. -/
theorem filter_name_routes (h : app.NamesApart) {screen : Screen} (hmem : screen ∈ app.screens) :
    ((app.screens.map Screen.route).filter fun route => route.name = screen.routeCase) =
      [screen.route] := by
  have hcases : ((app.screens.map Screen.route).filterMap fun route => some route.name).Nodup := by
    have hnames : (app.screens.map Screen.route).map Route.name =
        app.screens.map Screen.routeCase := by
      rw [List.map_map]
      exact List.map_congr_left fun screen _ => screen.name_route
    rw [List.filterMap_eq_map', hnames]
    exact h.routeCases
  have honly := filter_key_eq_singleton hcases (List.mem_map_of_mem hmem) rfl
  simpa only [Option.some.injEq, Screen.name_route] using honly

/-- Of the routes of the screens one has the link of a screen. -/
theorem filter_deepLink_routes (h : app.NamesApart) {screen : Screen} (hmem : screen ∈ app.screens)
    {link : String} (hlink : screen.deepLink = some link) :
    ((app.screens.map Screen.route).filter fun route => route.deepLink = some link) =
      [screen.route] := by
  have hnodup : ((app.screens.map Screen.route).filterMap Route.deepLink).Nodup := by
    rw [List.filterMap_map]
    exact h.links
  exact filter_key_eq_singleton hnodup (List.mem_map_of_mem hmem) hlink

end AppDefinition

namespace Generate.Run

variable {app : AppDefinition} {catalog : Catalog} {config : GeneratorConfig} {out : GeneratedApp}
  {types : List DataType} {trees : List NormalTree} {views : List ScreenView} {entry : AppEntry}

theorem bodyOf_entry (h : Run app catalog config out types trees views entry) {head : String}
    {body : List String} (hlookup : entry.declared.lookup head = some body) :
    bodyOf head (Text.codeLines (entry.print config.indentWidth)) = body := by
  rw [bodyOf, h.declarations_entry, hlookup, Option.getD_some]

theorem hasDeepLinks_iff (h : Run app catalog config out types trees views entry) :
    entry.hasDeepLinks = true ↔ ∃ screen ∈ app.screens, screen.deepLink.isSome = true := by
  rw [AppEntry.hasDeepLinks, h.routes_eq, List.any_map, List.any_eq_true]
  rfl

/-- The cases of the routes. -/
theorem cases_of_run (h : Run app catalog config out types trees views entry) :
    (bodyOf routeHead (Text.codeLines (entry.print config.indentWidth))).filter
        (Text.startsWith "case ") =
      app.screens.map fun screen => "case " ++ screen.routeCase := by
  have hcases : ∀ route ∈ entry.routes, Text.startsWith "case " ("case " ++ route.name) = true :=
    fun route _ => Text.startsWith_append "case " route.name
  have hrest : (if entry.hasDeepLinks then [""] else ["\x7d", ""]).filter
      (Text.startsWith "case ") = [] := by
    split <;> decide
  rw [h.bodyOf_entry AppEntry.lookup_route, AppEntry.routeBody, List.filter_append, hrest,
    List.append_nil, List.filter_eq_self.mpr (List.forall_mem_map.mpr hcases), h.routes_eq,
    List.map_map]
  rfl

/-- The switch from routes to views. -/
theorem viewSwitch_of_run (h : Run app catalog config out types trees views entry)
    {screen : Screen} (hmem : screen ∈ app.screens) :
    behind ("case ." ++ screen.routeCase ++ ":")
        (bodyOf routeViewHead (Text.codeLines (entry.print config.indentWidth))) =
      [screen.viewType ++ "()"] := by
  have hlabel : ("case ." ++ screen.routeCase ++ ":").toList.head? = some 'c' := by simp
  have hclose : ∀ line ∈ ["\x7d", "\x7d", "\x7d", ""],
      line ≠ "case ." ++ screen.routeCase ++ ":" := by
    intro line hline
    refine ne_of_head? ?_
    rw [hlabel]
    revert line
    decide
  rw [h.bodyOf_entry AppEntry.lookup_routeView, AppEntry.routeViewBody, List.cons_append,
    behind_cons_of_ne (ne_of_head? (by rw [hlabel]; decide)), behind_viewCases,
    behind_of_ne hclose, h.routes_eq, AppDefinition.filter_name_routes h.namesApart hmem,
    List.append_nil, List.map_singleton, Screen.viewType_route]

/-- The switch from links to routes. -/
theorem linkSwitch_of_run (h : Run app catalog config out types trees views entry)
    {screen : Screen} (hmem : screen ∈ app.screens) {link : String}
    (hlink : screen.deepLink = some link) :
    behind ("case " ++ stringLiteral link ++ ":")
        (bodyOf linkHead (Text.codeLines (entry.print config.indentWidth))) =
      ["self = ." ++ screen.routeCase] := by
  have hlabel : ("case " ++ stringLiteral link ++ ":").toList.head? = some 'c' := by simp
  have hothers : ∀ line : String, line.toList.head? ≠ some 'c' →
      line ≠ "case " ++ stringLiteral link ++ ":" := by
    intro line hline
    exact ne_of_head? (by rwa [hlabel])
  have hopen : ∀ line ∈ ["let components = [url.host].compactMap \x7b $0 \x7d + " ++
      "url.pathComponents.filter \x7b $0 != \"/\" \x7d",
      "switch \"/\" + components.joined(separator: \"/\") \x7b"],
      line ≠ "case " ++ stringLiteral link ++ ":" := fun line hline => hothers line (by
    revert line
    decide)
  have hclose : ∀ line ∈ ["default:", "return nil", "\x7d", "\x7d", "\x7d", ""],
      line ≠ "case " ++ stringLiteral link ++ ":" := fun line hline => hothers line (by
    revert line
    decide)
  have hsome := h.hasDeepLinks_iff.mpr ⟨screen, hmem, by rw [hlink]; rfl⟩
  have hlinks : ∀ other ∈ (app.screens.map Screen.route).filterMap Route.deepLink,
      Names.isDeepLink other = true := by
    intro other hother
    rw [List.filterMap_map] at hother
    exact ((TakenNames.links_of_allErrors h.faultless.names).2 other hother).1
  have hvalid := hlinks link (List.mem_filterMap.mpr ⟨_, List.mem_map_of_mem hmem, hlink⟩)
  rw [h.bodyOf_entry (AppEntry.lookup_link hsome), AppEntry.linkBody, List.append_assoc,
    behind_append_of_ne hopen, h.routes_eq, behind_linkCases hvalid hlinks, behind_of_ne hclose,
    AppDefinition.filter_deepLink_routes h.namesApart hmem hlink, List.append_nil,
    List.map_singleton, Screen.name_route]

/-- The tab that is selected first. -/
theorem selection_of_run (h : Run app catalog config out types trees views entry)
    {first : String} (hfirst : entry.tabs.head? = some first) :
    behind "@Published var path = NavigationPath()"
        (bodyOf routerHead (Text.codeLines (entry.print config.indentWidth))) =
      ["@Published var selectedTab: Route = ." ++ first ++ " \x7b"] := by
  have htab : "@Published var selectedTab: Route = ." ++ first ++ " \x7b" ≠
      "@Published var path = NavigationPath()" := ne_of_getLast? (by simp [List.getLast?_cons])
  have hrest : ∀ line ∈ ["@Published var selectedTab: Route = ." ++ first ++ " \x7b",
      "didSet \x7b popToRoot() \x7d", "\x7d", ""],
      line ≠ "@Published var path = NavigationPath()" :=
    List.forall_mem_cons.mpr ⟨htab, by decide⟩
  rw [h.bodyOf_entry AppEntry.lookup_router, AppEntry.routerBody, hfirst]
  show behind _ (_ :: _ :: _) = _
  rw [behind_self]
  exact congrArg _ (behind_of_ne hrest)

/-- **What the entry file says of routes, it says of the screens.** -/
theorem entryRouted (h : Run app catalog config out types trees views entry) :
    app.EntryRouted entry (Text.codeLines (entry.print config.indentWidth)) := by
  obtain ⟨t, ht, hid, -, hroot⟩ := h.exists_opening
  refine ⟨h.cases_of_run, ?_, ?_, ?_, fun screen hmem => h.viewSwitch_of_run hmem, fun hsome => ?_,
    fun screen hmem link hlink => h.linkSwitch_of_run hmem hlink,
    fun first hfirst => h.selection_of_run hfirst,
    fun hsome => h.bodyOf_entry (AppEntry.lookup_open (h.hasDeepLinks_iff.mpr hsome))⟩
  · rw [h.bodyOf_entry AppEntry.lookup_root, AppEntry.rootBody, List.append_assoc,
      behind_append_of_ne (by decide)]
    exact AppDefinition.stacks_of_rootView ht hid hroot 2 (by decide)
  · have hopen : ["@EnvironmentObject private var router: Router", "",
        "var body: some View \x7b"].filter (Text.startsWith tagStart) = [] := by decide
    have hclose : ["\x7d", "", "@ViewBuilder"].filter (Text.startsWith tagStart) = [] := by decide
    rw [h.bodyOf_entry AppEntry.lookup_root, AppEntry.rootBody, List.filter_append,
      List.filter_append, hopen, hclose, List.nil_append, List.append_nil]
    exact AppDefinition.tags_of_rootView hroot 2
  · rw [h.bodyOf_entry AppEntry.lookup_routeView, AppEntry.routeViewBody, h.routes_eq]
    simp only [List.flatMap_map, Screen.name_route, Screen.viewType_route]
  · rw [h.bodyOf_entry (AppEntry.lookup_link (h.hasDeepLinks_iff.mpr hsome)), AppEntry.linkBody,
      h.routes_eq]
    simp only [List.flatMap_map, Screen.name_route, Screen.deepLink_route]

/-- **Whatever has been generated is routed without ambiguity.** -/
theorem routed (h : Run app catalog config out types trees views entry) :
    app.Routed catalog config out entry := by
  obtain ⟨t, ht, hid, hcase, hroot⟩ := h.exists_opening
  obtain ⟨hstack, hbar, htabs⟩ := AppDefinition.tabs_of_rootView hroot
  refine ⟨h.namesApart, h.routes_eq, fun screen hmem => ?_, ⟨t, ht, hid, hcase, hstack⟩, hbar,
    htabs, h.entryRouted⟩
  obtain ⟨view, hview, tree, hzip, hbuild⟩ := exists_of_forall₂ h.forall₂_screens.flip screen hmem
  have hnormal := mapError_eq_ok.mp ((List.forall₂_iff_zip.mp (mapM_eq_ok.mp h.normal)).2 hzip)
  have htype := viewType_of_buildScreen hbuild
  refine ⟨tree, view, hnormal, hbuild, htype, AppDefinition.leads_of_buildScreen hbuild, ?_, ?_⟩
  · rw [← htype]
    exact h.screen_mem_files hview
  · rintro rfl
    obtain ⟨view', s, order, body, hbuilt⟩ := h.accepted.exists_built hzip
    have hsame : view' = view := Except.ok.inj (hbuilt.build.symm.trans hbuild)
    refine ⟨?_, h.infix_screen hview (view.body_infix_lines config.emitPreviews)⟩
    rw [← hsame]
    exact hbuilt.edges_perm hnormal

end Generate.Run

/-- **Routing is unambiguous.**  In every generated app, over any catalog, the names by which
screens are told apart are apart; there is one route for each screen; and whatever leads to a
screen, in a view, in the tab bar or in one of the two switches, names that screen and no
other. -/
theorem routing_is_unambiguous (app : AppDefinition) (catalog : Catalog)
    (config : GeneratorConfig) (out : GeneratedApp) (h : generate app catalog config = .ok out) :
    ∃ types entry, Generate.buildModels app = .ok types ∧
      buildEntry app app.config.designTokens (ScreenNames.index app.screens)
        (Generate.valueTypes app types) = .ok entry ∧
      (⟨entryPath (Names.appFolder app.config.name) entry.appType,
        entry.print config.indentWidth⟩ : SourceFile) ∈ out.files ∧
      app.Routed catalog config out entry := by
  obtain ⟨types, trees, views, entry, hrun⟩ := Generate.exists_run h
  exact ⟨types, entry, hrun.models, hrun.opening, hrun.entry_mem_files, hrun.routed⟩

/-- An app with a way of every kind, whose first screen has a reserved word for its handle. -/
def Generate.tour : AppDefinition where
  config := ⟨"Notes", "com.example.notes", "1.0.0", .standard, .standard, false, false⟩
  screens :=
    [⟨"default", "Home", some "/home", [], [],
        .node ⟨"root", "VStack", [], [], []⟩
          [.node ⟨"open", "Button",
            [("title", .string "About"),
              ("action", .object [("target", .string "about"), ("type", .string "navigate")])],
            [], []⟩ [],
          .node ⟨"peek", "Button",
            [("title", .string "Peek"),
              ("action", .object
                [("target", .string "about"), ("type", .string "presentSheet")])], [], []⟩ [],
          .node ⟨"link", "NavigationLink", [("target", .string "about")], [], []⟩ [],
          .node ⟨"tabs", "TabView",
            [("tabs", .array [.object [("screen", .string "about"), ("title", .string "About"),
              ("icon", .string "info")]])], [], []⟩ []]⟩,
      ⟨"about", "About", some "/about", [], [],
        .node ⟨"body", "Text", [("content", .string "Notes")], [], []⟩ []⟩]
  models := []
  entryScreen := "default"
  tabBar := some [⟨"default", "Home", "house"⟩, ⟨"about", "About", "info"⟩]

/-- The tour is generated, so it is routed. -/
theorem routing_of_tour :
    ∃ out, generate Generate.tour Catalog.standard .standard = .ok out ∧
      ∃ types entry, Generate.buildModels Generate.tour = .ok types ∧
        buildEntry Generate.tour Generate.tour.config.designTokens
          (ScreenNames.index Generate.tour.screens)
          (Generate.valueTypes Generate.tour types) = .ok entry ∧
        (⟨entryPath (Names.appFolder Generate.tour.config.name) entry.appType,
          entry.print GeneratorConfig.standard.indentWidth⟩ : SourceFile) ∈ out.files ∧
        Generate.tour.Routed Catalog.standard .standard out entry := by
  have haccepts : Generate.accepts Generate.tour .standard = true := by decide +kernel
  obtain ⟨out, hout⟩ := Generate.exists_generate_of_accepts haccepts
  exact ⟨out, hout, routing_is_unambiguous Generate.tour Catalog.standard .standard out hout⟩

end Screenwright
