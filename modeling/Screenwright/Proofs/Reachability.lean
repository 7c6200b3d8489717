/-
Which screens a reader of the app can come to.

There are three accounts of it.  One is the definition of the app: the screens it names to begin
with, and the references in the trees of the others.  The second is the search behind the
warnings, which follows the ways that the views have recorded.  Since the ways of a view are the
references of its tree, the search finds what the definition says, whatever cycles there are.

The third is the app as it is emitted: what its root view makes, and what its links open.  Here
the two part.  The search always begins at the entry screen, whereas the root view makes its view
only if there are no tabs.  So a screen without a warning can be reached, except for what can be
reached from an entry screen that is no tab; `unreached_of_aside` is such a screen.
-/
import Screenwright.Proofs.Reach
import Screenwright.Proofs.Routing
import Screenwright.Proofs.Warnings

namespace Screenwright

open Steps Swift

/-! ### Screens that lead to each other -/

/-- The view of a screen leads to another screen. -/
def Swift.LeadsIn (views : List ScreenView) (here there : String) : Prop :=
  ∃ view ∈ views, view.screenId = here ∧ ∃ edge ∈ view.edges, edge.target = there

namespace AppDefinition

/-- The app can be entered at the screen: it is shown first, or a tab or a link leads to it. -/
def Opens (app : AppDefinition) (id : String) : Prop :=
  id = app.entryScreen ∨ (∃ item ∈ app.tabs, item.screen = id) ∨
    ∃ screen ∈ app.screens, screen.deepLink.isSome ∧ screen.id = id

/-- The tree of a screen, normalized, refers to another screen. -/
def Refers (app : AppDefinition) (limits : Limits) (here there : String) : Prop :=
  ∃ screen ∈ app.screens, screen.id = here ∧
    ∃ tree, normalize screen.root Catalog.standard limits = .ok tree ∧
      ∃ r ∈ tree.references, r.target = there

theorem mem_entries_iff {app : AppDefinition} {id : String} : id ∈ app.entries ↔ app.Opens id := by
  simp only [entries, Opens, List.cons_append, List.mem_cons, List.mem_append, List.mem_map,
    List.mem_filter, and_assoc]

theorem mem_targets_navigationGraph {views : List ScreenView} {here there : String} :
    there ∈ (navigationGraph views).targets here ↔ LeadsIn views here there := by
  simp only [Graph.mem_targets, navigationGraph, LeadsIn, List.mem_map, exists_exists_and_eq_and]

/-- The search finds what is reached along the ways of the views. -/
theorem mem_reachableScreens_iff {app : AppDefinition} {views : List ScreenView} {id : String} :
    id ∈ app.reachableScreens views ↔ Reached app.Opens (LeadsIn views) id :=
  Graph.mem_reach_iff (fun _ => mem_entries_iff) fun _ _ => mem_targets_navigationGraph

/-- The warnings are of the screens that the search does not find, in their order. -/
theorem reachWarnings_eq {app : AppDefinition} (hids : (app.screens.map Screen.id).Nodup)
    (views : List ScreenView) :
    app.reachWarnings views =
      (app.screens.filter fun screen => !(app.reachableScreens views).contains screen.id).map
        fun screen => unreachedWarning screen.id := by
  unfold reachWarnings
  dsimp only
  rw [ScreenNames.names_index hids, List.filter_map, List.map_map]
  rfl

end AppDefinition

theorem screenId_of_buildScreen {cx : BuildContext} {screen : Screen} {tree : NormalTree}
    {view : ScreenView} (h : buildScreen cx screen tree = .ok view) :
    view.screenId = screen.id := by
  obtain ⟨_, -, h⟩ := bind_eq_ok.mp h
  obtain ⟨_, -, h⟩ := bind_eq_ok.mp h
  obtain ⟨_, -, h⟩ := bind_eq_ok.mp h
  cases h
  rfl

/-! ### The search and the definition of the app -/

namespace Generate.Run

variable {app : AppDefinition} {catalog : Catalog} {config : GeneratorConfig} {out : GeneratedApp}
  {types : List DataType} {trees : List NormalTree} {views : List ScreenView} {entry : AppEntry}

/-- The view of a screen leads where the tree of the screen refers to. -/
theorem mem_targets_iff (h : Run app Catalog.standard config out types trees views entry)
    {screen : Screen} {tree : NormalTree} {view : ScreenView}
    (hmem : (screen, tree) ∈ app.screens.zip trees)
    (hbuild : buildScreen (app.contextIn Catalog.standard) screen tree = .ok view)
    {target : String} :
    (∃ edge ∈ view.edges, edge.target = target) ↔ ∃ r ∈ tree.references, r.target = target := by
  obtain ⟨view', s, order, body, hbuilt⟩ := h.accepted.exists_built hmem
  obtain rfl : view' = view := Except.ok.inj (hbuilt.build.symm.trans hbuild)
  have hperm := (hbuilt.edges_perm (h.accepted.normalize_of_mem_zip hmem)).map fun e => e.2.1
  rw [List.map_map, List.map_map] at hperm
  simpa only [List.mem_map, Function.comp_apply] using hperm.mem_iff

/-- **The ways of the views are the references of the trees.** -/
theorem leadsIn_iff_refers (h : Run app Catalog.standard config out types trees views entry)
    {here there : String} : LeadsIn views here there ↔ app.Refers config.limits here there := by
  constructor
  · rintro ⟨view, hview, rfl, hedge⟩
    obtain ⟨screen, hscreen, tree, hmem, hbuild⟩ := exists_of_forall₂ h.forall₂_screens view hview
    exact ⟨screen, hscreen, (screenId_of_buildScreen hbuild).symm, tree,
      h.accepted.normalize_of_mem_zip hmem, (h.mem_targets_iff hmem hbuild).mp hedge⟩
  · rintro ⟨screen, hscreen, rfl, tree, hnormal, hreference⟩
    obtain ⟨view, hview, tree', hmem, hbuild⟩ :=
      exists_of_forall₂ h.forall₂_screens.flip screen hscreen
    obtain rfl : tree = tree' :=
      Except.ok.inj (hnormal.symm.trans (h.accepted.normalize_of_mem_zip hmem))
    exact ⟨view, hview, screenId_of_buildScreen hbuild,
      (h.mem_targets_iff hmem hbuild).mpr hreference⟩

end Generate.Run

/-! ### The screens that are warned of -/

namespace AppDefinition

variable {app : AppDefinition} {trees : List NormalTree} {views : List ScreenView}
  {tokens : DesignTokens} {depth : Nat}

/-- A screen is warned of exactly if it is not reached along the ways of the views. -/
theorem unreached_mem_warnings_iff (hids : (app.screens.map Screen.id).Nodup) {screen : Screen}
    (hscreen : screen ∈ app.screens) :
    unreachedWarning screen.id ∈ app.warnings trees views tokens depth ↔
      ¬ Reached app.Opens (LeadsIn views) screen.id := by
  obtain ⟨before, after, hsplit, hothers⟩ :=
    app.split_unreached trees views tokens depth
  rw [hsplit, reachWarnings_eq hids, ← mem_reachableScreens_iff, List.append_assoc]
  constructor
  · intro hwarned hfound
    rcases List.mem_append.mp hwarned with hbefore | hwarned
    · exact hothers _ (List.mem_append_left _ hbefore) screen.id rfl
    rcases List.mem_append.mp hwarned with hwarned | hafter
    · obtain ⟨other, hother, heq⟩ := List.mem_map.mp hwarned
      have hlost := (List.mem_filter.mp hother).2
      rw [unreachedWarning_injective heq] at hlost
      simp [hfound] at hlost
    · exact hothers _ (List.mem_append_right _ hafter) screen.id rfl
  · intro hlost
    refine List.mem_append_right _ (List.mem_append_left _ (List.mem_map.mpr ⟨screen, ?_, rfl⟩))
    exact List.mem_filter.mpr ⟨hscreen, by simpa using hlost⟩

end AppDefinition

/-- **Warnings of screens that cannot be reached are exact.**  In an accepted app there is one for
each screen, in the order of the screens, that is outside the least set of identifiers that holds
the entry screen, the targets of the tabs and the screens with deep links, and with every screen
the targets of the references in its tree; and there are no others. -/
theorem unreached_screens_are_warned (app : AppDefinition) (config : GeneratorConfig)
    (out : GeneratedApp) (h : generate app Catalog.standard config = .ok out) :
    (∀ screen ∈ app.screens, unreachedWarning screen.id ∈ out.warnings ↔
      ¬ Reached app.Opens (app.Refers config.limits) screen.id) ∧
    ∃ lost : List Screen, lost.Sublist app.screens ∧
      (∀ screen ∈ app.screens,
        screen ∈ lost ↔ ¬ Reached app.Opens (app.Refers config.limits) screen.id) ∧
      (lost.map fun screen => unreachedWarning screen.id).Nodup ∧
      ∃ before after,
        out.warnings = before ++ (lost.map fun screen => unreachedWarning screen.id) ++ after ∧
        ∀ w ∈ before ++ after, ∀ id, w ≠ unreachedWarning id := by
  obtain ⟨types, trees, views, entry, hrun, hwarnings⟩ := Generate.exists_run_warnings h
  have hids := hrun.namesApart.ids
  have hleads : LeadsIn views = app.Refers config.limits :=
    funext fun _ => funext fun _ => propext hrun.leadsIn_iff_refers
  obtain ⟨before, after, hsplit, hothers⟩ :=
    app.split_unreached trees views app.config.designTokens config.nestingWarningDepth
  rw [← hwarnings, AppDefinition.reachWarnings_eq hids] at hsplit
  refine ⟨fun screen hscreen => ?_, _, List.filter_sublist, fun screen hscreen => ?_, ?_,
    before, after, hsplit, hothers⟩
  · rw [hwarnings, AppDefinition.unreached_mem_warnings_iff hids hscreen, hleads]
  · rw [List.mem_filter, ← hleads, ← AppDefinition.mem_reachableScreens_iff]
    simp [hscreen]
  · exact nodup_texts_of_sublist hids List.filter_sublist unreachedWarning_injective

/-- An app with a cycle that the entry screen leads into, and one that nothing leads into. -/
def Generate.maze : AppDefinition where
  config := ⟨"Notes", "com.example.notes", "1.0.0", .standard, .standard, false, false⟩
  screens := [room "home" "Home" "about", room "about" "About" "home",
    room "attic" "Attic" "cellar", room "cellar" "Cellar" "attic"]
  models := []
  entryScreen := "home"
  tabBar := none
where
  /-- A screen with one link. -/
  room (id name next : String) : Screen :=
    ⟨id, name, none, [], [],
      .node ⟨"link", "NavigationLink", [("target", .string next)], [], []⟩ []⟩

/-- The maze is generated, so its warnings are exact. -/
theorem unreached_of_maze :
    ∃ out, generate Generate.maze Catalog.standard .standard = .ok out ∧
      (∀ screen ∈ Generate.maze.screens, unreachedWarning screen.id ∈ out.warnings ↔
        ¬ Reached Generate.maze.Opens (Generate.maze.Refers GeneratorConfig.standard.limits)
          screen.id) ∧
      ∃ lost : List Screen, lost.Sublist Generate.maze.screens ∧
        (∀ screen ∈ Generate.maze.screens, screen ∈ lost ↔
          ¬ Reached Generate.maze.Opens (Generate.maze.Refers GeneratorConfig.standard.limits)
            screen.id) ∧
        (lost.map fun screen => unreachedWarning screen.id).Nodup ∧
        ∃ before after,
          out.warnings = before ++ (lost.map fun screen => unreachedWarning screen.id) ++ after ∧
          ∀ w ∈ before ++ after, ∀ id, w ≠ unreachedWarning id := by
  have haccepts : Generate.accepts Generate.maze .standard = true := by decide +kernel
  obtain ⟨out, hout⟩ := Generate.exists_generate_of_accepts haccepts
  exact ⟨out, hout, unreached_screens_are_warned Generate.maze .standard out hout⟩

/-! ### The root view -/

/-- The view type of a screen begins with a capital, unlike the function that the routes use. -/
theorem Screen.viewType_ne_routeView (screen : Screen) : screen.viewType ≠ "routeView" := by
  have hbase : ∃ c, (((Names.typeName? screen.name).orElse fun _ =>
      Names.typeName? screen.id).getD "Screen").toList.head? = some c ∧ c.isLower = false := by
    cases hname : Names.typeName? screen.name with
    | some type => exact Names.isLower_head_typeName? hname
    | none =>
        cases hid : Names.typeName? screen.id with
        | some type => exact Names.isLower_head_typeName? hid
        | none => exact ⟨'S', rfl, rfl⟩
  obtain ⟨c, hc, hlower⟩ := hbase
  have hhead : screen.viewType.toList.head? = some c := by
    rw [viewType, ScreenNames.ofScreen, ScreenNames.ofIdAndName, String.toList_append,
      List.head?_append, hc]
    rfl
  intro heq
  rw [heq] at hhead
  obtain rfl : 'r' = c := Option.some.inj hhead
  cases hlower

namespace AppDefinition

variable {app : AppDefinition}

/-- The root view makes the view of the screen, or a link opens it. -/
def Displays (app : AppDefinition) (entry : AppEntry) (id : String) : Prop :=
  ∃ screen ∈ app.screens, screen.id = id ∧
    (.view screen.viewType ∈ entry.root.effects ∨ screen.deepLink.isSome)

/-- **The root view makes the views of the tabs, or that of the entry screen if there are
none.** -/
theorem view_mem_effects_rootView_iff (hnames : app.NamesApart) {first : ScreenNames}
    {root : View} {names : List String} {screen : Screen} (hscreen : screen ∈ app.screens)
    (h : rootView (ScreenNames.index app.screens) first app.tabs = .ok (root, names)) :
    .view screen.viewType ∈ root.effects ↔
      (app.tabs = [] ∧ screen.viewType = first.viewType) ∨
        ∃ item ∈ app.tabs, item.screen = screen.id := by
  have hroute := screen.viewType_ne_routeView
  unfold rootView at h
  split at h
  next hempty =>
    cases h
    rw [List.isEmpty_iff.mp hempty, effects_routedStack]
    simp [hroute]
  next hsome =>
    obtain ⟨named, hnamed, h⟩ := bind_eq_ok.mp h
    cases h
    have hitems := forall₂_of_tabTargets hnamed
    have hnil : app.tabs ≠ [] := fun hnil => hsome (List.isEmpty_iff.mpr hnil)
    show _ ∈ (View.ofContent .tabView _ (named.map fun found => barTab found.1 found.2)).effects ↔ _
    rw [effects_bar]
    show _ ∈ named.flatMap _ ↔ _
    rw [List.mem_flatMap]
    constructor
    · rintro ⟨found, hfound, hmem⟩
      obtain ⟨item, hitem, t, ht, hid, hfoundNames⟩ := exists_of_forall₂ hitems found hfound
      have htype : screen.viewType = t.viewType := by
        have hcases : screen.viewType = found.2.viewType := by simpa [hroute] using hmem
        rw [hcases, ← hfoundNames]
        rfl
      rw [List.inj_on_of_nodup_map hnames.viewTypes hscreen ht htype]
      exact Or.inr ⟨item, hitem, hid.symm⟩
    · rintro (⟨h, -⟩ | ⟨item, hitem, hid⟩)
      · exact absurd h hnil
      obtain ⟨found, hfound, t, ht, htid, hfoundNames⟩ :=
        exists_of_forall₂ hitems.flip item hitem
      obtain rfl : t = screen :=
        List.inj_on_of_nodup_map hnames.ids ht hscreen (htid.trans hid)
      refine ⟨found, hfound, List.mem_cons.mpr (Or.inl ?_)⟩
      rw [← hfoundNames]
      rfl

end AppDefinition

namespace Generate.Run

variable {app : AppDefinition} {catalog : Catalog} {config : GeneratorConfig} {out : GeneratedApp}
  {types : List DataType} {trees : List NormalTree} {views : List ScreenView} {entry : AppEntry}

/-- **What the emitted app shows by itself**: its tabs, or its entry screen if there are none, and
what its links open. -/
theorem displays_iff (h : Run app catalog config out types trees views entry) {id : String} :
    app.Displays entry id ↔
      (app.tabs = [] ∧ id = app.entryScreen) ∨ (∃ item ∈ app.tabs, item.screen = id) ∨
        ∃ screen ∈ app.screens, screen.deepLink.isSome ∧ screen.id = id := by
  have hnames := h.namesApart
  have htabs := h.routed.tabs
  obtain ⟨first, root, names, accent, hfirst, hroot, -, rfl⟩ := exists_of_buildEntry h.opening
  obtain ⟨t, ht, hid, rfl⟩ := AppDefinition.exists_of_entryTarget hfirst
  constructor
  · rintro ⟨screen, hscreen, rfl, hmade | hlink⟩
    · rcases (AppDefinition.view_mem_effects_rootView_iff hnames hscreen hroot).mp hmade with
        ⟨hnil, htype⟩ | hitem
      · rw [List.inj_on_of_nodup_map hnames.viewTypes hscreen ht htype]
        exact Or.inl ⟨hnil, hid⟩
      · exact Or.inr (Or.inl hitem)
    · exact Or.inr (Or.inr ⟨screen, hscreen, hlink, rfl⟩)
  · rintro (⟨hnil, rfl⟩ | ⟨item, hitem, rfl⟩ | ⟨screen, hscreen, hlink, rfl⟩)
    · refine ⟨t, ht, hid, Or.inl ?_⟩
      exact (AppDefinition.view_mem_effects_rootView_iff hnames ht hroot).mpr
        (Or.inl ⟨hnil, rfl⟩)
    · obtain ⟨name, -, screen, hscreen, hsame, -⟩ := exists_of_forall₂ htabs.flip item hitem
      refine ⟨screen, hscreen, hsame, Or.inl ?_⟩
      exact (AppDefinition.view_mem_effects_rootView_iff hnames hscreen hroot).mpr
        (Or.inr ⟨item, hitem, hsame.symm⟩)
    · exact ⟨screen, hscreen, rfl, Or.inr hlink⟩

/-- The search begins where the emitted app does, and at the entry screen. -/
theorem opens_iff (h : Run app catalog config out types trees views entry) {id : String} :
    app.Opens id ↔ id = app.entryScreen ∨ app.Displays entry id := by
  rw [h.displays_iff, AppDefinition.Opens]
  constructor
  · rintro (hentry | hrest)
    · exact Or.inl hentry
    · exact Or.inr (Or.inr hrest)
  · rintro (hentry | ⟨-, hentry⟩ | hrest)
    · exact Or.inl hentry
    · exact Or.inl hentry
    · exact Or.inr hrest

/-- Every screen that is reached in the emitted app, or from its entry screen, has no warning. -/
theorem unwarned_iff (h : Run app catalog config out types trees views entry)
    (hwarnings : out.warnings =
      app.warnings trees views app.config.designTokens config.nestingWarningDepth)
    (screen : Screen) (hscreen : screen ∈ app.screens) :
    unreachedWarning screen.id ∉ out.warnings ↔
      Reached (fun id => id = app.entryScreen ∨ app.Displays entry id) (LeadsIn views)
        screen.id := by
  have hstart : app.Opens = fun id => id = app.entryScreen ∨ app.Displays entry id :=
    funext fun _ => propext h.opens_iff
  rw [hwarnings, AppDefinition.unreached_mem_warnings_iff h.namesApart.ids hscreen, not_not,
    hstart]

end Generate.Run

/-- **Screens without a warning can be reached from the entry screen, or in the emitted app.**
That all of them can be reached in the emitted app holds exactly if the entry screen can, as it
can if there are no tabs. -/
theorem unwarned_screens_are_reached_iff (app : AppDefinition) (catalog : Catalog)
    (config : GeneratorConfig) (out : GeneratedApp) (h : generate app catalog config = .ok out) :
    ∃ types trees views entry, Generate.Run app catalog config out types trees views entry ∧
      (∀ id, app.Displays entry id ↔
        (app.tabs = [] ∧ id = app.entryScreen) ∨ (∃ item ∈ app.tabs, item.screen = id) ∨
          ∃ screen ∈ app.screens, screen.deepLink.isSome ∧ screen.id = id) ∧
      (∀ screen ∈ app.screens, unreachedWarning screen.id ∉ out.warnings ↔
        Reached (fun id => id = app.entryScreen ∨ app.Displays entry id) (LeadsIn views)
          screen.id) ∧
      ((∀ screen ∈ app.screens, unreachedWarning screen.id ∉ out.warnings →
          Reached (app.Displays entry) (LeadsIn views) screen.id) ↔
        Reached (app.Displays entry) (LeadsIn views) app.entryScreen) := by
  obtain ⟨types, trees, views, entry, hrun, hwarnings⟩ := Generate.exists_run_warnings h
  have hunwarned := fun screen hscreen => hrun.unwarned_iff hwarnings screen hscreen
  refine ⟨types, trees, views, entry, hrun, fun _ => hrun.displays_iff, hunwarned, ?_, ?_⟩
  · intro hall
    obtain ⟨t, ht, hid, -⟩ := hrun.routed.first
    rw [← hid]
    exact hall t ht ((hunwarned t ht).mpr (.start (Or.inl hid)))
  · intro hentry screen hscreen hquiet
    refine ((hunwarned screen hscreen).mp hquiet).least (fun id hstart => ?_)
      fun _ _ hhere hleads => hhere.step hleads
    rcases hstart with rfl | hdisplayed
    · exact hentry
    · exact .start hdisplayed

/-- The maze has no tabs, so whatever it has no warning of can be reached. -/
theorem unwarned_of_maze :
    ∃ out, generate Generate.maze Catalog.standard .standard = .ok out ∧
      ∃ types trees views entry,
        Generate.Run Generate.maze Catalog.standard .standard out types trees views entry ∧
        (∀ id, Generate.maze.Displays entry id ↔
          (Generate.maze.tabs = [] ∧ id = Generate.maze.entryScreen) ∨
            (∃ item ∈ Generate.maze.tabs, item.screen = id) ∨
            ∃ screen ∈ Generate.maze.screens, screen.deepLink.isSome ∧ screen.id = id) ∧
        (∀ screen ∈ Generate.maze.screens, unreachedWarning screen.id ∉ out.warnings ↔
          Reached (fun id => id = Generate.maze.entryScreen ∨ Generate.maze.Displays entry id)
            (LeadsIn views) screen.id) ∧
        ((∀ screen ∈ Generate.maze.screens, unreachedWarning screen.id ∉ out.warnings →
            Reached (Generate.maze.Displays entry) (LeadsIn views) screen.id) ↔
          Reached (Generate.maze.Displays entry) (LeadsIn views) Generate.maze.entryScreen) := by
  have haccepts : Generate.accepts Generate.maze .standard = true := by decide +kernel
  obtain ⟨out, hout⟩ := Generate.exists_generate_of_accepts haccepts
  exact ⟨out, hout, unwarned_screens_are_reached_iff Generate.maze .standard .standard out hout⟩

/-- An app whose entry screen is none of its tabs. -/
def Generate.aside : AppDefinition where
  config := ⟨"Notes", "com.example.notes", "1.0.0", .standard, .standard, false, false⟩
  screens :=
    [⟨"home", "Home", none, [], [], .node ⟨"t", "Text", [], [], []⟩ []⟩,
      ⟨"feed", "Feed", none, [], [], .node ⟨"t", "Text", [], [], []⟩ []⟩]
  models := []
  entryScreen := "home"
  tabBar := some [⟨"feed", "Feed", "list.bullet"⟩]

/-- The entry screen has no warning, and the emitted app cannot come to it: its root view makes
the view of the other screen, which leads nowhere. -/
theorem unreached_of_aside :
    ∃ out, generate Generate.aside Catalog.standard .standard = .ok out ∧
      ∃ types trees views entry,
        Generate.Run Generate.aside Catalog.standard .standard out types trees views entry ∧
        ∃ screen ∈ Generate.aside.screens, unreachedWarning screen.id ∉ out.warnings ∧
          ¬ Reached (Generate.aside.Displays entry) (LeadsIn views) screen.id := by
  have haccepts : Generate.accepts Generate.aside .standard = true := by decide +kernel
  obtain ⟨out, hout⟩ := Generate.exists_generate_of_accepts haccepts
  obtain ⟨types, trees, views, entry, hrun, hwarnings⟩ := Generate.exists_run_warnings hout
  obtain ⟨home, hhome, hid⟩ : ∃ screen ∈ Generate.aside.screens, screen.id = "home" :=
    ⟨_, List.mem_cons_self, rfl⟩
  refine ⟨out, hout, types, trees, views, entry, hrun, home, hhome, ?_, ?_⟩
  · exact (hrun.unwarned_iff hwarnings home hhome).mpr (.start (Or.inl hid))
  · rw [hid]
    intro hreached
    have hfeed : "home" = "feed" := hreached.least (p := fun id => id = "feed")
      (fun id hstart => ?_) fun here there _ hleads => ?_
    · exact absurd hfeed (by decide)
    · rcases hrun.displays_iff.mp hstart with
        ⟨hnil, -⟩ | ⟨item, hitem, hid⟩ | ⟨screen, hs, hlink, -⟩
      · cases hnil
      · rw [List.mem_singleton.mp hitem] at hid
        exact hid.symm
      · have hnolink : ∀ screen ∈ Generate.aside.screens, ¬ screen.deepLink.isSome := by decide
        exact absurd hlink (hnolink screen hs)
    · obtain ⟨screen, hs, -, tree, hnormal, r, hr, -⟩ := hrun.leadsIn_iff_refers.mp hleads
      have hnone : Generate.aside.screens.all (fun screen =>
          match normalize screen.root Catalog.standard GeneratorConfig.standard.limits with
          | .ok tree => tree.references.isEmpty
          | .error _ => false) = true := by decide +kernel
      have hempty := List.all_eq_true.mp hnone screen hs
      rw [hnormal, List.isEmpty_iff] at hempty
      rw [hempty] at hr
      cases hr

end Screenwright
