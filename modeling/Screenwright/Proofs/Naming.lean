/-
The names of screens are kept apart.

Names are made from free text and lose much of it: signs are dropped, letters change their
case, digits and reserved words get something put before or around them, and an empty name is
replaced by another.  Two screens can therefore ask for the same name in many ways.  One loop
over the screens refuses them, name by name, and what it lets through is `NamesApart`.  Reserved
words are escaped only afterwards, which keeps apart what was apart, because what is escaped
begins with a sign that no name can begin with.
-/
import Screenwright.Proofs.Generation
import Screenwright.Proofs.Lexical.Names

namespace Screenwright

namespace Screen

/-- The type of the view of a screen. -/
def viewType (screen : Screen) : String :=
  (ScreenNames.ofScreen screen).viewType

/-- The case of the route to a screen, as it is written. -/
def routeCase (screen : Screen) : String :=
  (ScreenNames.ofScreen screen).routeCase

end Screen

/-- The type of a view is made of letters and digits. -/
theorem Screen.isAlphanum_of_mem_viewType (screen : Screen) :
    ∀ c ∈ screen.viewType.toList, c.isAlphanum = true := by
  have hbase : ∀ c ∈ (((Names.typeName? screen.name).orElse fun _ =>
      Names.typeName? screen.id).getD "Screen").toList, c.isAlphanum = true := by
    cases hname : Names.typeName? screen.name with
    | some type => exact Names.isAlphanum_of_mem_typeName? hname
    | none =>
        cases hid : Names.typeName? screen.id with
        | some type => exact Names.isAlphanum_of_mem_typeName? hid
        | none => exact List.all_eq_true.mp (by decide : "Screen".toList.all Char.isAlphanum = true)
  intro c hc
  have hsplit : screen.viewType.toList = (((Names.typeName? screen.name).orElse fun _ =>
      Names.typeName? screen.id).getD "Screen").toList ++ "View".toList := String.toList_append
  rw [hsplit] at hc
  rcases List.mem_append.mp hc with hc | hc
  · exact hbase c hc
  · exact List.all_eq_true.mp (by decide : "View".toList.all Char.isAlphanum = true) c hc

/-! ### Cases of routes -/

namespace Names

/-- A reserved word as a member is written. -/
theorem toList_escapeMember {name : String} (h : isKeyword name = true) :
    (escapeMember name).toList = '\x60' :: name.toList ++ ['\x60'] := by
  rw [escapeMember, if_pos h, String.toList_append, String.toList_append]
  rfl

theorem escapeMember_of_not_keyword {name : String} (h : ¬ isKeyword name = true) :
    escapeMember name = name := by
  rw [escapeMember, if_neg h]

/-- What is escaped is not the name of anything. -/
theorem escapeMember_ne {a b : String} (ha : isKeyword a = true)
    (hb : ∀ c ∈ b.toList, c.isAlphanum = true) : escapeMember a ≠ b := by
  intro heq
  have htick : '\x60' ∈ b.toList := by
    rw [← heq, toList_escapeMember ha]
    exact List.mem_cons_self
  exact absurd (hb _ htick) (by decide)

/-- **Escaping keeps names apart.** -/
theorem escapeMember_injective {a b : String} (ha : ∀ c ∈ a.toList, c.isAlphanum = true)
    (hb : ∀ c ∈ b.toList, c.isAlphanum = true) (h : escapeMember a = escapeMember b) : a = b := by
  by_cases hka : isKeyword a = true
  · by_cases hkb : isKeyword b = true
    · have hlist := congrArg String.toList h
      rw [toList_escapeMember hka, toList_escapeMember hkb] at hlist
      exact String.toList_inj.mp (List.append_inj_left' (List.cons.inj hlist).2 rfl)
    · rw [escapeMember_of_not_keyword hkb] at h
      exact absurd h (escapeMember_ne hka hb)
  · rw [escapeMember_of_not_keyword hka] at h
    by_cases hkb : isKeyword b = true
    · exact absurd h.symm (escapeMember_ne hkb ha)
    · rwa [escapeMember_of_not_keyword hkb] at h

end Names

/-- Screens whose routes are written in the same way have the same handle. -/
theorem ScreenNames.handle_eq_of_routeCase {a b : Screen} (h : a.routeCase = b.routeCase) :
    (ofScreen a).handle = (ofScreen b).handle :=
  Names.escapeMember_injective (Names.isAlphanum_of_mem_memberName a.id)
    (Names.isAlphanum_of_mem_memberName b.id) h

/-! ### What the loop over the screens lets through -/

namespace TakenNames

variable {app : AppDefinition}

/-- No view has the type of anything else. -/
theorem typeOwner?_of_allErrors {screens : List Screen} :
    ∀ {taken : TakenNames}, allErrors app taken screens = [] →
      ∀ screen ∈ screens, app.typeOwner? screen.viewType = .none := by
  induction screens with
  | nil => simp
  | cons screen rest ih =>
      intro taken h
      obtain ⟨hself, hrest⟩ := admits_of_allErrors h
      rw [List.forall_mem_cons]
      exact ⟨hself.owner, ih hrest⟩

/-- **Deep links are well formed, and no two screens share one.** -/
theorem links_of_allErrors {screens : List Screen} :
    ∀ {taken : TakenNames}, allErrors app taken screens = [] →
      (screens.filterMap Screen.deepLink).Nodup ∧
      ∀ link ∈ screens.filterMap Screen.deepLink,
        Names.isDeepLink link = true ∧ link ∉ Entries.names taken.links := by
  induction screens with
  | nil => simp
  | cons screen rest ih =>
      intro taken h
      obtain ⟨hself, hrest⟩ := admits_of_allErrors h
      obtain ⟨hnodup, hfresh⟩ := ih hrest
      cases hdeep : screen.deepLink with
      | none =>
          rw [List.filterMap_cons_none hdeep]
          refine ⟨hnodup, fun link hmem => ?_⟩
          simpa [add, hdeep] using hfresh link hmem
      | some link =>
          obtain ⟨hvalid, hnew⟩ := hself.link link hdeep
          -- The screens behind this one find its link among those that are taken.
          have hnames : Entries.names (taken.add screen (ScreenNames.ofScreen screen)).links =
              link :: Entries.names taken.links := by
            simp [add, hdeep, hvalid, Entries.names]
          rw [hnames] at hfresh
          rw [List.filterMap_cons_some hdeep, List.nodup_cons, List.forall_mem_cons]
          refine ⟨⟨fun hmem => ?_, hnodup⟩, ⟨hvalid, hnew⟩, fun other hmem => ?_⟩
          · exact (hfresh link hmem).2 List.mem_cons_self
          · obtain ⟨hother, hnot⟩ := hfresh other hmem
            exact ⟨hother, fun hin => hnot (List.mem_cons_of_mem _ hin)⟩

end TakenNames

/-! ### Names that are apart -/

/-- No two screens of the app can be confused by their names, and no view is named like another
type of the app. -/
structure AppDefinition.NamesApart (app : AppDefinition) : Prop where
  ids : (app.screens.map Screen.id).Nodup
  viewTypes : (app.screens.map Screen.viewType).Nodup
  routeCases : (app.screens.map Screen.routeCase).Nodup
  links : (app.screens.filterMap Screen.deepLink).Nodup
  /-- The types that every app has. -/
  ofApp : ∀ screen ∈ app.screens,
    screen.viewType ∉ Names.appTypeName app.config.name :: reservedTypes
  ofModels : ∀ screen ∈ app.screens, ∀ model ∈ app.models,
    Names.typeName? model.name ≠ some screen.viewType

namespace AppDefinition

variable {app : AppDefinition}

theorem of_typeOwner? {type : String} (h : app.typeOwner? type = none) :
    type ∉ Names.appTypeName app.config.name :: reservedTypes ∧
      ∀ model ∈ app.models, Names.typeName? model.name ≠ some type := by
  unfold typeOwner? at h
  split at h
  · cases h
  next hfree =>
    simp only [Bool.or_eq_true, decide_eq_true_eq, not_or] at hfree
    refine ⟨fun hmem => ?_, fun model hmodel heq => ?_⟩
    · rcases List.mem_cons.mp hmem with heq | hmem
      · exact hfree.2 heq
      · exact hfree.1 (List.contains_iff_mem.mpr hmem)
    · rw [Option.map_eq_none_iff, List.find?_eq_none] at h
      exact h model hmodel (by simpa using heq)

/-- **The checks keep the names of screens apart.** -/
theorem namesApart_of_allErrors (h : TakenNames.none.allErrors app app.screens = []) :
    app.NamesApart := by
  obtain ⟨⟨hids, -⟩, ⟨htypes, -⟩, hhandles, -⟩ := TakenNames.fresh_of_allErrors h
  have howner := TakenNames.typeOwner?_of_allErrors h
  refine ⟨hids, htypes, ?_, (TakenNames.links_of_allErrors h).1, ?_, ?_⟩
  · refine List.Nodup.map_on ?_ hids.of_map
    intro a ha b hb hcase
    exact List.inj_on_of_nodup_map hhandles ha hb (ScreenNames.handle_eq_of_routeCase hcase)
  · exact fun screen hscreen => (of_typeOwner? (howner screen hscreen)).1
  · exact fun screen hscreen => (of_typeOwner? (howner screen hscreen)).2

end AppDefinition

/-- The names of a generated app are apart. -/
theorem Generate.Run.namesApart {app : AppDefinition} {catalog : Catalog}
    {config : GeneratorConfig} {out : GeneratedApp} {types : List Swift.DataType}
    {trees : List NormalTree} {views : List Swift.ScreenView} {entry : Swift.AppEntry}
    (h : Run app catalog config out types trees views entry) : app.NamesApart :=
  AppDefinition.namesApart_of_allErrors h.faultless.names

/-- In the index a screen has its own names, if identifiers are not repeated. -/
theorem ScreenNames.lookup_index_of_mem {screens : List Screen} {screen : Screen}
    (hnodup : (screens.map Screen.id).Nodup) (hmem : screen ∈ screens) :
    (index screens).lookup screen.id = some (ofScreen screen) := by
  obtain ⟨names, hnames⟩ := Entries.exists_lookup (mem_names_index.mpr ⟨screen, hmem, rfl⟩)
  obtain ⟨other, hother, hid, rfl⟩ := exists_of_lookup_index hnames
  rw [hnames, List.inj_on_of_nodup_map hnodup hother hmem hid]

/-- The index has the identifiers of the screens in their order, if they are not repeated. -/
theorem ScreenNames.names_index {screens : List Screen} (hnodup : (screens.map Screen.id).Nodup) :
    Entries.names (index screens) = screens.map Screen.id :=
  (Entries.names_foldl_putNew hnodup fun _ _ => List.not_mem_nil).trans (List.nil_append _)

end Screenwright
