/-
Types whose names mean something else in generated code.

Generated code refers to the views of the framework, to the types of plain values and to a few
shapes, and it declares none of these.  A declared type of such a name takes their place, and
a type that is named like a reserved word cannot be declared at all.  The checks compare the types
of an app with each other and with those of the entry, but not with these names.

What they miss can be said exactly.  The type of the app ends like none of these names.  The type of
a view ends like five of them, so the words before the ending decide.  The type of a data model is
whatever its words make of it, and since these begin with capitals only one reserved word is within
their reach.
-/
import Screenwright.Proofs.TypeNames

namespace Screenwright

open Steps

namespace Swift

/-! ### Names that are taken -/

/-- A name by which generated code refers to something that it does not declare. -/
inductive Foreign : String → Prop where
  | container (kind : ContainerKind) : Foreign kind.name
  /-- The views that an app generates are declared. -/
  | leaf (kind : LeafKind) (h : ∀ name, kind ≠ .custom name) : Foreign kind.name
  | value (type : ValueType) (h : type ∈ [ValueType.string, .int, .double, .bool, .date]) :
      Foreign (typeText type)
  /-- Colors, the shapes of backgrounds and borders, and the columns of grids. -/
  | other {name : String}
      (h : name ∈ ["Color", "Capsule", "RoundedRectangle", "GridItem", "Array"]) : Foreign name

/-- The name cannot be given to a type: it is a reserved word, or means something else. -/
def Clashes (name : String) : Prop :=
  Names.isKeyword name = true ∨ Foreign name

/-- All kinds of views with content. -/
def ContainerKind.all : List ContainerKind :=
  [.vStack, .hStack, .zStack, .scrollView, .lazyVGrid, .list, .section, .form, .group,
    .navigationStack, .navigationLink, .menu, .button, .picker, .toolbarItemGroup, .tabView]

/-- All kinds of views made from arguments alone that are not generated. -/
def LeafKind.all : List LeafKind :=
  [.text, .label, .image, .button, .navigationLink, .toggle, .slider, .stepper, .textField,
    .secureField, .progressView, .spacer, .divider, .emptyView, .contentUnavailableView]

/-- The names that mean something else in generated code. -/
def foreignNames : List String :=
  ContainerKind.all.map ContainerKind.name ++ LeafKind.all.map LeafKind.name ++
    [ValueType.string, .int, .double, .bool, .date].map typeText ++
    ["Color", "Capsule", "RoundedRectangle", "GridItem", "Array"]

theorem ContainerKind.mem_all (kind : ContainerKind) : kind ∈ ContainerKind.all := by
  cases kind <;> decide

theorem LeafKind.mem_all_iff {kind : LeafKind} :
    kind ∈ LeafKind.all ↔ ∀ name, kind ≠ .custom name := by
  constructor
  · intro hmem name heq
    rw [heq] at hmem
    simp [LeafKind.all] at hmem
  · intro h
    cases kind with
    | custom name => exact absurd rfl (h name)
    | _ => decide

theorem foreign_iff {name : String} : Foreign name ↔ name ∈ foreignNames := by
  simp only [foreignNames, List.mem_append, List.mem_map]
  constructor
  · intro h
    cases h with
    | container kind => exact Or.inl (Or.inl (Or.inl ⟨kind, kind.mem_all, rfl⟩))
    | leaf kind h => exact Or.inl (Or.inl (Or.inr ⟨kind, LeafKind.mem_all_iff.mpr h, rfl⟩))
    | value type h => exact Or.inl (Or.inr ⟨type, h, rfl⟩)
    | other h => exact Or.inr h
  · intro h
    rcases h with ((⟨kind, -, rfl⟩ | ⟨kind, hkind, rfl⟩) | ⟨type, htype, rfl⟩) | h
    · exact .container kind
    · exact .leaf kind (LeafKind.mem_all_iff.mp hkind)
    · exact .value type htype
    · exact .other h

theorem clashes_iff {name : String} : Clashes name ↔ name ∈ Names.keywords ++ foreignNames := by
  rw [Clashes, foreign_iff, List.mem_append, Names.isKeyword, List.contains_iff_mem]

instance (name : String) : Decidable (Clashes name) :=
  decidable_of_iff _ clashes_iff.symm

/-- A name with an ending that no taken name has is not taken. -/
theorem not_clashes_append (first : String) {last : String}
    (h : ∀ name ∈ Names.keywords ++ foreignNames, ¬ last.toList <:+ name.toList) :
    ¬ Clashes (first ++ last) := by
  intro hclash
  refine h _ (clashes_iff.mp hclash) ?_
  rw [String.toList_append]
  exact List.suffix_append _ _

/-- The words before the ending of a view type that a view of the framework has. -/
def foreignStems : List String :=
  ["Scroll", "Tab", "Progress", "Empty", "ContentUnavailable"]

/-- **A view type is taken exactly if the words before its ending are those of a view of the
framework.** -/
theorem clashes_view_iff (stem : String) : Clashes (stem ++ "View") ↔ stem ∈ foreignStems := by
  have hends : ∀ name ∈ Names.keywords ++ foreignNames, "View".toList <:+ name.toList →
      name ∈ foreignStems.map (· ++ "View") := by decide +kernel
  constructor
  · intro h
    have hsuffix : "View".toList <:+ (stem ++ "View").toList := by
      rw [String.toList_append]
      exact List.suffix_append _ _
    obtain ⟨other, hother, heq⟩ := List.mem_map.mp (hends _ (clashes_iff.mp h) hsuffix)
    have hlist := congrArg String.toList heq
    simp only [String.toList_append] at hlist
    rwa [← String.toList_inj.mp (List.append_cancel_right hlist)]
  · intro h
    have hall : ∀ stem ∈ foreignStems, Clashes (stem ++ "View") := by decide +kernel
    exact hall stem h

/-- **A type name made from words is taken exactly if it is the reserved word with a capital, or
means something else.** -/
theorem clashes_typeName_iff {raw name : String} (h : Names.typeName? raw = some name) :
    Clashes name ↔ name = "Self" ∨ Foreign name := by
  have hcapital : ∀ word ∈ Names.keywords, word = "Self" ∨
      word.toList.head?.any Char.isLower = true := by decide
  constructor
  · intro hclash
    rcases hclash with hkeyword | hforeign
    · rcases hcapital name (List.contains_iff_mem.mp hkeyword) with hself | hlower
      · exact Or.inl hself
      · obtain ⟨c, hhead, hupper⟩ := Names.isLower_head_typeName? h
        rw [hhead, Option.any_some, hupper] at hlower
        cases hlower
    · exact Or.inr hforeign
  · intro htaken
    rcases htaken with rfl | hforeign
    · exact Or.inl (by decide)
    · exact Or.inr hforeign

/-- Words can make any of these names: a data model that is called so has a type of that name. -/
theorem typeName?_of_foreign {name : String} (h : Foreign name) :
    Names.typeName? name = some name := by
  have hall : ∀ name ∈ foreignNames, Names.typeName? name = some name := by decide +kernel
  exact hall name (foreign_iff.mp h)

end Swift

open Swift

/-! ### The types of an app -/

/-- The words before the ending of a view type. -/
def Screen.stem (screen : Screen) : String :=
  ((Names.typeName? screen.name).orElse fun _ => Names.typeName? screen.id).getD "Screen"

/-- Whether the type of a screen's view is taken is said by its words. -/
theorem Screen.clashes_viewType_iff (screen : Screen) :
    Clashes screen.viewType ↔ screen.stem ∈ foreignStems :=
  clashes_view_iff screen.stem

theorem Names.not_clashes_appTypeName (appName : String) : ¬ Clashes (appTypeName appName) :=
  not_clashes_append _ (by decide +kernel)

namespace Generate.Run

variable {app : AppDefinition} {catalog : Catalog} {config : GeneratorConfig} {out : GeneratedApp}
  {types : List DataType} {trees : List NormalTree} {views : List ScreenView} {entry : AppEntry}

theorem clashes_emitted_iff (h : Run app catalog config out types trees views entry) :
    (∀ type ∈ emittedTypes types entry, ¬ Clashes type.name) ↔
      ∀ model ∈ app.emittedModels, ∀ name, Names.typeName? model.name = some name →
        name ≠ "Self" ∧ ¬ Foreign name := by
  have hnames := h.map_name_emittedTypes
  constructor
  · intro hfree model hmodel name hname
    have hmem := List.mem_map_of_mem (f := fun m => Names.typeName? m.name) hmodel
    rw [← hnames] at hmem
    obtain ⟨type, htype, heq⟩ := List.mem_map.mp hmem
    have hsame : type.name = name := Option.some.inj (heq.trans hname)
    have hclash := hfree type htype
    rwa [hsame, clashes_typeName_iff hname, not_or] at hclash
  · intro hfree type htype
    have hmem := List.mem_map_of_mem (f := fun t => some t.name) htype
    rw [hnames] at hmem
    obtain ⟨model, hmodel, hname⟩ := List.mem_map.mp hmem
    rw [clashes_typeName_iff hname, not_or]
    exact hfree model hmodel type.name hname

/-- **The types of an app clash with nothing exactly if its titles and models do not.** -/
theorem clashes_iff (h : Run app catalog config out types trees views entry) :
    (∀ name ∈ typeNames types views entry, ¬ Clashes name) ↔
      (∀ screen ∈ app.screens, screen.stem ∉ foreignStems) ∧
      ∀ model ∈ app.emittedModels, ∀ name, Names.typeName? model.name = some name →
        name ≠ "Self" ∧ ¬ Foreign name := by
  have happ : ∀ name ∈ entry.appType :: reservedTypes, ¬ Clashes name := by
    rw [List.forall_mem_cons, h.entry_eq.1]
    exact ⟨Names.not_clashes_appTypeName _, by decide +kernel⟩
  simp only [typeNames, List.forall_mem_append, h.map_viewType, List.forall_mem_map,
    Screen.clashes_viewType_iff, h.clashes_emitted_iff]
  exact ⟨fun hfree => hfree.1, fun hfree => ⟨hfree, happ⟩⟩

end Generate.Run

/-- **When the types of an app hide nothing that generated code refers to.**  In every generated
app, over any catalog, no type is named like a reserved word or like something that generated code
refers to without declaring it, exactly if no screen has the words of a view of the framework for
its title, and no data model that is emitted has a type that is called `Self` or named like such a
thing. -/
theorem types_hide_nothing_iff (app : AppDefinition) (catalog : Catalog)
    (config : GeneratorConfig) (out : GeneratedApp) (h : generate app catalog config = .ok out) :
    ∃ types trees views entry, Generate.Run app catalog config out types trees views entry ∧
      ((∀ name ∈ Generate.typeNames types views entry, ¬ Swift.Clashes name) ↔
        (∀ screen ∈ app.screens, screen.stem ∉ Swift.foreignStems) ∧
        ∀ model ∈ app.emittedModels, ∀ name, Names.typeName? model.name = some name →
          name ≠ "Self" ∧ ¬ Swift.Foreign name) := by
  obtain ⟨types, trees, views, entry, hrun⟩ := Generate.exists_run h
  exact ⟨types, trees, views, entry, hrun, hrun.clashes_iff⟩

/-- An app with a screen and a data model whose names are close to those of the framework. -/
def Generate.gauge : AppDefinition where
  config := ⟨"Notes", "com.example.notes", "1.0.0", .standard, .standard, true, false⟩
  screens := [⟨"home", "Scrolling", none, [], [], .node ⟨"t", "Text", [], [], []⟩ []⟩]
  models := [⟨"texts", [⟨"title", .string, none, true⟩], true⟩]
  entryScreen := "home"
  tabBar := none

/-- The gauge is generated, and its types hide nothing. -/
theorem types_of_gauge :
    ∃ out, generate Generate.gauge Catalog.standard .standard = .ok out ∧
      ∃ types trees views entry,
        Generate.Run Generate.gauge Catalog.standard .standard out types trees views entry ∧
        ((∀ name ∈ Generate.typeNames types views entry, ¬ Swift.Clashes name) ↔
          (∀ screen ∈ Generate.gauge.screens, screen.stem ∉ Swift.foreignStems) ∧
          ∀ model ∈ Generate.gauge.emittedModels, ∀ name,
            Names.typeName? model.name = some name → name ≠ "Self" ∧ ¬ Swift.Foreign name) := by
  have haccepts : Generate.accepts Generate.gauge .standard = true := by decide +kernel
  obtain ⟨out, hout⟩ := Generate.exists_generate_of_accepts haccepts
  exact ⟨out, hout, types_hide_nothing_iff Generate.gauge Catalog.standard .standard out hout⟩

/-! ### Types that hide something -/

/-- An app with a screen that scrolls and is called so, and with a data model that is kept and
whose type is a reserved word. -/
def scroll : AppDefinition where
  config := ⟨"Notes", "com.example.notes", "1.0.0", .standard, .standard, true, false⟩
  screens :=
    [⟨"home", "Scroll", none, [], [],
      .node ⟨"v", "ScrollView", [], [], []⟩ [.node ⟨"t", "Text", [], [], []⟩ []]⟩]
  models := [⟨"self", [⟨"title", .string, none, true⟩], true⟩]
  entryScreen := "home"
  tabBar := none

/-- **An accepted app that declares a view of the framework anew, and a type that is named like a
reserved word.** -/
theorem types_of_scroll :
    ∃ out, generate scroll Catalog.standard .standard = .ok out ∧
      ∃ types trees views entry,
        Generate.Run scroll Catalog.standard .standard out types trees views entry ∧
        (∃ name ∈ Generate.typeNames types views entry, Swift.Foreign name) ∧
        ∃ name ∈ Generate.typeNames types views entry, Names.isKeyword name = true := by
  have haccepts : Generate.accepts scroll .standard = true := by decide +kernel
  obtain ⟨out, hout⟩ := Generate.exists_generate_of_accepts haccepts
  obtain ⟨types, trees, views, entry, hrun⟩ := Generate.exists_run hout
  have hview : "ScrollView" ∈ views.map ScreenView.viewType := by
    rw [hrun.map_viewType]
    decide +kernel
  have htype : some "Self" ∈ (Generate.emittedTypes types entry).map fun t => some t.name := by
    rw [hrun.map_name_emittedTypes]
    decide +kernel
  obtain ⟨type, hmem, hname⟩ := List.mem_map.mp htype
  refine ⟨out, hout, types, trees, views, entry, hrun, ⟨"ScrollView", ?_, .container .scrollView⟩,
    type.name, ?_, ?_⟩
  · exact List.mem_append_left _ (List.mem_append_left _ hview)
  · exact List.mem_append_left _ (List.mem_append_right _ (List.mem_map_of_mem hmem))
  · rw [Option.some.inj hname]
    decide

end Screenwright
