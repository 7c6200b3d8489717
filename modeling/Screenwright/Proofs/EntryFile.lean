/-
The declarations of the entry file.

The entry file declares the app, its routes, the router, the root view and the structures of data,
in this order and nothing else, whatever texts the app holds.  So each of its functions is found in
it by its first line, and the structures of data in it are those of its value types.
-/
import Screenwright.Proofs.Declarations

namespace Screenwright.Swift

/-! ### First lines -/

/-- The first line of the routes. -/
def routeHead : String := "enum Route: Hashable \x7b"

/-- The first line of the initializer of a route from a link. -/
def linkHead : String := "init?(url: URL) \x7b"

/-- The first line of the router. -/
def routerHead : String := "final class Router: ObservableObject \x7b"

/-- The first line of the function that goes where a link leads. -/
def openHead : String := "func open(_ url: URL) \x7b"

/-- The first line of the root view. -/
def rootHead : String := "struct RootView: View \x7b"

/-- The first line of the function that makes the view of a route. -/
def routeViewHead : String := "private func routeView(for route: Route) -> some View \x7b"

/-- The line that opens the structure of a data type. -/
def recordLine (name : String) : Line :=
  ⟨0, "struct " ++ name ++ ": Hashable, Codable \x7b"⟩

/-- What begins with a word of declarations and ends with a brace is one, whatever its name is. -/
theorem opensDeclaration_word {word : String} (hword : word ∈ declaring) (name : String)
    {last : String} (h : last.toList.getLast? = some '\x7b') :
    opensDeclaration (word ++ name ++ last) = true := by
  have hends : (word ++ name ++ last).toList.getLast? = some '\x7b' := by
    rw [String.toList_append, List.getLast?_append, h]
    rfl
  rw [opensDeclaration, hends, Bool.and_eq_true, List.any_eq_true]
  refine ⟨⟨word, hword, ?_⟩, by simp⟩
  rw [String.append_assoc]
  exact Text.startsWith_append word _

namespace AppEntry

variable (entry : AppEntry)

/-! ### What the file is made of -/

/-- The declaration of the app. -/
def appDeclaration : String × List String :=
  ("struct " ++ entry.appType ++ ": App \x7b", (entry.appLines.drop 2).map Line.text ++ [""])

/-- The lines behind the first one of the initializer of a route from a link. -/
def linkBody : List String :=
  ["let components = [url.host].compactMap \x7b $0 \x7d + " ++
      "url.pathComponents.filter \x7b $0 != \"/\" \x7d",
    "switch \"/\" + components.joined(separator: \"/\") \x7b"] ++
  (entry.routes.flatMap fun route => route.deepLink.toList.flatMap fun link =>
    ["case " ++ stringLiteral link ++ ":", "self = ." ++ route.name]) ++
  ["default:", "return nil", "\x7d", "\x7d", "\x7d", ""]

/-- The lines behind the first one of the routes. -/
def routeBody : List String :=
  entry.routes.map (fun route => "case " ++ route.name) ++
  if entry.hasDeepLinks then [""] else ["\x7d", ""]

/-- The declarations of the routes. -/
def routeDeclarations : List (String × List String) :=
  (routeHead, entry.routeBody) :: if entry.hasDeepLinks then [(linkHead, entry.linkBody)] else []

/-- The lines behind the first one of the router. -/
def routerBody : List String :=
  "@Published var path = NavigationPath()" ::
  (entry.tabs.head?.toList.flatMap fun initial =>
    ["@Published var selectedTab: Route = ." ++ initial ++ " \x7b", "didSet \x7b popToRoot() \x7d",
      "\x7d"]) ++ [""]

/-- The lines behind the first one of the function that goes where a link leads. -/
def openBody : List String :=
  ["guard let route = Route(url: url) else \x7b return \x7d", "popToRoot()"] ++
  (if entry.tabs.isEmpty then
    ["if route != ." ++ entry.rootCase ++ " \x7b", "navigate(to: route)", "\x7d"]
  else
    ["if [" ++ Text.join ", " (entry.tabs.map ("Route." ++ ·)) ++ "].contains(route) \x7b",
      "selectedTab = route", "\x7d else \x7b", "navigate(to: route)", "\x7d"]) ++
  ["\x7d", "\x7d", ""]

/-- The declarations of the router. -/
def routerDeclarations : List (String × List String) :=
  [(routerHead, entry.routerBody),
    ("func navigate(to route: Route) \x7b", ["path.append(route)", "\x7d", ""]),
    ("func goBack() \x7b", ["if !path.isEmpty \x7b", "path.removeLast()", "\x7d", "\x7d", ""])] ++
  if entry.hasDeepLinks then
    [("func popToRoot() \x7b", ["path = NavigationPath()", "\x7d", ""]), (openHead, entry.openBody)]
  else [("func popToRoot() \x7b", ["path = NavigationPath()", "\x7d", "\x7d", ""])]

/-- The lines behind the first one of the root view. -/
def rootBody : List String :=
  ["@EnvironmentObject private var router: Router", "", "var body: some View \x7b"] ++
  (entry.root.lines 2).map Line.text ++ ["\x7d", "", "@ViewBuilder"]

/-- The lines behind the first one of the function that makes the view of a route. -/
def routeViewBody : List String :=
  "switch route \x7b" ::
  (entry.routes.flatMap fun route => ["case ." ++ route.name ++ ":", route.viewType ++ "()"]) ++
  ["\x7d", "\x7d", "\x7d", ""]

/-- The declarations of the root view. -/
def rootDeclarations : List (String × List String) :=
  [(rootHead, entry.rootBody), (routeViewHead, entry.routeViewBody)]

end AppEntry

/-- The declaration of a data type that is not kept. -/
def DataType.declaration (type : DataType) : String × List String :=
  ((recordLine type.name).text, type.properties.map (fun p => "var " ++ p.text) ++ ["\x7d", ""])

/-- The declarations of the entry file. -/
def AppEntry.declared (entry : AppEntry) : List (String × List String) :=
  entry.appDeclaration :: entry.routeDeclarations ++ entry.routerDeclarations ++
    entry.rootDeclarations ++ entry.valueTypes.map DataType.declaration

/-! ### The lines of the file -/

/-- The lines of data types that are not kept, with an empty one behind each. -/
theorem written_valueTypes {types : List DataType} (h : ∀ type ∈ types, type.persisted = false) :
    "" :: written (types.map DataType.declaration) =
      (types.flatMap fun type => .blank :: type.typeLines).map Line.text ++ [""] := by
  induction types with
  | nil => rfl
  | cons type types ih =>
      rw [List.forall_mem_cons] at h
      have hlines : type.typeLines.map Line.text ++ [""] =
          type.declaration.1 :: type.declaration.2 := by
        simp [DataType.typeLines, DataType.declaration, h.1, recordLine, Function.comp_def]
      rw [List.flatMap_cons, List.map_append, List.append_assoc, ← ih h.2, List.map_cons, written,
        List.flatMap_cons, ← hlines]
      simp [Line.blank, written]

namespace AppEntry

variable (entry : AppEntry)

theorem written_app :
    "@main" :: written [entry.appDeclaration] = entry.appLines.map Line.text ++ [""] := by
  simp [appDeclaration, written, appLines]

theorem texts_linkLines (route : Route) :
    route.linkLines.map Line.text = route.deepLink.toList.flatMap fun link =>
      ["case " ++ stringLiteral link ++ ":", "self = ." ++ route.name] := by
  unfold Route.linkLines
  cases route.deepLink <;> rfl

theorem texts_selectionLines :
    entry.selectionLines.map Line.text = entry.tabs.head?.toList.flatMap fun initial =>
      ["@Published var selectedTab: Route = ." ++ initial ++ " \x7b",
        "didSet \x7b popToRoot() \x7d", "\x7d"] := by
  unfold selectionLines
  cases entry.tabs <;> rfl

theorem written_routes :
    written entry.routeDeclarations = entry.routeLines.map Line.text ++ [""] := by
  by_cases h : entry.hasDeepLinks = true
  · simp [routeDeclarations, routeBody, linkBody, written, routeLines, h, routeHead, linkHead,
      Line.blank, List.map_flatMap, texts_linkLines, Function.comp_def]
  · simp [routeDeclarations, routeBody, written, routeLines, h, routeHead, Function.comp_def]

theorem written_router :
    written entry.routerDeclarations = entry.routerLines.map Line.text ++ [""] := by
  by_cases h : entry.hasDeepLinks = true
  · by_cases htabs : entry.tabs.isEmpty = true
    · simp [routerDeclarations, routerBody, openBody, written, routerLines, openLines, h, htabs,
        routerHead, openHead, Line.blank, texts_selectionLines]
    · simp [routerDeclarations, routerBody, openBody, written, routerLines, openLines, h, htabs,
        routerHead, openHead, Line.blank, texts_selectionLines]
  · simp [routerDeclarations, routerBody, written, routerLines, openLines, h, routerHead,
      Line.blank, texts_selectionLines]

theorem written_root :
    written entry.rootDeclarations = entry.rootLines.map Line.text ++ [""] := by
  simp [rootDeclarations, rootBody, routeViewBody, written, rootLines, rootHead, routeViewHead,
    Line.blank, List.map_flatMap, Route.viewLines]

/-! ### The declarations of the file -/

theorem isDeclaration_app : IsDeclaration entry.appDeclaration := by
  have hcontainer : OpensNone ((containerLines entry.store).map Line.text) := by
    unfold containerLines
    split
    · simp only [List.map_cons, List.map_nil, String.append_assoc]
      simp +decide [opensDeclaration_append]
    · exact .nil
  have hstore : OpensNone ((storeLines entry.store).map Line.text) := by
    unfold storeLines
    split
    · exact .nil
    · simp only [List.map_cons, List.map_nil, String.append_assoc]
      simp +decide [opensDeclaration_append]
    · simp +decide
  have hscene : OpensNone (entry.sceneModifiers.map fun m =>
      "." ++ m.name ++ "(" ++ argsText m.args ++ ")") :=
    .map fun m _ => opensDeclaration_call _
  refine ⟨opensDeclaration_word List.mem_cons_self entry.appType (by decide), ?_⟩
  simp +decide [appDeclaration, appLines, Function.comp_def, hcontainer, hstore, hscene]

theorem isDeclaration_routes : ∀ d ∈ entry.routeDeclarations, IsDeclaration d := by
  have hcases : OpensNone entry.routeBody := by
    rw [routeBody, OpensNone.append_iff]
    refine ⟨.map fun route _ => opensDeclaration_append (by decide) _, ?_⟩
    split <;> simp +decide
  have hlinks : OpensNone entry.linkBody := by
    have hall : OpensNone (entry.routes.flatMap fun route => route.deepLink.toList.flatMap
        fun link => ["case " ++ stringLiteral link ++ ":", "self = ." ++ route.name]) := by
      refine .flatMap fun route _ => .flatMap fun link _ => ?_
      rw [String.append_assoc, OpensNone.cons_iff, OpensNone.cons_iff]
      exact ⟨opensDeclaration_append (by decide) _, opensDeclaration_append (by decide) _, .nil⟩
    simp +decide [linkBody, hall]
  unfold routeDeclarations
  split
  · simp +decide [IsDeclaration, hcases, hlinks]
  · simp +decide [IsDeclaration, hcases]

theorem isDeclaration_router : ∀ d ∈ entry.routerDeclarations, IsDeclaration d := by
  have hrouter : OpensNone entry.routerBody := by
    have htab : ∀ initial, opensDeclaration
        ("@Published var selectedTab: Route = ." ++ initial ++ " \x7b") = false := by
      intro initial
      rw [String.append_assoc]
      exact opensDeclaration_append (by decide) _
    have hall : OpensNone (entry.tabs.head?.toList.flatMap fun initial =>
        ["@Published var selectedTab: Route = ." ++ initial ++ " \x7b",
          "didSet \x7b popToRoot() \x7d", "\x7d"]) := by
      refine .flatMap fun initial _ => ?_
      simp +decide [htab]
    simp +decide [routerBody, hall]
  have hopen : OpensNone entry.openBody := by
    have hroot : opensDeclaration ("if route != ." ++ entry.rootCase ++ " \x7b") = false := by
      rw [String.append_assoc]
      exact opensDeclaration_append (by decide) _
    have htabs : opensDeclaration ("if [" ++ Text.join ", " (entry.tabs.map ("Route." ++ ·)) ++
        "].contains(route) \x7b") = false := by
      rw [String.append_assoc]
      exact opensDeclaration_append (by decide) _
    unfold openBody
    split
    · simp +decide [hroot]
    · simp +decide [htabs]
  unfold routerDeclarations
  split
  · simp +decide [IsDeclaration, hrouter, hopen]
  · simp +decide [IsDeclaration, hrouter]

theorem isDeclaration_root : ∀ d ∈ entry.rootDeclarations, IsDeclaration d := by
  have hviews : OpensNone (entry.routes.flatMap fun route =>
      ["case ." ++ route.name ++ ":", route.viewType ++ "()"]) := by
    refine .flatMap fun route _ => ?_
    have hcall : opensDeclaration (route.viewType ++ "()") = false := by
      simp [opensDeclaration]
    have hcase : opensDeclaration ("case ." ++ route.name ++ ":") = false := by
      rw [String.append_assoc]
      exact opensDeclaration_append (by decide) _
    simp [hcall, hcase]
  simp +decide [rootDeclarations, rootBody, routeViewBody, IsDeclaration, entry.root.opensNone 2,
    hviews]

end AppEntry

theorem DataType.isDeclaration (type : DataType) : IsDeclaration type.declaration := by
  have hproperties : OpensNone (type.properties.map fun p => "var " ++ p.text) :=
    .map fun p _ => opensDeclaration_append (by decide) _
  refine ⟨opensDeclaration_word List.mem_cons_self type.name (by decide), ?_⟩
  simp +decide [declaration, hproperties]

namespace AppEntry

variable {entry : AppEntry}

/-- The lines in front of the declaration of the app. -/
def preface (entry : AppEntry) : List String :=
  "import SwiftUI" :: (if entry.store = .none then [] else ["import SwiftData"]) ++ ["", "@main"]

/-- The entry file is its preface and its declarations. -/
theorem lines_eq_written (h : ∀ type ∈ entry.valueTypes, type.persisted = false) :
    entry.lines.map Line.text ++ [""] = entry.preface ++ written entry.declared := by
  have himports : ((if entry.store = .none then [] else [⟨0, "import SwiftData"⟩] : List Line).map
      Line.text) = if entry.store = .none then [] else ["import SwiftData"] := by
    split <;> rfl
  have happ := entry.written_app
  have hroot := entry.written_root
  have hvalues := written_valueTypes h
  calc entry.lines.map Line.text ++ [""]
      = "import SwiftUI" :: (if entry.store = .none then [] else ["import SwiftData"]) ++ [""] ++
          (entry.appLines.map Line.text ++ [""]) ++ (entry.routeLines.map Line.text ++ [""]) ++
          (entry.routerLines.map Line.text ++ [""]) ++ (entry.rootLines.map Line.text ++
            ((entry.valueTypes.flatMap fun type => .blank :: type.typeLines).map Line.text ++
              [""])) := by
        simp [lines, Line.blank, himports]
    _ = "import SwiftUI" :: (if entry.store = .none then [] else ["import SwiftData"]) ++ [""] ++
          ("@main" :: written [entry.appDeclaration]) ++ written entry.routeDeclarations ++
          written entry.routerDeclarations ++ (entry.rootLines.map Line.text ++
            "" :: written (entry.valueTypes.map DataType.declaration)) := by
        rw [happ, entry.written_routes, entry.written_router, ← hvalues]
    _ = entry.preface ++ written entry.declared := by
        rw [List.append_cons (entry.rootLines.map Line.text), ← hroot]
        simp [preface, declared, written]

/-- **What the entry file declares.** -/
theorem declarations_lines (h : ∀ type ∈ entry.valueTypes, type.persisted = false) :
    declarations (entry.lines.map Line.text ++ [""]) = entry.declared := by
  have hpreface : OpensNone entry.preface := by
    unfold preface
    split <;> simp +decide
  have hall : ∀ d ∈ entry.declared, IsDeclaration d := by
    simp only [declared, List.cons_append, List.forall_mem_cons, List.forall_mem_append,
      List.forall_mem_map]
    exact ⟨entry.isDeclaration_app, ⟨⟨entry.isDeclaration_routes, entry.isDeclaration_router⟩,
      entry.isDeclaration_root⟩, fun type _ => type.isDeclaration⟩
  rw [lines_eq_written h, declarations_append hpreface, declarations_written hall]

/-! ### Functions of the file -/

theorem lookup_declared {head : String} (h : ¬ ": App \x7b".toList <:+ head.toList) :
    entry.declared.lookup head =
      (entry.routeDeclarations ++ entry.routerDeclarations ++ entry.rootDeclarations ++
        entry.valueTypes.map DataType.declaration).lookup head := by
  have hne : (head == entry.appDeclaration.1) = false := by
    refine beq_false_of_ne ?_
    rintro rfl
    rw [appDeclaration, String.toList_append] at h
    exact h (List.suffix_append _ _)
  rw [declared, List.cons_append, List.cons_append, List.cons_append, List.lookup_cons, hne]

theorem lookup_route : entry.declared.lookup routeHead = some entry.routeBody := by
  rw [lookup_declared (by decide)]
  simp [routeDeclarations]

theorem lookup_link (h : entry.hasDeepLinks = true) :
    entry.declared.lookup linkHead = some entry.linkBody := by
  rw [lookup_declared (by decide)]
  simp [routeDeclarations, h, List.lookup_cons, routeHead, linkHead]

theorem lookup_router : entry.declared.lookup routerHead = some entry.routerBody := by
  rw [lookup_declared (by decide)]
  cases h : entry.hasDeepLinks <;>
    simp [routeDeclarations, routerDeclarations, h, List.lookup_cons, routeHead, linkHead,
      routerHead]

theorem lookup_open (h : entry.hasDeepLinks = true) :
    entry.declared.lookup openHead = some entry.openBody := by
  rw [lookup_declared (by decide)]
  simp [routeDeclarations, routerDeclarations, h, List.lookup_cons, routeHead, linkHead, routerHead,
    openHead]

theorem lookup_root : entry.declared.lookup rootHead = some entry.rootBody := by
  rw [lookup_declared (by decide)]
  cases h : entry.hasDeepLinks <;>
    simp [routeDeclarations, routerDeclarations, rootDeclarations, h, List.lookup_cons, routeHead,
      linkHead, routerHead, openHead, rootHead]

theorem lookup_routeView : entry.declared.lookup routeViewHead = some entry.routeViewBody := by
  rw [lookup_declared (by decide)]
  cases h : entry.hasDeepLinks <;>
    simp [routeDeclarations, routerDeclarations, rootDeclarations, h, List.lookup_cons, routeHead,
      linkHead, routerHead, openHead, rootHead, routeViewHead]

end AppEntry

/-! ### The structures of data -/

/-- Whether a line opens the structure of a data type, wherever it stands. -/
def isRecord (line : String) : Bool :=
  "struct ".toList <+: line.toList ∧ ": Hashable, Codable \x7b".toList <:+ line.toList

/-- Whether a line opens the structure of a data type. -/
def Line.isRecord (line : Line) : Bool :=
  line.depth = 0 ∧ "struct ".toList <+: line.text.toList ∧
    ": Hashable, Codable \x7b".toList <:+ line.text.toList

theorem isRecord_recordLine (name : String) : isRecord (recordLine name).text = true := by
  rw [isRecord, decide_eq_true_eq, recordLine, String.toList_append, String.toList_append,
    List.append_assoc]
  exact ⟨List.prefix_append _ _, List.suffix_append_of_suffix (List.suffix_append _ _)⟩

/-- The structure of a data type is a declaration. -/
theorem opensDeclaration_of_isRecord {line : String} (h : isRecord line = true) :
    opensDeclaration line = true := by
  rw [isRecord, decide_eq_true_eq] at h
  obtain ⟨hstart, before, hends⟩ := h
  rw [opensDeclaration, Bool.and_eq_true, List.any_eq_true]
  refine ⟨⟨"struct ", List.mem_cons_self, List.isPrefixOf_iff_prefix.mpr hstart⟩, ?_⟩
  rw [← hends, decide_eq_true_eq, List.getLast?_append]
  rfl

namespace AppEntry

variable {entry : AppEntry}

/-- Nothing but the data types is declared as a structure of data. -/
theorem isRecord_declared : ∀ d ∈ entry.appDeclaration :: entry.routeDeclarations ++
    entry.routerDeclarations ++ entry.rootDeclarations, isRecord d.1 = false := by
  have happ : isRecord entry.appDeclaration.1 = false := by
    rw [isRecord, decide_eq_false_iff_not]
    rintro ⟨-, hends⟩
    rw [appDeclaration, String.toList_append] at hends
    have hshort : ": App \x7b".toList <:+ ": Hashable, Codable \x7b".toList :=
      List.suffix_of_suffix_length_le (List.suffix_append _ _) hends (by decide)
    exact absurd hshort (by decide)
  simp only [List.cons_append, List.forall_mem_cons, List.forall_mem_append]
  refine ⟨happ, ⟨?_, ?_⟩, ?_⟩
  · unfold routeDeclarations
    split <;> simp +decide
  · unfold routerDeclarations
    split <;> simp +decide
  · simp +decide [rootDeclarations]

/-- **The structures of data that the entry file declares are its value types.** -/
theorem filter_isRecord_declared :
    entry.declared.filter (fun d => isRecord d.1) = entry.valueTypes.map DataType.declaration := by
  have hothers : (entry.appDeclaration :: entry.routeDeclarations ++ entry.routerDeclarations ++
      entry.rootDeclarations).filter (fun d => isRecord d.1) = [] :=
    List.filter_eq_nil_iff.mpr fun d hd => by simp [isRecord_declared d hd]
  have htypes : (entry.valueTypes.map DataType.declaration).filter (fun d => isRecord d.1) =
      entry.valueTypes.map DataType.declaration :=
    List.filter_eq_self.mpr (List.forall_mem_map.mpr fun type _ => isRecord_recordLine type.name)
  rw [declared, List.filter_append, hothers, htypes, List.nil_append]

/-- Without value types no line opens a structure of data. -/
theorem isRecord_lines (h : entry.valueTypes = []) :
    ∀ line ∈ entry.lines, line.isRecord = false := by
  intro line hline
  refine Bool.eq_false_iff.mpr fun hrecord => ?_
  rw [Line.isRecord, decide_eq_true_eq] at hrecord
  have htext : isRecord line.text = true := decide_eq_true hrecord.2
  have hmem : line.text ∈ (declarations (entry.lines.map Line.text ++ [""])).map Prod.fst := by
    rw [map_fst_declarations, List.mem_filter, List.mem_append]
    exact ⟨Or.inl (List.mem_map_of_mem hline), opensDeclaration_of_isRecord htext⟩
  rw [declarations_lines (by simp [h]), declared, h, List.map_nil, List.append_nil] at hmem
  obtain ⟨d, hd, heq⟩ := List.mem_map.mp hmem
  have hfree := isRecord_declared d hd
  rw [heq, htext] at hfree
  cases hfree

/-- The lines of value types open one structure of data each. -/
theorem filter_isRecord_valueTypes {types : List DataType}
    (h : ∀ type ∈ types, type.persisted = false) :
    (types.flatMap fun type => .blank :: type.typeLines).filter Line.isRecord =
      types.map fun type => recordLine type.name := by
  induction types with
  | nil => rfl
  | cons type types ih =>
      rw [List.forall_mem_cons] at h
      have hhead : (recordLine type.name).isRecord = true := by
        rw [Line.isRecord, decide_eq_true_eq]
        exact ⟨rfl, of_decide_eq_true (isRecord_recordLine type.name)⟩
      have hproperties : (type.properties.map fun p => Line.mk 1 ("var " ++ p.text)).filter
          Line.isRecord = [] :=
        List.filter_eq_nil_iff.mpr (List.forall_mem_map.mpr fun p _ => by simp [Line.isRecord])
      have hlines : Line.blank :: type.typeLines = [Line.blank] ++ [recordLine type.name] ++
          type.properties.map (fun p => Line.mk 1 ("var " ++ p.text)) ++ [⟨0, "\x7d"⟩] := by
        simp [DataType.typeLines, h.1, recordLine]
      rw [List.flatMap_cons, List.filter_append, ih h.2, hlines]
      simp only [List.filter_append, hproperties, List.filter_cons_of_pos hhead]
      rfl

/-- **The lines of the entry file that open a structure of data are those of its value types.** -/
theorem filter_isRecord_lines (h : ∀ type ∈ entry.valueTypes, type.persisted = false) :
    entry.lines.filter Line.isRecord = entry.valueTypes.map fun type => recordLine type.name := by
  have hlines : entry.lines = { entry with valueTypes := [] }.lines ++
      entry.valueTypes.flatMap fun type => .blank :: type.typeLines := by
    rw [lines, lines, List.flatMap_nil, List.append_nil]
    rfl
  have hfront : { entry with valueTypes := [] }.lines.filter Line.isRecord = [] :=
    List.filter_eq_nil_iff.mpr fun line hline => by simp [isRecord_lines rfl line hline]
  rw [hlines, List.filter_append, hfront, List.nil_append, filter_isRecord_valueTypes h]

end AppEntry

/-! ### The store -/

/-- How the line begins that gives the types to a store. -/
def storing : List String := [".modelContainer(for: [", "let schema = Schema(["]

/-- Whether a line gives the types to a store. -/
def isStoring (line : String) : Bool := storing.any (Text.startsWith · line)

/-- The line that gives the types to a store. -/
def Store.typeTexts : Store → List String
  | .none => []
  | .local types => [".modelContainer(for: [" ++ typeList types ++ "])"]
  | .cloud types => ["let schema = Schema([" ++ typeList types ++ "])"]

namespace AppEntry

variable {entry : AppEntry}

theorem lookup_app :
    entry.declared.lookup entry.appDeclaration.1 = some entry.appDeclaration.2 := by
  rw [declared, List.cons_append, List.cons_append, List.cons_append, List.lookup_cons_self]

/-- **The declaration of the app gives the types to its store, in one line.** -/
theorem filter_isStoring_app (h : ∀ m ∈ entry.sceneModifiers,
    isStoring ("." ++ m.name ++ "(" ++ argsText m.args ++ ")") = false) :
    entry.appDeclaration.2.filter isStoring = entry.store.typeTexts := by
  have hscene : (entry.sceneModifiers.map fun m =>
      "." ++ m.name ++ "(" ++ argsText m.args ++ ")").filter isStoring = [] :=
    List.filter_eq_nil_iff.mpr (List.forall_mem_map.mpr fun m hm => by simp [h m hm])
  have hstart : ∀ word ∈ storing, ∀ rest, isStoring (word ++ rest) = true := fun word hword rest =>
    List.any_eq_true.mpr ⟨word, hword, Text.startsWith_append word rest⟩
  have hcontainer : ((containerLines entry.store).map Line.text ++
      (storeLines entry.store).map Line.text).filter isStoring = entry.store.typeTexts := by
    cases entry.store with
    | none => rfl
    | «local» types =>
        have hline := hstart _ List.mem_cons_self (typeList types ++ "])")
        rw [← String.append_assoc] at hline
        exact List.filter_cons_of_pos hline
    | cloud types =>
        have hline := hstart _ (List.mem_cons_of_mem _ List.mem_cons_self) (typeList types ++ "])")
        rw [← String.append_assoc] at hline
        simp +decide [containerLines, storeLines, hline, Store.typeTexts]
  rw [List.filter_append] at hcontainer
  simp +decide [appDeclaration, appLines, Function.comp_def, hscene, ← hcontainer]

end AppEntry

end Screenwright.Swift
