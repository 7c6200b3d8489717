/-
Source files leave no bracket open.

A file is a list of lines with fixed text and a few places for names, types, values and
views.  Fixed lines are read through once; what stands in the places has to be tame, which
for every sort of file is one structure.
-/
import Mathlib.Tactic.Common
import Screenwright.Proofs.Lexical.Views
import Screenwright.Swift.Files

namespace Screenwright.Swift

/-! ### Fixed lines -/

/-- Reads lines from code to code, with some brackets open. -/
def readLines (awaited : List Char) : List Line → Option (List Char)
  | [] => some awaited
  | line :: rest =>
    match Reader.readOn ⟨.code, awaited⟩ line.text.toList with
    | some ⟨.code, after⟩ => readLines after rest
    | _ => none

theorem linesMove_of_read {lines : List Line} :
    ∀ {a b : List Char}, readLines a lines = some b → LinesMove a b lines := by
  induction lines with
  | nil =>
      rintro a _ ⟨⟩
      exact .nil a
  | cons line rest ih =>
      intro a b h
      unfold readLines at h
      split at h
      next after hline => exact .cons (moves_of_readOn hline) (ih h)
      · cases h

/-! ### Screens -/

/-- A view of a screen of which everything can stand in code. -/
structure ScreenView.Tame (screen : ScreenView) : Prop where
  viewType : Plain screen.viewType
  members : ∀ m ∈ screen.members, Inert m.text
  body : screen.body.Tame
  handlers : ∀ h ∈ screen.handlers, Plain h.name ∧ ∀ p ∈ h.params, Plain p.1 ∧ Plain p.2

theorem linesInert_handler {handler : Handler} (hname : Plain handler.name)
    (hparams : ∀ p ∈ handler.params, Plain p.1 ∧ Plain p.2) : LinesInert handler.lines := by
  have hopen : Moves [] [')'] "(" := moves_of_read rfl
  have hclose : Moves [')'] ['\x7d'] ") \x7b" := moves_of_read rfl
  have htexts : Plain (Text.join ", " (handler.params.map fun p => p.1 ++ ": " ++ p.2)) := by
    refine plain_join (plain_of_all rfl) fun t ht => ?_
    obtain ⟨p, hp, rfl⟩ := List.mem_map.mp ht
    exact ((hparams p hp).1.append (plain_of_all rfl)).append (hparams p hp).2
  have hfunc : Plain ("private func " ++ handler.name) := Plain.append (plain_of_all rfl) hname
  have hhead := (hopen.after hfunc.inert).before htexts.inert
  have hcomment : Plain ("// Implement \x60" ++ handler.name ++ "\x60.") :=
    (Plain.append (plain_of_all rfl) hname).append (plain_of_all rfl)
  exact .cons (hhead.append hclose) (.cons (hcomment.inert.moves _) closes_block)

theorem linesInert_preview {screen : ScreenView} (hviewType : Plain screen.viewType) :
    LinesInert (previewLines screen) := by
  have hcall : Inert (screen.viewType ++ "()") :=
    hviewType.inert.append (moves_of_read rfl)
  refine LinesMove.append (LinesMove.append (b := ['\x7d']) ?_ ?_) closes_block
  · exact .cons (moves_of_read rfl) (.one (hcall.moves _))
  · split
    · exact .one (moves_of_read rfl)
    · exact .nil _

theorem linesInert_members {members : List Member} (h : ∀ m ∈ members, Inert m.text) :
    LinesInert (memberLines members) :=
  (linesInert_map h).append (linesInert_ite (fun _ => linesInert_nil) fun _ => linesInert_blank)

/-- **The file of a tame screen leaves the brackets as they are.** -/
theorem ScreenView.Tame.linesInert {screen : ScreenView} (h : screen.Tame) (preview : Bool) :
    LinesInert (screen.lines preview) := by
  have hstruct : Moves [] ['\x7d'] ("struct " ++ screen.viewType ++ ": View \x7b") := by
    have hopen : Moves [] ['\x7d'] ": View \x7b" := moves_of_read rfl
    exact hopen.after (Plain.append (plain_of_all rfl) h.viewType).inert
  have hhead : LinesMove [] ['\x7d'] [⟨0, "import SwiftUI"⟩, .blank,
      ⟨0, "struct " ++ screen.viewType ++ ": View \x7b"⟩] :=
    .cons (moves_of_read rfl) (.cons inert_empty (.one hstruct))
  have hbody : LinesMove ['\x7d'] ['\x7d', '\x7d'] [⟨1, "var body: some View \x7b"⟩] :=
    linesMove_of_read rfl
  have hclose : LinesMove ['\x7d', '\x7d'] ['\x7d'] [⟨1, "\x7d"⟩] :=
    linesMove_of_read rfl
  have hhandlers : LinesInert (screen.handlers.flatMap fun h => .blank :: h.lines) :=
    linesInert_flatMap fun handler hmem =>
      linesInert_blank.append (linesInert_handler (h.handlers handler hmem).1
        (h.handlers handler hmem).2)
  have hview : LinesInert screen.viewLines := by
    have hopened := ((hhead.before (linesInert_members h.members)).append hbody).before (h.body 2)
    exact ((hopened.append hclose).before hhandlers).append closes_block
  refine hview.append (linesInert_ite (fun _ => ?_) fun _ => linesInert_nil)
  exact linesInert_blank.append (linesInert_preview h.viewType)

/-! ### Data types -/

/-- A property of a data type of which everything can stand in code. -/
structure StoredProperty.Tame (p : StoredProperty) : Prop where
  name : Plain p.name
  type : Inert p.type
  default : p.default.Tame

/-- A data type of which everything can stand in code. -/
structure DataType.Tame (type : DataType) : Prop where
  name : Plain type.name
  properties : ∀ p ∈ type.properties, p.Tame

theorem StoredProperty.Tame.inert_text {p : StoredProperty} (h : p.Tame) : Inert p.text := by
  have hcolon : Inert (p.name ++ ": ") := (h.name.append (plain_of_all rfl)).inert
  exact ((hcolon.append h.type).append (moves_of_read rfl)).append h.default

theorem plain_withoutBackticks {name : String} (h : Plain name) :
    Plain (withoutBackticks name) := by
  intro c hc
  unfold withoutBackticks Text.dropEndWhile at hc
  rw [String.toList_ofList, List.mem_reverse] at hc
  have hmem := List.mem_reverse.mp ((List.dropWhile_sublist _).mem hc)
  exact h c ((List.dropWhile_sublist _).mem hmem)

theorem linesInert_initializer {properties : List StoredProperty} (h : ∀ p ∈ properties, p.Tame) :
    LinesInert (initializerLines properties) := by
  have hopen : Moves [] [')'] "init(" := moves_of_read rfl
  have hclose : Moves [')'] ['\x7d'] ") \x7b" := moves_of_read rfl
  have htexts : Inert (Text.join ", " (properties.map StoredProperty.text)) := by
    refine inert_join (moves_of_read rfl) fun t ht => ?_
    obtain ⟨p, hp, rfl⟩ := List.mem_map.mp ht
    exact (h p hp).inert_text
  unfold initializerLines
  refine linesInert_ite (fun _ => linesMove_of_read rfl) fun _ => ?_
  refine LinesMove.append (.cons inert_empty (.cons ((hopen.before htexts).append hclose) ?_))
    closes_block
  refine (linesInert_map fun p hp => ?_).moves _
  have hname := (h p hp).name
  exact (((Plain.append (plain_of_all rfl) (plain_withoutBackticks hname)).append
    (plain_of_all rfl)).append hname).inert

theorem DataType.Tame.linesInert_type {type : DataType} (h : type.Tame) :
    LinesInert type.typeLines := by
  have hhead : LinesMove [] ['\x7d'] (if type.persisted then
      [⟨0, "@Model"⟩, ⟨0, "final class " ++ type.name ++ " \x7b"⟩]
      else [⟨0, "struct " ++ type.name ++ ": Hashable, Codable \x7b"⟩]) := by
    split
    · refine .cons (moves_of_read rfl) (.one (opens_block.after ?_))
      exact (Plain.append (plain_of_all rfl) h.name).inert
    · have hopen : Moves [] ['\x7d'] ": Hashable, Codable \x7b" := moves_of_read rfl
      exact .one (hopen.after (Plain.append (plain_of_all rfl) h.name).inert)
  have hproperties : LinesInert (type.properties.map fun p =>
      ⟨1, (if type.persisted && p.transient then "@Transient " else "") ++ "var " ++ p.text⟩) := by
    refine linesInert_map fun p hp => Inert.append (Plain.inert (.append ?_ ?_))
      (h.properties p hp).inert_text
    · split <;> exact plain_of_all rfl
    · exact plain_of_all rfl
  have hinit : LinesInert (if type.persisted then initializerLines type.properties else []) :=
    linesInert_ite (fun _ => linesInert_initializer h.properties) fun _ => linesInert_nil
  exact ((hhead.before hproperties).before hinit).append closes_block

/-- **The file of a tame data type leaves the brackets as they are.** -/
theorem DataType.Tame.linesInert {type : DataType} (h : type.Tame) : LinesInert type.lines := by
  refine LinesInert.append (linesMove_of_read rfl) h.linesInert_type

/-! ### The entry of an app -/

/-- An entry of an app of which everything can stand in code. -/
structure AppEntry.Tame (entry : AppEntry) : Prop where
  appType : Plain entry.appType
  routes : ∀ r ∈ entry.routes, Plain r.name ∧ Plain r.viewType
  root : entry.root.Tame
  rootCase : Plain entry.rootCase
  tabs : ∀ t ∈ entry.tabs, Plain t
  sceneModifiers : ∀ m ∈ entry.sceneModifiers, Plain m.name ∧ ∀ arg ∈ m.args, TameArg arg
  /-- The types that are kept in the store. -/
  store : ∀ types, entry.store = .local types ∨ entry.store = .cloud types → ∀ t ∈ types, Plain t
  valueTypes : ∀ t ∈ entry.valueTypes, t.Tame

theorem plain_typeList {types : List String} (h : ∀ t ∈ types, Plain t) :
    Plain (typeList types) := by
  refine plain_join (plain_of_all rfl) fun text htext => ?_
  obtain ⟨t, ht, rfl⟩ := List.mem_map.mp htext
  exact (h t ht).append (plain_of_all rfl)

namespace AppEntry.Tame

variable {entry : AppEntry}

theorem linesInert_container (h : entry.Tame) : LinesInert (containerLines entry.store) := by
  cases hstore : entry.store with
  | none => exact linesInert_nil
  | «local» types => exact linesInert_nil
  | cloud types =>
      have hschema : Inert ("let schema = Schema([" ++ typeList types ++ "])") := by
        have hopen : Moves [] [']', ')'] "let schema = Schema([" := moves_of_read rfl
        have hlist := plain_typeList (h.store types (Or.inr hstore))
        exact (hopen.before hlist.inert).append (moves_of_read rfl)
      have hopen : Moves [] ['\x7d'] "private let container: ModelContainer = \x7b" :=
        moves_of_read rfl
      refine .cons inert_empty (.cons hopen (.cons (hschema.moves _) ?_))
      exact .cons (moves_of_read rfl) <| .cons (moves_of_read rfl) <| .cons (moves_of_read rfl) <|
        .cons (moves_of_read rfl) <| .cons (moves_of_read rfl) <| linesMove_of_read rfl

theorem linesInert_store (h : entry.Tame) : LinesInert (storeLines entry.store) := by
  cases hstore : entry.store with
  | none => exact linesInert_nil
  | cloud types => exact linesMove_of_read rfl
  | «local» types =>
      have hopen : Moves [] [']', ')'] ".modelContainer(for: [" := moves_of_read rfl
      have hlist := plain_typeList (h.store types (Or.inl hstore))
      exact .one ((hopen.before hlist.inert).append (moves_of_read rfl))

theorem linesInert_app (h : entry.Tame) : LinesInert entry.appLines := by
  have hstruct : Moves [] ['\x7d'] ("struct " ++ entry.appType ++ ": App \x7b") := by
    have hopen : Moves [] ['\x7d'] ": App \x7b" := moves_of_read rfl
    exact hopen.after (Plain.append (plain_of_all rfl) h.appType).inert
  have hhead : LinesMove [] ['\x7d'] [⟨0, "@main"⟩, ⟨0, "struct " ++ entry.appType ++ ": App \x7b"⟩,
      ⟨1, "@StateObject private var router = Router()"⟩] :=
    .cons (moves_of_read rfl) (.cons hstruct (linesMove_of_read rfl))
  have hscene : LinesMove ['\x7d'] ['\x7d', '\x7d', '\x7d'] [.blank,
      ⟨1, "var body: some Scene \x7b"⟩, ⟨2, "WindowGroup \x7b"⟩, ⟨3, "RootView()"⟩] :=
    linesMove_of_read rfl
  have hmodifiers : LinesInert (entry.sceneModifiers.map fun m =>
      ⟨4, "." ++ m.name ++ "(" ++ argsText m.args ++ ")"⟩) := by
    refine linesInert_map fun m hm => ?_
    obtain ⟨hname, hargs⟩ := h.sceneModifiers m hm
    exact inert_call (Plain.append (plain_of_all rfl) hname).inert (inert_argsText hargs)
  have hwindow : LinesMove ['\x7d', '\x7d', '\x7d'] ['\x7d', '\x7d'] [⟨2, "\x7d"⟩] :=
    linesMove_of_read rfl
  have hclose : LinesMove ['\x7d', '\x7d'] [] [⟨1, "\x7d"⟩, ⟨0, "\x7d"⟩] :=
    linesMove_of_read rfl
  have hopened := ((hhead.before h.linesInert_container).append hscene).before hmodifiers
  exact ((hopened.append hwindow).before h.linesInert_store).append hclose

theorem linesInert_routes (h : entry.Tame) : LinesInert entry.routeLines := by
  have hhead : LinesMove [] ['\x7d'] [⟨0, "enum Route: Hashable \x7b"⟩] :=
    linesMove_of_read rfl
  have hcases : LinesInert (entry.routes.map fun r => ⟨1, "case " ++ r.name⟩) :=
    linesInert_map fun r hr => (Plain.append (plain_of_all rfl) (h.routes r hr).1).inert
  have hlinks : LinesInert (entry.routes.flatMap Route.linkLines) := by
    refine linesInert_flatMap fun r hr => ?_
    have hcase : Inert "case " := moves_of_read rfl
    unfold Route.linkLines
    split
    next link hlink =>
      refine .cons ((hcase.append (inert_stringLiteral link)).append (moves_of_read rfl)) ?_
      exact .one (Plain.append (plain_of_all rfl) (h.routes r hr).1).inert
    · exact linesInert_nil
  have hopen : LinesMove [] ['\x7d', '\x7d'] [.blank, ⟨1, "init?(url: URL) \x7b"⟩,
      ⟨2, "let components = [url.host].compactMap \x7b $0 \x7d + " ++
        "url.pathComponents.filter \x7b $0 != \"/\" \x7d"⟩,
      ⟨2, "switch \"/\" + components.joined(separator: \"/\") \x7b"⟩] :=
    .cons inert_empty <| .cons (moves_of_read rfl) <|
      .cons ((moves_of_read rfl).append (moves_of_read rfl)) <| .one (moves_of_read rfl)
  have hclose : LinesMove ['\x7d', '\x7d'] [] [⟨2, "default:"⟩, ⟨3, "return nil"⟩,
      ⟨2, "\x7d"⟩, ⟨1, "\x7d"⟩] := linesMove_of_read rfl
  have hinit := (hopen.before hlinks).append hclose
  unfold routeLines
  refine LinesMove.append (LinesMove.before (hhead.before hcases) ?_) closes_block
  split
  · exact hinit
  · exact linesInert_nil

theorem linesInert_selection (h : entry.Tame) : LinesInert entry.selectionLines := by
  unfold selectionLines
  split
  · exact linesInert_nil
  next initial rest htabs =>
    have hinitial : Plain ("@Published var selectedTab: Route = ." ++ initial) :=
      Plain.append (plain_of_all rfl) (h.tabs initial (by rw [htabs]; exact List.mem_cons_self))
    have hclose : LinesMove ['\x7d'] [] [⟨2, "didSet \x7b popToRoot() \x7d"⟩, ⟨1, "\x7d"⟩] :=
      linesMove_of_read rfl
    exact .cons (opens_block.after hinitial.inert) hclose

theorem linesInert_open (h : entry.Tame) : LinesInert entry.openLines := by
  have hhead : LinesMove [] ['\x7d'] [.blank, ⟨1, "func open(_ url: URL) \x7b"⟩,
      ⟨2, "guard let route = Route(url: url) else \x7b return \x7d"⟩, ⟨2, "popToRoot()"⟩] :=
    .cons inert_empty <| .cons (moves_of_read rfl) <| .cons (moves_of_read rfl) <|
      .one (moves_of_read rfl)
  have hone : LinesInert [⟨2, "if route != ." ++ entry.rootCase ++ " \x7b"⟩,
      ⟨3, "navigate(to: route)"⟩, ⟨2, "\x7d"⟩] := by
    have hcase : Plain ("if route != ." ++ entry.rootCase) :=
      Plain.append (plain_of_all rfl) h.rootCase
    exact .cons (opens_block.after hcase.inert) (linesMove_of_read rfl)
  have hmany : LinesInert [⟨2, "if [" ++ Text.join ", " (entry.tabs.map ("Route." ++ ·)) ++
      "].contains(route) \x7b"⟩, ⟨3, "selectedTab = route"⟩, ⟨2, "\x7d else \x7b"⟩,
      ⟨3, "navigate(to: route)"⟩, ⟨2, "\x7d"⟩] := by
    have hopen : Moves [] [']'] "if [" := moves_of_read rfl
    have htabs : Plain (Text.join ", " (entry.tabs.map ("Route." ++ ·))) := by
      refine plain_join (plain_of_all rfl) fun text htext => ?_
      obtain ⟨t, ht, rfl⟩ := List.mem_map.mp htext
      exact Plain.append (plain_of_all rfl) (h.tabs t ht)
    have hclose : Moves [']'] ['\x7d'] "].contains(route) \x7b" := moves_of_read rfl
    exact .cons ((hopen.before htabs.inert).append hclose) (linesMove_of_read rfl)
  unfold openLines
  refine linesInert_ite (fun _ => ?_) fun _ => linesInert_nil
  exact (hhead.before (linesInert_ite (fun _ => hone) fun _ => hmany)).append closes_block

theorem linesInert_router (h : entry.Tame) : LinesInert entry.routerLines := by
  have hhead : LinesMove [] ['\x7d'] [⟨0, "final class Router: ObservableObject \x7b"⟩,
      ⟨1, "@Published var path = NavigationPath()"⟩] :=
    .cons (moves_of_read rfl) (.one (moves_of_read rfl))
  have hmethods : LinesInert [.blank, ⟨1, "func navigate(to route: Route) \x7b"⟩,
      ⟨2, "path.append(route)"⟩, ⟨1, "\x7d"⟩, .blank, ⟨1, "func goBack() \x7b"⟩,
      ⟨2, "if !path.isEmpty \x7b"⟩, ⟨3, "path.removeLast()"⟩, ⟨2, "\x7d"⟩, ⟨1, "\x7d"⟩, .blank,
      ⟨1, "func popToRoot() \x7b"⟩, ⟨2, "path = NavigationPath()"⟩, ⟨1, "\x7d"⟩] :=
    linesMove_of_read rfl
  exact (((hhead.before h.linesInert_selection).before hmethods).before h.linesInert_open).append
    closes_block

theorem linesInert_root (h : entry.Tame) : LinesInert entry.rootLines := by
  have hhead : LinesMove [] ['\x7d', '\x7d'] [⟨0, "struct RootView: View \x7b"⟩,
      ⟨1, "@EnvironmentObject private var router: Router"⟩, .blank,
      ⟨1, "var body: some View \x7b"⟩] :=
    .cons (moves_of_read rfl) <| .cons (moves_of_read rfl) (linesMove_of_read rfl)
  have hswitch : LinesMove ['\x7d', '\x7d'] ['\x7d', '\x7d', '\x7d'] [⟨1, "\x7d"⟩, .blank,
      ⟨1, "@ViewBuilder"⟩,
      ⟨1, "private func routeView(for route: Route) -> some View \x7b"⟩,
      ⟨2, "switch route \x7b"⟩] :=
    .cons (moves_of_read rfl) <| .cons (inert_empty.moves _) <| .cons (moves_of_read rfl) <|
      .cons (moves_of_read rfl) (.one (moves_of_read rfl))
  have hviews : LinesInert (entry.routes.flatMap Route.viewLines) := by
    refine linesInert_flatMap fun r hr => ?_
    obtain ⟨hname, hviewType⟩ := h.routes r hr
    have hcase : Plain ("case ." ++ r.name ++ ":") :=
      (Plain.append (plain_of_all rfl) hname).append (plain_of_all rfl)
    exact .cons hcase.inert (.one (hviewType.inert.append (moves_of_read rfl)))
  have hclose : LinesMove ['\x7d', '\x7d', '\x7d'] [] [⟨2, "\x7d"⟩, ⟨1, "\x7d"⟩, ⟨0, "\x7d"⟩] :=
    linesMove_of_read rfl
  exact (((hhead.before (h.root 2)).append hswitch).before hviews).append hclose

/-- **The entry file of a tame entry leaves the brackets as they are.** -/
theorem linesInert (h : entry.Tame) : LinesInert entry.lines := by
  have himport : LinesInert [⟨0, "import SwiftUI"⟩] := linesMove_of_read rfl
  have hdata : LinesInert (if entry.store = .none then [] else [⟨0, "import SwiftData"⟩]) :=
    linesInert_ite (fun _ => linesInert_nil) fun _ => linesMove_of_read rfl
  have htypes : LinesInert (entry.valueTypes.flatMap fun type => .blank :: type.typeLines) :=
    linesInert_flatMap fun type htype =>
      linesInert_blank.append (h.valueTypes type htype).linesInert_type
  have happ := ((himport.append hdata).append linesInert_blank).append h.linesInert_app
  have hroutes := (happ.append linesInert_blank).append h.linesInert_routes
  have hrouter := (hroutes.append linesInert_blank).append h.linesInert_router
  exact ((hrouter.append linesInert_blank).append h.linesInert_root).append htypes

end AppEntry.Tame

end Screenwright.Swift
