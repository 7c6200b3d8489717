/-
The views of screens.

All bindings of a screen are resolved before its tree is lowered, so that state is known
wherever in the tree it is first used.
-/
import Screenwright.Lowering.Components

namespace Screenwright

open Swift (ViewModifier Closure Member bare labeled)

/-- What the views of all screens are made from. -/
structure BuildContext where
  catalog : Catalog
  tokens : DesignTokens
  screens : ScreenIndex
  models : List DataModel

namespace Scope

/-- The resolved bindings by node and property, the last one first. -/
abbrev Resolved := List ((String × String) × Bound)

/-- Resolves the bindings of elements one after the other, up to the first error. -/
def bindAll (catalog : Catalog) (scope : Scope) (resolved : Resolved) :
    List (Element × DataBinding) → Except BuildError (Resolved × Scope)
  | [] => .ok (resolved, scope)
  | (element, binding) :: rest =>
    match scope.resolveOn catalog element binding with
    | (.error fault, _) =>
      .error (.unresolvedBinding element.id binding.source binding.path fault)
    | (.ok bound, scope) =>
      bindAll catalog scope (((element.id, binding.property), bound) :: resolved) rest

end Scope

namespace Setting

/-- The title of a screen, if its name is not blank. -/
def titleModifier (screen : Screen) : List ViewModifier :=
  if Text.trim screen.name = "" then [] else [.single "navigationTitle" (.string screen.name)]

/-- The modifier that shows a screen as a sheet. -/
def sheetModifier (flag viewType : String) : ViewModifier :=
  .mk "sheet" [labeled "isPresented" (.binding flag)]
    [Closure.first [.leaf (.custom viewType) []]]

/-- The presentation flags that are not members for another reason. -/
def flagMembers (scope : Scope) (sheets : Entries String) : List Member :=
  (sheets.names.filter fun flag => !scope.isMember flag).map fun flag =>
    .state flag "Bool" (.bool false)

/-- The stored members of the view of a screen. -/
def allMembers (scope : Scope) (ledger : Ledger) : Except BuildError (List Member) :=
  match scope.members with
  | .error bad => .error (.invalidDefault bad.name bad.fault)
  | .ok members =>
    .ok (members ++ (if ledger.usesRouter then [.router] else []) ++
      (if ledger.usesDismiss then [.environment "dismiss" "dismiss"] else []) ++
      flagMembers scope ledger.sheets)

/-- The view of a screen from its lowered tree. -/
def finish (s : Setting) (screen : Screen) (body : Swift.View) (ledger : Ledger) :
    Except BuildError Swift.ScreenView := do
  let members ← allMembers s.scope ledger
  return {
    screenId := screen.id
    viewType := (ScreenNames.ofScreen screen).viewType
    members := members
    body := body.modify (titleModifier screen ++
      ledger.sheets.map fun (flag, viewType) => sheetModifier flag viewType)
    handlers := ledger.handlers.map fun (name, params) => ⟨name, params⟩
    edges := ledger.edges
    usesRouter := ledger.usesRouter }

end Setting

/-- The view of a screen. -/
def buildScreen (cx : BuildContext) (screen : Screen) (tree : NormalTree) :
    Except BuildError Swift.ScreenView := do
  let (bound, scope) ← (Scope.ofScreen screen cx.models).bindAll cx.catalog [] tree.bindings
  let setting : Setting := ⟨screen.id, cx.tokens, cx.screens, scope, bound⟩
  let (body, ledger) ← (setting.lowerRoot tree.root).run .empty
  setting.finish screen body ledger

end Screenwright
