/-
Views as lines of code.

A view becomes a list of lines, each with its depth; the width of one level of
indentation matters only when the lines are put together.
-/
import Screenwright.Swift.Literal

namespace Screenwright.Swift

/-- A line of code at a depth of nesting. -/
structure Line where
  depth : Nat
  text : String
deriving DecidableEq, Repr

namespace Line

/-- A line without text. -/
def blank : Line := ⟨0, ""⟩

/-- The line with its indentation; a line without text has none. -/
def indented (width : Nat) (line : Line) : String :=
  if line.text = "" then ""
  else String.ofList (List.replicate (line.depth * width) ' ') ++ line.text

/-- The lines as one text. -/
def textOf (width : Nat) (lines : List Line) : String :=
  Text.join "\n" (lines.map (indented width)) ++ "\n"

end Line

/-- The opening brace of a closure, with its parameters. -/
def openBrace (params : List String) : String :=
  if params.isEmpty then "\x7b" else "\x7b " ++ Text.join ", " params ++ " in"

/-- The call of a view with content. -/
def containerHead (kind : ContainerKind) (args : List Arg) : String :=
  if args.isEmpty then kind.name else kind.name ++ "(" ++ argsText args ++ ")"

/-- The call of a modifier; no parentheses where only closures follow. -/
def modifierHead (name : String) (args : List Arg) (hasClosure : Bool) : String :=
  if args.isEmpty && hasClosure then "." ++ name else "." ++ name ++ "(" ++ argsText args ++ ")"

/-- Whether a view is a conditional, which modifiers cannot follow directly. -/
def View.isConditional : View → Bool
  | .conditional _ _ _ => true
  | _ => false

/-- The label of a closure that has none but needs one. -/
def defaultLabel : String := "content"

mutual

/-- The lines of a view. -/
def View.lines (depth : Nat) : View → List Line
  | .leaf kind args => [⟨depth, kind.name ++ "(" ++ argsText args ++ ")"⟩]
  | .container kind args content trailing =>
    ⟨depth, containerHead kind args ++ " \x7b"⟩ :: viewLines (depth + 1) content ++
      closureLines depth trailing ++ [⟨depth, "\x7d"⟩]
  | .modified inner chain =>
    (if inner.isConditional then
        ⟨depth, "Group \x7b"⟩ :: inner.lines (depth + 1) ++ [⟨depth, "\x7d"⟩]
      else inner.lines depth) ++
      modifierLines (depth + 1) chain
  | .conditional condition yes no =>
    ⟨depth, "if " ++ condition.text ++ " \x7b"⟩ :: viewLines (depth + 1) yes ++
      (if no.isEmpty then [] else ⟨depth, "\x7d else \x7b"⟩ :: viewLines (depth + 1) no) ++
      [⟨depth, "\x7d"⟩]

/-- The lines of several views. -/
def viewLines (depth : Nat) : List View → List Line
  | [] => []
  | view :: rest => view.lines depth ++ viewLines depth rest

/-- The lines of modifiers. -/
def modifierLines (depth : Nat) : List ViewModifier → List Line
  | [] => []
  | modifier :: rest => modifier.lines depth ++ modifierLines depth rest

/-- The lines of a modifier. -/
def ViewModifier.lines (depth : Nat) : ViewModifier → List Line
  | .mk name args [] => [⟨depth, modifierHead name args false⟩]
  | .mk name args (.mk _ params body :: rest) =>
    ⟨depth, modifierHead name args true ++ " " ++ openBrace params⟩ ::
      viewLines (depth + 1) body ++ closureLines depth rest ++ [⟨depth, "\x7d"⟩]

/-- The lines of closures behind the first one; each begins where the one before it ends. -/
def closureLines (depth : Nat) : List Closure → List Line
  | [] => []
  | .mk label params body :: rest =>
    ⟨depth, "\x7d " ++ label.getD defaultLabel ++ ": " ++ openBrace params⟩ ::
      viewLines (depth + 1) body ++ closureLines depth rest

end

/-- The width of indentation where none is given. -/
def standardWidth : Nat := 4

/-- A view as text. -/
def View.print (view : View) : String :=
  Line.textOf standardWidth (view.lines 0)

end Screenwright.Swift
