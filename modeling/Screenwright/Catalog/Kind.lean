/-
The kinds of components, and what a kind alone decides.
-/

namespace Screenwright

/-- The kinds of components that views can be made from. -/
inductive ComponentKind where
  | vStack
  | hStack
  | zStack
  | scrollView
  | grid
  | list
  | section
  | form
  | spacer
  | divider
  | conditional
  | navigationStack
  | navigationLink
  | tabView
  | sheet
  | fullScreenCover
  | alert
  | confirmationDialog
  | menu
  | toolbar
  | text
  | label
  | image
  | button
  | toggle
  | picker
  | slider
  | stepper
  | textField
  | secureField
  | progressView
  | card
  | emptyState
deriving DecidableEq, Repr

/-- The groups of components in a palette. -/
inductive Category where
  | primitives
  | layout
  | navigation
  | input
  | dataDisplay
  | feedback
  | patterns
deriving DecidableEq, Repr

/-- How a property may be bound to data. -/
inductive BindMode where
  /-- Not at all. -/
  | fixed
  /-- Read from its source. -/
  | read
  /-- Read from its source and written back. -/
  | twoWay
deriving DecidableEq, Repr

namespace ComponentKind

/-- Whether components of the kind are attached to their parent in place of standing in
its content. -/
def isPresentation : ComponentKind → Bool
  | sheet | fullScreenCover | alert | confirmationDialog | toolbar => true
  | _ => false

/-- Whether components of the kind have a view of their own that modifiers can change. -/
def acceptsModifiers : ComponentKind → Bool
  | alert | confirmationDialog | toolbar => false
  | _ => true

end ComponentKind

end Screenwright
