/-
The parts of a view, and the components that they stand for.

`View.parts` lists what a view is written with, from the outside in: its containers and leaves,
its branches and its modifiers, those in the closures of modifiers included.  Most parts can be
traced back to one kind of component, since nothing but a component of that kind is lowered to
them; `Part.component?` is the table.  Stacks, texts, labels and buttons are not in it, as other
components use them as well.  `tally` counts the parts of a kind.  It adds up along a view, and a
modifier that is not a presentation and makes no views of its own has no share in it.
-/
import Screenwright.Lowering.Components

namespace Screenwright

namespace ComponentKind

/-- Whether the components of the kind can be told by what they are lowered to. -/
def isTraced : ComponentKind → Bool
  | vStack | hStack | text | label | button | card => false
  | _ => true

/-- The kind, if its components can be told by what they are lowered to. -/
def trace? (kind : ComponentKind) : Option ComponentKind :=
  if kind.isTraced then some kind else none

end ComponentKind

namespace Swift

/-! ### Parts -/

/-- A part of a view. -/
inductive Part where
  | container (kind : ContainerKind)
  | leaf (kind : LeafKind)
  | conditional
  | modifier (name : String)
deriving DecidableEq, Repr

mutual

/-- The parts of a view, in the order in which it is written. -/
def View.parts : View → List Part
  | .container kind _ content trailing =>
    .container kind :: (viewParts content ++ closureParts trailing)
  | .leaf kind _ => [.leaf kind]
  | .modified inner chain => inner.parts ++ modifierParts chain
  | .conditional _ yes no => .conditional :: (viewParts yes ++ viewParts no)

/-- The parts of several views. -/
def viewParts : List View → List Part
  | [] => []
  | view :: rest => view.parts ++ viewParts rest

/-- The parts of a modifier. -/
def ViewModifier.parts : ViewModifier → List Part
  | .mk name _ trailing => .modifier name :: closureParts trailing

/-- The parts of several modifiers. -/
def modifierParts : List ViewModifier → List Part
  | [] => []
  | modifier :: rest => modifier.parts ++ modifierParts rest

/-- The parts of closures. -/
def closureParts : List Closure → List Part
  | [] => []
  | .mk _ _ body :: rest => viewParts body ++ closureParts rest

end

attribute [simp] View.parts viewParts ViewModifier.parts modifierParts closureParts

theorem viewParts_append (xs ys : List View) :
    viewParts (xs ++ ys) = viewParts xs ++ viewParts ys := by
  induction xs with
  | nil => rfl
  | cons x xs ih => rw [List.cons_append, viewParts, viewParts, ih, List.append_assoc]

@[simp]
theorem modifierParts_append (ms ns : List ViewModifier) :
    modifierParts (ms ++ ns) = modifierParts ms ++ modifierParts ns := by
  induction ms with
  | nil => rfl
  | cons m ms ih => rw [List.cons_append, modifierParts, modifierParts, ih, List.append_assoc]

@[simp]
theorem closureParts_append (xs ys : List Closure) :
    closureParts (xs ++ ys) = closureParts xs ++ closureParts ys := by
  induction xs with
  | nil => rfl
  | cons closure xs ih =>
      obtain ⟨label, params, body⟩ := closure
      rw [List.cons_append, closureParts, closureParts, ih, List.append_assoc]

/-- Modifiers add their parts behind those of the view. -/
@[simp]
theorem parts_modify (view : View) (ms : List ViewModifier) :
    (view.modify ms).parts = view.parts ++ modifierParts ms := by
  unfold View.modify
  split
  next hempty => rw [List.isEmpty_iff.mp hempty, modifierParts, List.append_nil]
  · cases view with
    | modified inner chain =>
        rw [View.parts, View.parts, modifierParts_append, List.append_assoc]
    | _ => rfl

/-! ### What parts stand for -/

/-- The kind of component that containers of the kind stand for. -/
def ContainerKind.component? : ContainerKind → Option ComponentKind
  | zStack => some .zStack
  | scrollView => some .scrollView
  | lazyVGrid => some .grid
  | list => some .list
  | «section» => some .section
  | form => some .form
  | navigationStack => some .navigationStack
  | navigationLink => some .navigationLink
  | menu => some .menu
  | picker => some .picker
  | tabView => some .tabView
  | vStack | hStack | group | button | toolbarItemGroup => none

/-- The kind of component that leaves of the kind stand for. -/
def LeafKind.component? : LeafKind → Option ComponentKind
  | image => some .image
  | navigationLink => some .navigationLink
  | toggle => some .toggle
  | slider => some .slider
  | stepper => some .stepper
  | textField => some .textField
  | secureField => some .secureField
  | progressView => some .progressView
  | spacer => some .spacer
  | divider => some .divider
  | contentUnavailableView => some .emptyState
  | text | label | button | emptyView | custom _ => none

/-- The kind of component that modifiers of the name present. -/
def presents? : String → Option ComponentKind
  | "sheet" => some .sheet
  | "fullScreenCover" => some .fullScreenCover
  | "alert" => some .alert
  | "confirmationDialog" => some .confirmationDialog
  | "toolbar" => some .toolbar
  | _ => none

/-- The kind of component that a part stands for. -/
def Part.component? : Part → Option ComponentKind
  | container kind => kind.component?
  | leaf kind => kind.component?
  | conditional => some .conditional
  | modifier name => presents? name

attribute [simp] Part.component? ContainerKind.component? LeafKind.component?

/-! ### Counting parts -/

/-- What counts for a kind of component: one if it is the kind, and nothing else. -/
def mark (kind : ComponentKind) (found : Option ComponentKind) : Nat :=
  if found = some kind then 1 else 0

/-- How many of the parts stand for a component of the kind. -/
def tally (kind : ComponentKind) (parts : List Part) : Nat :=
  parts.countP fun part => part.component? = some kind

variable {kind : ComponentKind}

@[simp]
theorem mark_none : mark kind none = 0 := rfl

@[simp]
theorem tally_nil : tally kind [] = 0 := rfl

@[simp]
theorem tally_cons (part : Part) (parts : List Part) :
    tally kind (part :: parts) = mark kind part.component? + tally kind parts := by
  rw [tally, List.countP_cons, Nat.add_comm, tally, mark]
  simp only [decide_eq_true_eq]

@[simp]
theorem tally_append (xs ys : List Part) :
    tally kind (xs ++ ys) = tally kind xs + tally kind ys :=
  List.countP_append

/-- Views of which none has a share have none together. -/
theorem tally_viewParts_eq_zero {views : List View} (h : ∀ v ∈ views, tally kind v.parts = 0) :
    tally kind (viewParts views) = 0 := by
  induction views with
  | nil => rfl
  | cons v views ih =>
      rw [List.forall_mem_cons] at h
      rw [viewParts, tally_append, h.1, ih h.2]

/-! ### Modifiers without a share -/

/-- The modifier makes no views, and it presents nothing. -/
def ViewModifier.IsPlain (m : ViewModifier) : Prop :=
  m.trailing = [] ∧ presents? m.name = none

/-- All of the modifiers are plain. -/
def AllPlain (modifiers : List ViewModifier) : Prop :=
  ∀ m ∈ modifiers, m.IsPlain

theorem ViewModifier.IsPlain.tally_eq_zero {m : ViewModifier} (h : m.IsPlain) :
    tally kind m.parts = 0 := by
  obtain ⟨name, args, trailing⟩ := m
  obtain ⟨rfl, hname⟩ := h
  have hpresented : presents? name = none := hname
  simp [hpresented]

/-- Plain modifiers have no share in any tally. -/
theorem AllPlain.tally_eq_zero {modifiers : List ViewModifier} (h : AllPlain modifiers) :
    tally kind (modifierParts modifiers) = 0 := by
  induction modifiers with
  | nil => rfl
  | cons m ms ih =>
      obtain ⟨hm, hms⟩ := List.forall_mem_cons.mp h
      rw [modifierParts, tally_append, hm.tally_eq_zero, ih hms]

end Swift

end Screenwright
