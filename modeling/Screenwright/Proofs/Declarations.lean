/-
The declarations of a file.

A line opens a declaration if it begins like one and ends with a brace, and what stands behind it,
up to the next such line, is what is declared.  So the declarations of a file are read from its
lines, and from nothing else.

In the entry file the lines of the root view hold texts from outside.  None of them opens a
declaration: a view that is a call ends with a parenthesis, and every other line of a view begins
with a word or a mark of its own.  So the declarations of the entry file are those that it is made
of, and its functions, and the structures of its data, are found in it by their first lines.
-/
import Screenwright.Swift.Files

namespace Screenwright.Swift

/-- How declarations begin. -/
def declaring : List String :=
  ["struct ", "enum ", "final class ", "func ", "private func ", "init?("]

/-- Whether a line opens a declaration. -/
def opensDeclaration (line : String) : Bool :=
  declaring.any (Text.startsWith · line) && line.toList.getLast? = some '\x7b'

/-- The declarations among the lines of a file, each with the lines up to the next one. -/
def declarations : List String → List (String × List String)
  | [] => []
  | line :: rest =>
    if opensDeclaration line then
      (line, rest.takeWhile fun next => !opensDeclaration next) :: declarations rest
    else declarations rest

/-- The lines behind the line that opens a declaration. -/
def bodyOf (head : String) (lines : List String) : List String :=
  ((declarations lines).lookup head).getD []

/-! ### Lines that open no declaration -/

/-- Whether a text begins like none of some words, and none of them like it. -/
def beginsApart (words : List String) (start : String) : Bool :=
  words.all fun word => !Text.startsWith word start && !Text.startsWith start word

/-- What begins apart from some words does so whatever follows. -/
theorem any_startsWith_of_beginsApart {words : List String} {start : String}
    (h : beginsApart words start = true) (rest : String) :
    words.any (Text.startsWith · (start ++ rest)) = false := by
  refine List.any_eq_false.mpr fun word hword hstarts => ?_
  have hapart := List.all_eq_true.mp h word hword
  simp only [Text.startsWith, Bool.and_eq_true, Bool.not_eq_true', ← Bool.not_eq_true,
    List.isPrefixOf_iff_prefix] at hstarts hapart
  rw [String.toList_append] at hstarts
  rcases List.prefix_or_prefix_of_prefix hstarts (List.prefix_append _ _) with hword | hstart
  · exact hapart.1 hword
  · exact hapart.2 hstart

/-- What begins in another way opens no declaration, whatever follows. -/
theorem opensDeclaration_append {start : String} (h : beginsApart declaring start = true)
    (rest : String) : opensDeclaration (start ++ rest) = false := by
  rw [opensDeclaration, any_startsWith_of_beginsApart h, Bool.false_and]

/-- A call opens no declaration. -/
theorem opensDeclaration_call (head : String) : opensDeclaration (head ++ ")") = false := by
  simp [opensDeclaration]

/-- The lines open no declaration. -/
def OpensNone (lines : List String) : Prop :=
  ∀ line ∈ lines, opensDeclaration line = false

namespace OpensNone

variable {line : String} {ls ms : List String}

@[simp]
theorem nil : OpensNone [] := List.forall_mem_nil _

@[simp]
theorem cons_iff : OpensNone (line :: ls) ↔ opensDeclaration line = false ∧ OpensNone ls :=
  List.forall_mem_cons

@[simp]
theorem append_iff : OpensNone (ls ++ ms) ↔ OpensNone ls ∧ OpensNone ms :=
  List.forall_mem_append

theorem map {α : Type} {xs : List α} {text : α → String}
    (h : ∀ x ∈ xs, opensDeclaration (text x) = false) : OpensNone (xs.map text) :=
  List.forall_mem_map.mpr h

theorem flatMap {α : Type} {xs : List α} {f : α → List String} (h : ∀ x ∈ xs, OpensNone (f x)) :
    OpensNone (xs.flatMap f) :=
  List.forall_mem_flatMap.mpr h

end OpensNone

theorem ContainerKind.opensNone_head (kind : ContainerKind) (args : List Arg) :
    opensDeclaration (containerHead kind args ++ " \x7b") = false := by
  have hname : ∀ rest, opensDeclaration (kind.name ++ rest) = false := by
    intro rest
    cases kind <;> exact opensDeclaration_append (by decide) rest
  unfold containerHead
  split
  · exact hname _
  · simp only [String.append_assoc]
    exact hname _

theorem opensDeclaration_modifierHead (name : String) (args : List Arg) (hasClosure : Bool)
    (rest : String) : opensDeclaration (modifierHead name args hasClosure ++ rest) = false := by
  unfold modifierHead
  split
  all_goals
    simp only [String.append_assoc]
    exact opensDeclaration_append (by decide) _

mutual

/-- No line of a view opens a declaration. -/
theorem View.opensNone : ∀ (view : View) (depth : Nat),
    OpensNone ((view.lines depth).map Line.text)
  | .leaf kind args, depth => by
      rw [View.lines, List.map_singleton, OpensNone.cons_iff]
      exact ⟨opensDeclaration_call _, .nil⟩
  | .container kind args content trailing, depth => by
      simp only [View.lines, List.cons_append, List.map_cons, List.map_append, List.map_nil,
        OpensNone.cons_iff, OpensNone.append_iff]
      exact ⟨kind.opensNone_head args, ⟨opensNone_views content (depth + 1),
        opensNone_closures trailing depth⟩, by decide, .nil⟩
  | .modified inner chain, depth => by
      rw [View.lines, List.map_append, OpensNone.append_iff]
      refine ⟨?_, opensNone_modifiers chain (depth + 1)⟩
      split
      · simp only [List.cons_append, List.map_cons, List.map_append, List.map_nil,
          OpensNone.cons_iff, OpensNone.append_iff]
        exact ⟨by decide, inner.opensNone (depth + 1), by decide, .nil⟩
      · exact inner.opensNone depth
  | .conditional condition yes no, depth => by
      simp only [View.lines, List.cons_append, List.map_cons, List.map_append, List.map_nil,
        OpensNone.cons_iff, OpensNone.append_iff]
      refine ⟨?_, ⟨opensNone_views yes (depth + 1), ?_⟩, by decide, .nil⟩
      · rw [String.append_assoc]
        exact opensDeclaration_append (by decide) _
      · split
        · exact .nil
        · have helse : opensDeclaration "\x7d else \x7b" = false := by decide
          exact OpensNone.cons_iff.mpr ⟨helse, opensNone_views no (depth + 1)⟩

theorem opensNone_views : ∀ (views : List View) (depth : Nat),
    OpensNone ((viewLines depth views).map Line.text)
  | [], _ => .nil
  | view :: rest, depth => by
      rw [viewLines, List.map_append, OpensNone.append_iff]
      exact ⟨view.opensNone depth, opensNone_views rest depth⟩

theorem opensNone_modifiers : ∀ (chain : List ViewModifier) (depth : Nat),
    OpensNone ((modifierLines depth chain).map Line.text)
  | [], _ => .nil
  | m :: rest, depth => by
      rw [modifierLines, List.map_append, OpensNone.append_iff]
      exact ⟨m.opensNone depth, opensNone_modifiers rest depth⟩

theorem ViewModifier.opensNone : ∀ (m : ViewModifier) (depth : Nat),
    OpensNone ((m.lines depth).map Line.text)
  | .mk name args [], depth => by
      have hhead := opensDeclaration_modifierHead name args false ""
      rw [String.append_empty] at hhead
      exact OpensNone.cons_iff.mpr ⟨hhead, .nil⟩
  | .mk name args (.mk label params body :: rest), depth => by
      simp only [ViewModifier.lines, List.cons_append, List.map_cons, List.map_append, List.map_nil,
        OpensNone.cons_iff, OpensNone.append_iff]
      refine ⟨?_, ⟨opensNone_views body (depth + 1), opensNone_closures rest depth⟩, by decide,
        .nil⟩
      rw [String.append_assoc]
      exact opensDeclaration_modifierHead name args true _

theorem opensNone_closures : ∀ (closures : List Closure) (depth : Nat),
    OpensNone ((closureLines depth closures).map Line.text)
  | [], _ => .nil
  | .mk label params body :: rest, depth => by
      simp only [closureLines, List.cons_append, List.map_cons, List.map_append,
        OpensNone.cons_iff, OpensNone.append_iff]
      refine ⟨?_, opensNone_views body (depth + 1), opensNone_closures rest depth⟩
      simp only [String.append_assoc]
      exact opensDeclaration_append (by decide) _

end

/-! ### Reading declarations -/

section Reading

variable {body : List String}

/-- Lines that open no declaration do not count. -/
theorem declarations_append (h : OpensNone body) (rest : List String) :
    declarations (body ++ rest) = declarations rest := by
  induction body with
  | nil => rfl
  | cons line body ih =>
      rw [OpensNone.cons_iff] at h
      rw [List.cons_append, declarations, if_neg (by simp [h.1]), ih h.2]

/-- A line that opens a declaration, and lines that open none. -/
def IsDeclaration (declaration : String × List String) : Prop :=
  opensDeclaration declaration.1 = true ∧ OpensNone declaration.2

/-- The lines of declarations, one after the other. -/
def written (ds : List (String × List String)) : List String :=
  ds.flatMap fun declaration => declaration.1 :: declaration.2

/-- **Declarations are read as they have been written.** -/
theorem declarations_written {ds : List (String × List String)} (h : ∀ d ∈ ds, IsDeclaration d) :
    declarations (written ds) = ds := by
  induction ds with
  | nil => rfl
  | cons d ds ih =>
      obtain ⟨head, body⟩ := d
      rw [List.forall_mem_cons] at h
      obtain ⟨⟨hhead, hbody⟩, hrest⟩ := h
      have hall : ∀ line ∈ body, (!opensDeclaration line) = true := fun line hline => by
        simp [hbody line hline]
      have hstop : (written ds).takeWhile (fun next => !opensDeclaration next) = [] := by
        cases ds with
        | nil => rfl
        | cons next ds =>
            rw [List.forall_mem_cons] at hrest
            exact List.takeWhile_cons_of_neg (by simp [hrest.1.1])
      have hlines : written ((head, body) :: ds) = head :: (body ++ written ds) := rfl
      rw [hlines, declarations, if_pos hhead, declarations_append hbody,
        List.takeWhile_append_of_pos hall, hstop, List.append_nil, ih hrest]

/-- The first lines of the declarations are the lines that open one. -/
theorem map_fst_declarations (lines : List String) :
    (declarations lines).map Prod.fst = lines.filter opensDeclaration := by
  induction lines with
  | nil => rfl
  | cons line rest ih =>
      rw [declarations]
      split
      next hopens => rw [List.map_cons, List.filter_cons_of_pos hopens, ih]
      next hopens => rw [List.filter_cons_of_neg hopens, ih]

end Reading

/-! ### Lines behind others -/

/-- The lines that stand directly behind a line with the given text. -/
def behind (label : String) : List String → List String
  | line :: next :: rest =>
    if line = label then next :: behind label (next :: rest) else behind label (next :: rest)
  | _ => []

section Behind

variable {label line : String} {lines : List String}

theorem ne_of_head? {a b : String} (h : a.toList.head? ≠ b.toList.head?) : a ≠ b := by
  rintro rfl
  exact h rfl

theorem ne_of_getLast? {a b : String} (h : a.toList.getLast? ≠ b.toList.getLast?) : a ≠ b := by
  rintro rfl
  exact h rfl

theorem behind_self (label next : String) (rest : List String) :
    behind label (label :: next :: rest) = next :: behind label (next :: rest) := by
  rw [behind, if_pos rfl]

theorem behind_cons_of_ne (h : line ≠ label) (rest : List String) :
    behind label (line :: rest) = behind label rest := by
  cases rest with
  | nil => rfl
  | cons next rest => rw [behind, if_neg h]

/-- Lines with other texts do not count. -/
theorem behind_append_of_ne (h : ∀ line ∈ lines, line ≠ label) (rest : List String) :
    behind label (lines ++ rest) = behind label rest := by
  induction lines with
  | nil => rfl
  | cons line lines ih =>
      rw [List.forall_mem_cons] at h
      rw [List.cons_append, behind_cons_of_ne h.1, ih h.2]

theorem behind_of_ne (h : ∀ line ∈ lines, line ≠ label) : behind label lines = [] := by
  rw [← List.append_nil lines, behind_append_of_ne h]
  rfl

end Behind

end Screenwright.Swift
