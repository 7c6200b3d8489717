/-
Views leave the open brackets as they are.

A view is printed as lines, and a line may open a bracket that a later one closes.  What
lines do to the open brackets, `LinesMove`, is put together line by line, so it also says
that nothing goes over the end of a line.  A view is tame if its lines are inert at every
depth; again there is a lemma for every way to make a view.
-/
import Mathlib.Tactic.Common
import Screenwright.Proofs.Lexical.Values
import Screenwright.Swift.Printer

namespace Screenwright.Swift

/-! ### Lines -/

/-- One line after the other, the lines take the brackets `before` to the brackets `after`. -/
inductive LinesMove : List Char → List Char → List Line → Prop
  | nil (a : List Char) : LinesMove a a []
  | cons {a b c : List Char} {line : Line} {rest : List Line} (h : Moves a b line.text)
      (hrest : LinesMove b c rest) : LinesMove a c (line :: rest)

/-- The lines leave the open brackets as they are. -/
def LinesInert (lines : List Line) : Prop :=
  LinesMove [] [] lines

section Lines

variable {a b c : List Char} {ls ms : List Line} {t : String} {depth : Nat}

theorem LinesMove.append (hls : LinesMove a b ls) (hms : LinesMove b c ms) :
    LinesMove a c (ls ++ ms) := by
  induction hls with
  | nil => exact hms
  | cons h _ ih => exact .cons h (ih hms)

theorem LinesMove.over (rest : List Char) (h : LinesMove a b ls) :
    LinesMove (a ++ rest) (b ++ rest) ls := by
  induction h with
  | nil => exact .nil _
  | cons hline _ ih =>
      refine .cons (fun further => ?_) ih
      rw [List.append_assoc, List.append_assoc]
      exact hline (rest ++ further)

theorem LinesMove.one (h : Moves a b t) : LinesMove a b [⟨depth, t⟩] :=
  .cons h (.nil _)

theorem linesInert_nil : LinesInert [] :=
  .nil []

theorem linesInert_blank : LinesInert [Line.blank] :=
  .one inert_empty

theorem LinesInert.moves (h : LinesInert ls) (a : List Char) : LinesMove a a ls :=
  LinesMove.over a h

theorem LinesInert.append (hls : LinesInert ls) (hms : LinesInert ms) : LinesInert (ls ++ ms) :=
  LinesMove.append hls hms

/-- Inert lines before others. -/
theorem LinesMove.after (hms : LinesMove a b ms) (hls : LinesInert ls) :
    LinesMove a b (ls ++ ms) :=
  (hls.moves a).append hms

/-- Inert lines behind others. -/
theorem LinesMove.before (hls : LinesMove a b ls) (hms : LinesInert ms) :
    LinesMove a b (ls ++ ms) :=
  hls.append (hms.moves b)

/-- A line for every item of a list. -/
theorem linesInert_map {α : Type} {xs : List α} {text : α → String}
    (h : ∀ x ∈ xs, Inert (text x)) : LinesInert (xs.map fun x => ⟨depth, text x⟩) := by
  induction xs with
  | nil => exact linesInert_nil
  | cons x xs ih =>
      rw [List.forall_mem_cons] at h
      exact .cons h.1 (ih h.2)

/-- Lines for every item of a list. -/
theorem linesInert_flatMap {α : Type} {xs : List α} {lines : α → List Line}
    (h : ∀ x ∈ xs, LinesInert (lines x)) : LinesInert (xs.flatMap lines) := by
  induction xs with
  | nil => exact linesInert_nil
  | cons x xs ih =>
      rw [List.forall_mem_cons] at h
      rw [List.flatMap_cons]
      exact h.1.append (ih h.2)

/-- Lines that are there only under a condition. -/
theorem linesInert_ite {p : Prop} [Decidable p] (hls : p → LinesInert ls)
    (hms : ¬ p → LinesInert ms) : LinesInert (if p then ls else ms) := by
  split
  next h => exact hls h
  next h => exact hms h

theorem inert_indented (width : Nat) {line : Line} (h : Moves a b line.text) :
    Moves a b (line.indented width) := by
  unfold Line.indented
  split
  next hempty => rwa [hempty] at h
  · refine h.after (Plain.inert fun c hc => ?_)
    rw [String.toList_ofList] at hc
    rw [List.eq_of_mem_replicate hc]
    rfl

/-- **What lines do to the brackets, the text made of them does at every width of
indentation.** -/
theorem read_textOf (width : Nat) (h : LinesMove a b ls) (rest : List Char) :
    Reader.read ⟨.code, a ++ rest⟩ (Line.textOf width ls).toList = some ⟨.code, b ++ rest⟩ := by
  have hbreak : ∀ awaited cs, Reader.read ⟨.code, awaited⟩ ("\n".toList ++ cs) =
      Reader.read ⟨.code, awaited⟩ cs := fun _ _ => rfl
  induction h with
  | nil a =>
      rw [Line.textOf, String.toList_append]
      rfl
  | cons hline hrest ih =>
      have hindented := (inert_indented width hline).read rest
      cases hrest with
      | nil =>
          rw [Line.textOf, String.toList_append, Reader.read_append]
          exact (congrArg (Option.bind · _) hindented).trans rfl
      | cons _ _ =>
          unfold Line.textOf at ih ⊢
          rw [List.map_cons, List.map_cons, Text.join, String.append_assoc, String.append_assoc,
            String.toList_append, Reader.read_append, hindented, Option.bind_some,
            String.toList_append, hbreak]
          exact ih

theorem isWellFormed_textOf (width : Nat) (h : LinesInert ls) :
    isWellFormed (Line.textOf width ls) = true :=
  decide_eq_true (read_textOf width h [])

/-- No line goes over its end. -/
theorem LinesMove.not_break (h : LinesMove a b ls) :
    ∀ line ∈ ls, ∀ c ∈ line.text.toList, isBreak c = false := by
  induction h with
  | nil => simp
  | cons hline _ ih => exact List.forall_mem_cons.mpr ⟨hline.not_break, ih⟩

/-! ### Blocks -/

/-- The end of a line that opens a block. -/
theorem opens_block : Moves [] ['\x7d'] " \x7b" :=
  moves_of_read rfl

/-- A line that closes a block. -/
theorem closes_block : LinesMove ['\x7d'] [] [⟨depth, "\x7d"⟩] :=
  .one (moves_of_read rfl)

theorem linesInert_block {head : String} {outer : Nat} (hhead : Moves [] ['\x7d'] head)
    (hls : LinesInert ls) : LinesInert (⟨depth, head⟩ :: ls ++ [⟨outer, "\x7d"⟩]) :=
  .cons hhead (closes_block.after hls)

end Lines

theorem moves_openBrace {params : List String} (h : ∀ p ∈ params, Plain p) :
    Moves [] ['\x7d'] (openBrace params) := by
  have hopen : Moves [] ['\x7d'] "\x7b " := moves_of_read rfl
  unfold openBrace
  split
  · exact moves_of_read rfl
  · exact (hopen.before (plain_join (plain_of_all rfl) h).inert).before
      (moves_of_read rfl)

/-! ### Views -/

/-- A view that can stand in code. -/
def View.Tame (view : View) : Prop :=
  ∀ depth, LinesInert (view.lines depth)

/-- A modifier that can stand in code. -/
def ViewModifier.Tame (modifier : ViewModifier) : Prop :=
  ∀ depth, LinesInert (modifier.lines depth)

/-- A closure that can stand in code. -/
structure Closure.Tame (closure : Closure) : Prop where
  label : ∀ label, closure.label = some label → Plain label
  params : ∀ p ∈ closure.params, Plain p
  body : ∀ view ∈ closure.body, view.Tame

namespace Closure

theorem tame_first {body : List View} (h : ∀ view ∈ body, view.Tame) : (first body).Tame :=
  ⟨by simp [first, label], by simp [first, params], h⟩

theorem tame_named {label : String} {body : List View} (hlabel : Plain label)
    (h : ∀ view ∈ body, view.Tame) : (named label body).Tame :=
  ⟨by rintro _ ⟨⟩; exact hlabel, by simp [named, params], h⟩

end Closure

theorem linesInert_views {views : List View} (h : ∀ view ∈ views, view.Tame) (depth : Nat) :
    LinesInert (viewLines depth views) := by
  induction views with
  | nil => exact linesInert_nil
  | cons view views ih =>
      rw [List.forall_mem_cons] at h
      rw [viewLines]
      exact (h.1 depth).append (ih h.2)

theorem linesInert_modifiers {chain : List ViewModifier} (h : ∀ m ∈ chain, m.Tame)
    (depth : Nat) : LinesInert (modifierLines depth chain) := by
  induction chain with
  | nil => exact linesInert_nil
  | cons m chain ih =>
      rw [List.forall_mem_cons] at h
      rw [modifierLines]
      exact (h.1 depth).append (ih h.2)

/-- Every further closure closes the one before it and opens a block of its own. -/
theorem linesMove_closures {closures : List Closure} (h : ∀ c ∈ closures, c.Tame) (depth : Nat) :
    LinesMove ['\x7d'] ['\x7d'] (closureLines depth closures) := by
  induction closures with
  | nil => exact .nil _
  | cons closure closures ih =>
      obtain ⟨label, params, body⟩ := closure
      rw [List.forall_mem_cons] at h
      obtain ⟨⟨hlabel, hparams, hbody⟩, hrest⟩ := h
      have hclose : Moves ['\x7d'] [] "\x7d " := moves_of_read rfl
      have hname : Inert (label.getD defaultLabel) := by
        cases label with
        | none => exact moves_of_read rfl
        | some name => exact (hlabel name rfl).inert
      have hhead : Moves ['\x7d'] ['\x7d']
          ("\x7d " ++ label.getD defaultLabel ++ ": " ++ openBrace params) :=
        ((hclose.before hname).before (moves_of_read rfl)).append
          (moves_openBrace hparams)
      rw [closureLines]
      exact .cons hhead ((ih hrest).after (linesInert_views hbody (depth + 1)))

namespace ViewModifier

theorem inert_modifierHead {name : String} {args : List Arg} (hname : Plain name)
    (hargs : ∀ arg ∈ args, TameArg arg) (hasClosure : Bool) :
    Inert (modifierHead name args hasClosure) := by
  have hdotted : Inert ("." ++ name) := (Plain.append (plain_of_all rfl) hname).inert
  unfold modifierHead
  split
  · exact hdotted
  · exact inert_call hdotted (inert_argsText hargs)

theorem tame_mk {name : String} {args : List Arg} {trailing : List Closure} (hname : Plain name)
    (hargs : ∀ arg ∈ args, TameArg arg) (htrailing : ∀ c ∈ trailing, c.Tame) :
    (mk name args trailing).Tame := by
  intro depth
  cases trailing with
  | nil => exact .one (inert_modifierHead hname hargs false)
  | cons closure rest =>
      obtain ⟨label, params, body⟩ := closure
      rw [List.forall_mem_cons] at htrailing
      obtain ⟨⟨-, hparams, hbody⟩, hrest⟩ := htrailing
      have hspace : Inert " " := moves_of_read rfl
      have hhead : Moves [] ['\x7d'] (modifierHead name args true ++ " " ++ openBrace params) :=
        (moves_openBrace hparams).after ((inert_modifierHead hname hargs true).append hspace)
      rw [ViewModifier.lines]
      refine LinesMove.append (.cons hhead ?_) closes_block
      exact (linesMove_closures hrest depth).after (linesInert_views hbody (depth + 1))

theorem tame_plain {name : String} {args : List Arg} (hname : Plain name)
    (hargs : ∀ arg ∈ args, TameArg arg) : (plain name args).Tame :=
  tame_mk hname hargs (by simp)

theorem tame_single {name : String} {v : Value} (hname : Plain name) (h : v.Tame) :
    (single name v).Tame :=
  tame_mk hname (by simpa using tame_bare h) (by simp)

end ViewModifier

theorem ContainerKind.plain_name (kind : ContainerKind) : Plain kind.name := by
  cases kind <;> exact plain_of_all rfl

namespace View

theorem tame_leaf {kind : LeafKind} {args : List Arg} (hname : Plain kind.name)
    (hargs : ∀ arg ∈ args, TameArg arg) : (leaf kind args).Tame :=
  fun _ => .one (inert_call hname.inert (inert_argsText hargs))

theorem tame_text {v : Value} (h : v.Tame) : (text v).Tame :=
  tame_leaf (plain_of_all rfl) (by simpa using tame_bare h)

theorem tame_container {kind : ContainerKind} {args : List Arg} {content : List View}
    {trailing : List Closure} (hargs : ∀ arg ∈ args, TameArg arg)
    (hcontent : ∀ view ∈ content, view.Tame) (htrailing : ∀ c ∈ trailing, c.Tame) :
    (container kind args content trailing).Tame := by
  intro depth
  have hcall : Inert (containerHead kind args) := by
    unfold containerHead
    split
    · exact kind.plain_name.inert
    · exact inert_call kind.plain_name.inert (inert_argsText hargs)
  rw [View.lines]
  refine LinesMove.append (.cons (opens_block.after hcall) ?_) closes_block
  exact (linesMove_closures htrailing depth).after (linesInert_views hcontent (depth + 1))

theorem tame_ofContent {kind : ContainerKind} {args : List Arg} {content : List View}
    (hargs : ∀ arg ∈ args, TameArg arg) (hcontent : ∀ view ∈ content, view.Tame) :
    (ofContent kind args content).Tame :=
  tame_container hargs hcontent (by simp)

theorem tame_modified {inner : View} {chain : List ViewModifier} (h : inner.Tame)
    (hchain : ∀ m ∈ chain, m.Tame) : (modified inner chain).Tame := by
  intro depth
  rw [View.lines]
  refine LinesInert.append (linesInert_ite (fun _ => ?_) fun _ => h depth)
    (linesInert_modifiers hchain _)
  exact linesInert_block (moves_of_read rfl) (h (depth + 1))

theorem tame_conditional {condition : Value} {yes no : List View} (hcondition : condition.Tame)
    (hyes : ∀ view ∈ yes, view.Tame) (hno : ∀ view ∈ no, view.Tame) :
    (conditional condition yes no).Tame := by
  intro depth
  have hif : Inert "if " := moves_of_read rfl
  have hotherwise : LinesMove ['\x7d'] ['\x7d'] (if no.isEmpty then []
      else ⟨depth, "\x7d else \x7b"⟩ :: viewLines (depth + 1) no) := by
    split
    · exact .nil _
    · have helse : Moves ['\x7d'] ['\x7d'] "\x7d else \x7b" := moves_of_read rfl
      exact .cons helse ((linesInert_views hno (depth + 1)).moves _)
  rw [View.lines]
  refine LinesMove.append (.cons (opens_block.after (hif.append hcondition)) ?_) closes_block
  exact hotherwise.after (linesInert_views hyes (depth + 1))

/-- Modifiers are put outside a view, or outside the modifiers that it has already. -/
theorem tame_modify {view : View} {modifiers : List ViewModifier} (h : view.Tame)
    (hmodifiers : ∀ m ∈ modifiers, m.Tame) : (view.modify modifiers).Tame := by
  have hlines : ∀ depth chain more, modifierLines depth (chain ++ more) =
      modifierLines depth chain ++ modifierLines depth more := by
    intro depth chain more
    induction chain with
    | nil => rfl
    | cons m chain ih => rw [List.cons_append, modifierLines, modifierLines, ih, List.append_assoc]
  unfold modify
  split
  · exact h
  · cases view with
    | modified inner chain =>
        intro depth
        have hinner := h depth
        rw [View.lines] at hinner ⊢
        rw [hlines, ← List.append_assoc]
        exact hinner.append (linesInert_modifiers hmodifiers _)
    | container kind args content trailing => exact tame_modified h hmodifiers
    | leaf kind args => exact tame_modified h hmodifiers
    | conditional condition yes no => exact tame_modified h hmodifiers

end View

end Screenwright.Swift
