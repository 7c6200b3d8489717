/-
Values and statements leave the open brackets as they are.

A value is tame if its text is inert.  For every way to make a value there is a lemma that
says what it takes: a name has to be plain, a part has to be tame, and of text that comes
from an app nothing is asked, since it only ever stands in a literal.
-/
import Mathlib.Tactic.Common
import Screenwright.Proofs.Lexical.Names
import Screenwright.Proofs.Steps
import Screenwright.Swift.Default

namespace Screenwright

open Steps Swift

/-! ### Numbers -/

namespace Number

theorem isPlain_of_mem_digitsOf {n : Nat} : ∀ c ∈ digitsOf n, isPlain c = true := by
  intro c hc
  have hdigit : c.isDigit = true := Nat.isDigit_of_mem_toDigits (by decide) (by decide) hc
  exact Names.isPlain_of_isAlphanum (by simp [Char.isAlphanum, hdigit])

theorem isPlain_of_mem_shortest {tie : Tie} {x : Float} :
    ∀ c ∈ (shortest tie x).digits, isPlain c = true := by
  have hgrid : ∀ n grid, ∀ c ∈ (Digits.ofGrid n grid).digits, isPlain c = true := by
    intro n grid c hc
    refine isPlain_of_mem_digitsOf (n := n) c ?_
    exact List.mem_reverse.mp ((List.dropWhile_sublist _).mem (List.mem_reverse.mp hc))
  have hall : ∀ found : Option Digits, (∀ d, found = some d → ∀ c ∈ d.digits, isPlain c = true) →
      ∀ c ∈ (found.getD ⟨[], 0⟩).digits, isPlain c = true := by
    intro found hfound
    cases found with
    | none => simp
    | some d => exact hfound d rfl
  unfold shortest shortestOf
  dsimp only
  split
  · simp
  · refine hall _ fun d hd => ?_
    obtain ⟨k, -, hk⟩ := List.exists_of_findSome?_eq_some hd
    obtain ⟨n, -, rfl⟩ := Option.map_eq_some_iff.mp hk
    exact hgrid n _

theorem isPlain_of_mem_replicate {n : Nat} : ∀ c ∈ List.replicate n '0', isPlain c = true := by
  intro c hc
  rw [List.eq_of_mem_replicate hc]
  rfl

theorem isPlain_of_mem_positional {d : Digits} (h : ∀ c ∈ d.digits, isPlain c = true)
    (keepsPoint : Bool) : ∀ c ∈ d.positional keepsPoint, isPlain c = true := by
  unfold Digits.positional
  split
  · cases keepsPoint <;> exact List.all_eq_true.mp rfl
  split
  · rw [List.cons_append, List.cons_append, List.forall_mem_cons, List.forall_mem_cons,
      List.forall_mem_append]
    exact ⟨rfl, rfl, isPlain_of_mem_replicate, h⟩
  dsimp only
  split
  · rw [List.forall_mem_append, List.forall_mem_append]
    refine ⟨⟨h, isPlain_of_mem_replicate⟩, ?_⟩
    cases keepsPoint <;> exact List.all_eq_true.mp rfl
  · rw [List.forall_mem_append, List.forall_mem_cons]
    exact ⟨fun c hc => h c (List.mem_of_mem_take hc), rfl,
      fun c hc => h c (List.mem_of_mem_drop hc)⟩

theorem isPlain_of_mem_scientific {d : Digits} (h : ∀ c ∈ d.digits, isPlain c = true)
    (plusSign : Bool) : ∀ c ∈ d.scientific plusSign, isPlain c = true := by
  unfold Digits.scientific
  dsimp only
  rw [List.forall_mem_append, List.forall_mem_append, List.forall_mem_cons]
  refine ⟨⟨?_, rfl, ?_⟩, isPlain_of_mem_digitsOf⟩
  · split
    · exact List.all_eq_true.mp rfl
    next c heq => rwa [heq] at h
    next c rest heq =>
      rw [heq, List.forall_mem_cons] at h
      rw [List.forall_mem_cons, List.forall_mem_cons]
      exact ⟨h.1, rfl, h.2⟩
  · split
    · exact List.all_eq_true.mp rfl
    · cases plusSign <;> exact List.all_eq_true.mp rfl

theorem plain_write (form : Form) (x : Float) : Plain (String.ofList (form.write x)) := by
  have hsize : ∀ c ∈ (if (shortest form.tie x).digits.isEmpty ||
        form.positional (shortest form.tie x).exponent then
      (shortest form.tie x).positional form.keepsPoint
      else (shortest form.tie x).scientific form.plusSign), isPlain c = true := by
    split
    · exact isPlain_of_mem_positional isPlain_of_mem_shortest _
    · exact isPlain_of_mem_scientific isPlain_of_mem_shortest _
  intro c hc
  rw [String.toList_ofList] at hc
  unfold Form.write at hc
  dsimp only at hc
  split at hc
  · rcases List.mem_cons.mp hc with rfl | hc
    · rfl
    · exact hsize c hc
  · exact hsize c hc

/-- The words for what is no finite number. -/
theorem plain_writeWith (form : Form) (x : Float) : Plain (writeWith form x) := by
  unfold writeWith
  split
  · exact plain_of_all rfl
  split
  · split <;> exact plain_of_all rfl
  · exact plain_write form x

theorem isPlain_of_mem_placed (places n : Nat) : ∀ c ∈ placed places n, isPlain c = true := by
  have hpadded : ∀ c ∈ List.replicate (places + 1 - (digitsOf n).length) '0' ++ digitsOf n,
      isPlain c = true := by
    rw [List.forall_mem_append]
    exact ⟨isPlain_of_mem_replicate, isPlain_of_mem_digitsOf⟩
  unfold placed
  dsimp only
  split
  · exact hpadded
  · rw [List.forall_mem_append, List.forall_mem_cons]
    exact ⟨fun c hc => hpadded c (List.mem_of_mem_take hc), rfl,
      fun c hc => hpadded c (List.mem_of_mem_drop hc)⟩

theorem plain_fixed (places : Nat) (x : Float) : Plain (fixed places x) := by
  unfold fixed
  split
  · exact plain_of_all rfl
  split
  · split <;> exact plain_of_all rfl
  · intro c hc
    rw [String.toList_ofList] at hc
    unfold fixedChars at hc
    dsimp only at hc
    split at hc
    · rcases List.mem_cons.mp hc with rfl | hc
      · rfl
      · exact isPlain_of_mem_placed _ _ c hc
    · exact isPlain_of_mem_placed _ _ c hc

end Number

namespace Swift

theorem plain_toString_nat (n : Nat) : Plain (toString n) := by
  intro c hc
  rw [Nat.toString_eq_ofList_toDigits, String.toList_ofList] at hc
  exact Number.isPlain_of_mem_digitsOf c hc

theorem plain_toString_int (n : Int) : Plain (toString n) := by
  cases n with
  | ofNat n => exact plain_toString_nat n
  | negSucc n => exact Plain.append (plain_of_all rfl) (plain_toString_nat (n + 1))

theorem plain_number (x : Float) : Plain (number x) := by
  unfold number
  split
  · exact plain_of_all rfl
  split
  · split <;> exact plain_of_all rfl
  split
  · exact plain_of_all rfl
  dsimp only
  split
  · exact Number.plain_writeWith _ x
  · exact Number.plain_write _ x

/-! ### Pieces in brackets -/

theorem inert_call {t u : String} (ht : Inert t) (hu : Inert u) : Inert (t ++ "(" ++ u ++ ")") := by
  have hopen : Moves [] [')'] "(" := moves_of_read rfl
  exact ((hopen.after ht).before hu).append (moves_of_read rfl)

theorem inert_list {t : String} (ht : Inert t) : Inert ("[" ++ t ++ "]") := by
  have hopen : Moves [] [']'] "[" := moves_of_read rfl
  exact (hopen.before ht).append (moves_of_read rfl)

/-! ### Values -/

/-- A value that can stand in code. -/
def Value.Tame (v : Value) : Prop :=
  Inert v.text

/-- An argument that can stand in code. -/
structure TameArg (arg : Arg) : Prop where
  label : ∀ label, arg.1 = some label → Plain label
  value : arg.2.Tame

/-- A statement that can stand in code. -/
def Statement.Tame (s : Statement) : Prop :=
  Inert s.text

/-- Statements that can stand in code. -/
def TameStatements (body : List Statement) : Prop :=
  ∀ s ∈ body, s.Tame

theorem tame_bare {v : Value} (h : v.Tame) : TameArg (bare v) :=
  ⟨by simp [bare], h⟩

theorem tame_labeled {label : String} {v : Value} (hlabel : Plain label) (h : v.Tame) :
    TameArg (labeled label v) :=
  ⟨by rintro _ ⟨⟩; exact hlabel, h⟩

theorem inert_argsText {args : List Arg} (h : ∀ arg ∈ args, TameArg arg) :
    Inert (argsText args) := by
  refine inert_join (moves_of_read rfl) ?_
  induction args with
  | nil => simp [argTexts]
  | cons arg args ih =>
      obtain ⟨label, value⟩ := arg
      rw [List.forall_mem_cons] at h
      obtain ⟨⟨hlabel, hvalue⟩, hrest⟩ := h
      cases label with
      | none =>
          rw [argTexts, List.forall_mem_cons]
          exact ⟨hvalue, ih hrest⟩
      | some label =>
          rw [argTexts, List.forall_mem_cons]
          exact ⟨((hlabel label rfl).append (plain_of_all rfl)).inert.append hvalue, ih hrest⟩

namespace Value

theorem tame_string (s : String) : (string s).Tame :=
  inert_stringLiteral s

theorem tame_interpolation {path : String} (h : Plain path) : (interpolation path).Tame :=
  inert_interpolation h

theorem tame_int (n : Int) : (int n).Tame :=
  (plain_toString_int n).inert

theorem tame_number (x : Float) : (number x).Tame :=
  (plain_number x).inert

theorem tame_bool (b : Bool) : (bool b).Tame := by
  cases b <;> exact moves_of_read rfl

theorem tame_member {name : String} (h : Plain name) : (member name).Tame :=
  (Plain.append (plain_of_all rfl) h).inert

theorem tame_ident {name : String} (h : Plain name) : (ident name).Tame :=
  h.inert

theorem tame_binding {path : String} (h : Plain path) : (binding path).Tame :=
  (Plain.append (plain_of_all rfl) h).inert

theorem tame_constant {v : Value} (h : v.Tame) : (constant v).Tame := by
  have hopen : Moves [] [')'] ".constant(" := moves_of_read rfl
  show Inert (".constant(" ++ v.text ++ ")")
  exact (hopen.before h).append (moves_of_read rfl)

theorem tame_color (c : Rgba) : (color c).Tame := by
  have hfixed : ∀ x, Inert (Number.fixed 3 x) := fun x => (Number.plain_fixed 3 x).inert
  have hgreen : Inert ", green: " := moves_of_read rfl
  have hblue : Inert ", blue: " := moves_of_read rfl
  have hopacity : Inert ", opacity: " := moves_of_read rfl
  have hopen : Moves [] [')'] "Color(red: " := moves_of_read rfl
  have hlast : Inert (if c.a < 1.0 then ", opacity: " ++ Number.fixed 3 c.a else "") := by
    split
    · exact hopacity.append (hfixed _)
    · exact inert_empty
  show Inert (colorText c)
  refine Moves.append ?_ (moves_of_read rfl : Moves [')'] [] ")")
  exact (((((hopen.before (hfixed _)).before hgreen).before (hfixed _)).before hblue).before
    (hfixed _)).before hlast

theorem tame_font (size : Float) {weight design : String} (hweight : Plain weight)
    (hdesign : Plain design) : (font size weight design).Tame := by
  have hopen : Moves [] [')'] ".system(size: " := moves_of_read rfl
  have hhead := ((hopen.before (plain_number size).inert).before
    (moves_of_read rfl : Inert ", weight: ")).before hweight.inert
  have hall := (hhead.before (moves_of_read rfl : Inert ", design: ")).before hdesign.inert
  exact hall.append (moves_of_read rfl)

theorem tame_call {callee : String} {args : List Arg} (hcallee : Plain callee)
    (hargs : ∀ arg ∈ args, TameArg arg) : (call callee args).Tame :=
  inert_call hcallee.inert (inert_argsText hargs)

theorem tame_method {receiver : Value} {name : String} {args : List Arg} (h : receiver.Tame)
    (hname : Plain name) (hargs : ∀ arg ∈ args, TameArg arg) :
    (method receiver name args).Tame := by
  have hhead : Inert (receiver.text ++ "." ++ name) :=
    (Inert.append h (moves_of_read rfl)).append hname.inert
  exact inert_call hhead (inert_argsText hargs)

theorem tame_array {items : List Value} (h : ∀ v ∈ items, v.Tame) : (array items).Tame := by
  refine inert_list (inert_join (moves_of_read rfl) ?_)
  induction items with
  | nil => simp [valueTexts]
  | cons v items ih =>
      rw [List.forall_mem_cons] at h
      rw [valueTexts, List.forall_mem_cons]
      exact ⟨h.1, ih h.2⟩

theorem tame_range {low high : Value} (hlow : low.Tame) (hhigh : high.Tame) :
    (range low high).Tame :=
  (Inert.append hlow (moves_of_read rfl)).append hhigh

theorem inert_statementTexts {body : List Statement} (h : TameStatements body) :
    ∀ t ∈ statementTexts body, Inert t := by
  induction body with
  | nil => simp [statementTexts]
  | cons s body ih =>
      rw [TameStatements, List.forall_mem_cons] at h
      rw [statementTexts, List.forall_mem_cons]
      exact ⟨h.1, ih h.2⟩

theorem tame_action {body : List Statement} (h : TameStatements body) : (action body).Tame := by
  have hopen : Moves [] ['\x7d'] "\x7b " := moves_of_read rfl
  have hclose : Moves ['\x7d'] [] " \x7d" := moves_of_read rfl
  have hempty : Inert "\x7b\x7d" := moves_of_read rfl
  have hsep : Inert "; " := moves_of_read rfl
  show Inert (if body.isEmpty then "\x7b\x7d"
    else "\x7b " ++ Text.join "; " (statementTexts body) ++ " \x7d")
  split
  · exact hempty
  · exact (hopen.before (inert_join hsep (inert_statementTexts h))).append hclose

theorem tame_nil : nil.Tame :=
  moves_of_read rfl

end Value

namespace Statement

theorem tame_navigate {route : String} (h : Plain route) : (navigate route).Tame := by
  have hopen : Moves [] [')'] "router.navigate(to: ." := moves_of_read rfl
  exact (hopen.before h.inert).append (moves_of_read rfl)

theorem tame_present {flag : String} (h : Plain flag) : (present flag).Tame :=
  (h.append (plain_of_all rfl)).inert

theorem tame_dismiss : dismiss.Tame :=
  moves_of_read rfl

theorem tame_invoke {name : String} {args : List Arg} (hname : Plain name)
    (hargs : ∀ arg ∈ args, TameArg arg) : (invoke name args).Tame :=
  inert_call hname.inert (inert_argsText hargs)

end Statement

/-! ### Types and initial values -/

/-- Every data model that the type holds has a name that can be written. -/
def NamedType (type : ValueType) : Prop :=
  ∀ model, type.heldModel? = some model → (Names.typeName? model).isSome = true

theorem plain_modelName {model : String} (h : (Names.typeName? model).isSome = true) :
    Plain (typeText (.model model)) := by
  obtain ⟨name, hname⟩ := Option.isSome_iff_exists.mp h
  rw [typeText, hname]
  exact Names.plain_of_typeName? hname

theorem inert_typeText {type : ValueType} (h : NamedType type) : Inert (typeText type) := by
  induction type with
  | string => exact moves_of_read rfl
  | int => exact moves_of_read rfl
  | double => exact moves_of_read rfl
  | bool => exact moves_of_read rfl
  | date => exact moves_of_read rfl
  | array item ih => exact inert_list (ih h)
  | optional inner ih => exact (ih h).append (moves_of_read rfl)
  | model name => exact (plain_modelName (h name rfl)).inert

theorem tame_zeroValue {type : ValueType} (h : NamedType type) : (zeroValue type).Tame := by
  cases type with
  | string => exact Value.tame_string ""
  | int => exact Value.tame_int 0
  | double => exact Value.tame_number 0.0
  | bool => exact Value.tame_bool false
  | date => exact Value.tame_member (plain_of_all rfl)
  | array item => exact Value.tame_array (by simp)
  | optional inner => exact Value.tame_nil
  | model name => exact Value.tame_call (plain_modelName (h name rfl)) (by simp)

/-- A literal of one of the types that a value is read for at once. -/
theorem tame_of_map {α : Type} {make : α → Value} {read : Option α} {v : Value}
    (hmake : ∀ a, (make a).Tame) (hv : read.map make = some v) : v.Tame := by
  obtain ⟨a, -, rfl⟩ := Option.map_eq_some_iff.mp hv
  exact hmake a

/-- The literal of `null` is the zero value, so only other values need a look. -/
theorem tame_literal_of {type : ValueType} {value : Json} {v : Value} (h : NamedType type)
    (hv : literal type value = .ok v) (hother : ¬value.isNull = true → v.Tame) : v.Tame := by
  by_cases hnull : value.isNull = true
  · rw [literal, if_pos hnull] at hv
    cases hv
    exact tame_zeroValue h
  · exact hother hnull

/-- A literal that is read for a type is tame: it holds no text but in literals. -/
theorem tame_literal {type : ValueType} {value : Json} {v : Value} (h : NamedType type)
    (hv : literal type value = .ok v) : v.Tame := by
  induction type generalizing value v with
  | string =>
      refine tame_literal_of h hv fun hnull => ?_
      rw [literal, if_neg hnull] at hv
      dsimp only at hv
      split at hv
      next w hw => cases hv; exact tame_of_map Value.tame_string hw
      · cases hv
  | int =>
      refine tame_literal_of h hv fun hnull => ?_
      rw [literal, if_neg hnull] at hv
      dsimp only at hv
      split at hv
      next w hw => cases hv; exact tame_of_map Value.tame_int hw
      · cases hv
  | double =>
      refine tame_literal_of h hv fun hnull => ?_
      rw [literal, if_neg hnull] at hv
      dsimp only at hv
      split at hv
      next w hw => cases hv; exact tame_of_map Value.tame_number hw
      · cases hv
  | bool =>
      refine tame_literal_of h hv fun hnull => ?_
      rw [literal, if_neg hnull] at hv
      dsimp only at hv
      split at hv
      next w hw => cases hv; exact tame_of_map Value.tame_bool hw
      · cases hv
  | date =>
      refine tame_literal_of h hv fun hnull => ?_
      rw [literal, if_neg hnull] at hv
      dsimp only at hv
      split at hv
      · cases hv; exact Value.tame_member (plain_of_all rfl)
      · cases hv
  | array item ih =>
      refine tame_literal_of h hv fun hnull => ?_
      rw [literal, if_neg hnull] at hv
      dsimp only at hv
      split at hv
      · cases hv
      · obtain ⟨items, hitems, rfl⟩ := map_eq_ok.mp hv
        exact Value.tame_array (forall_of_mapM_eq_ok hitems fun _ _ _ hitem => ih h hitem)
  | optional inner ih =>
      refine tame_literal_of h hv fun hnull => ?_
      rw [literal, if_neg hnull] at hv
      exact ih h hv
  | model name =>
      refine tame_literal_of h hv fun hnull => ?_
      rw [literal, if_neg hnull] at hv
      cases hv

/-- **The initial value of a variable or a property is tame.** -/
theorem tame_defaultValue {type : ValueType} (h : NamedType type) {default : Option Json}
    {v : Value} (hv : defaultValue type default = .ok v) : v.Tame := by
  cases default with
  | none =>
      cases hv
      exact tame_zeroValue h
  | some value => exact tame_literal h hv

end Swift

end Screenwright
