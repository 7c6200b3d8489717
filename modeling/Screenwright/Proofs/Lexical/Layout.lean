/-
The lines of a text and their indentation.

The width of indentation acts on the depths of lines and on nothing else.  To say so of the text
that the lines make, they have to be found in it again, each with its own depth.  Two things could
stand in the way: a line that breaks, and a line whose text begins with a blank, which nobody could
tell from indentation.  Tame code does not break.  How its lines begin is seen from the lines
themselves: all of them begin with words of the language, but for those that begin with the name
of a generated view, and a view says among its effects which views it makes.
-/
import Screenwright.Proofs.Lexical.Files
import Screenwright.Proofs.Lowering.Effects

namespace Screenwright

/-! ### Indentation in a text -/

namespace Text

/-- The line without the blanks at its begin. -/
def dropBlanks (line : String) : String :=
  String.ofList (line.toList.dropWhile (· = ' '))

/-- The number of blanks at the begin of a line. -/
def leadingBlanks (line : String) : Nat :=
  (line.toList.takeWhile (· = ' ')).length

/-- The text without the blanks at the begin of its lines. -/
def unindent (text : String) : String :=
  join "\n" ((segments '\n' text).map dropBlanks)

/-- The lines of the text without the blanks at their begin. -/
def codeLines (text : String) : List String :=
  (segments '\n' text).map dropBlanks

/-- How many blanks stand at the begin of each line of the text. -/
def indents (text : String) : List Nat :=
  (segments '\n' text).map leadingBlanks

/-- A text that does not begin with a blank. -/
def Flush (text : String) : Prop :=
  text.toList.head? ≠ some ' '

theorem Flush.append {t : String} (h : Flush t) {u : String} (hu : Flush u) : Flush (t ++ u) := by
  unfold Flush at h hu ⊢
  rw [String.toList_append, List.head?_append]
  cases ht : t.toList.head? with
  | none => simpa using hu
  | some c => simpa [ht] using h

/-- A word of the library is seen to be flush by its first character. -/
theorem flush_word {c : Char} {cs : List Char} (h : c ≠ ' ') : Flush (String.ofList (c :: cs)) := by
  rw [Flush, String.toList_ofList]
  simpa using h

/-- So is what begins with such a word, whatever follows. -/
theorem flush_word_append {c : Char} {cs : List Char} (h : c ≠ ' ') (rest : String) :
    Flush (String.ofList (c :: cs) ++ rest) := by
  rw [Flush, String.toList_append, String.toList_ofList]
  simpa using h

theorem span_blanks (n : Nat) {t : String} (h : Flush t) :
    dropBlanks (String.ofList (List.replicate n ' ') ++ t) = t ∧
      leadingBlanks (String.ofList (List.replicate n ' ') ++ t) = n := by
  have hdrop : t.toList.dropWhile (· = ' ') = t.toList := by
    unfold Flush at h
    cases ht : t.toList with
    | nil => rfl
    | cons c cs =>
        have hc : ¬ c = ' ' := by simpa [ht] using h
        rw [List.dropWhile_cons_of_neg (by simpa using hc)]
  have htake : t.toList.takeWhile (· = ' ') = [] := by
    have hlength := congrArg List.length
      (List.takeWhile_append_dropWhile (p := (· = ' ')) (l := t.toList))
    rw [hdrop, List.length_append] at hlength
    exact List.length_eq_zero_iff.mp (by omega)
  have hblanks : ∀ c ∈ List.replicate n ' ', decide (c = ' ') = true := fun c hc =>
    decide_eq_true (List.eq_of_mem_replicate hc)
  constructor
  · rw [dropBlanks, String.toList_append, String.toList_ofList,
      List.dropWhile_append_of_pos hblanks, hdrop]
    exact String.ofList_toList
  · rw [leadingBlanks, String.toList_append, String.toList_ofList,
      List.takeWhile_append_of_pos hblanks, htake]
    simp

end Text

namespace Swift

open Text (Flush flush_word flush_word_append)

/-! ### Lines in a text -/

namespace Line

variable {lines more : List Line} (width : Nat)

theorem textOf_one (line : Line) : textOf width [line] = line.indented width ++ "\n" := rfl

theorem textOf_cons (line : Line) (h : more ≠ []) :
    textOf width (line :: more) = line.indented width ++ "\n" ++ textOf width more := by
  cases more with
  | nil => exact absurd rfl h
  | cons next rest =>
      simp only [textOf, List.map_cons, Text.join, String.append_assoc]

theorem textOf_append (hlines : lines ≠ []) (hmore : more ≠ []) :
    textOf width (lines ++ more) = textOf width lines ++ textOf width more := by
  induction lines with
  | nil => exact absurd rfl hlines
  | cons line rest ih =>
      cases rest with
      | nil => rw [List.singleton_append, textOf_cons width line hmore, textOf_one]
      | cons next rest =>
          rw [List.cons_append, textOf_cons width line (by simp), ih (by simp),
            textOf_cons width line (by simp)]
          simp only [String.append_assoc]

theorem not_mem_indented {line : Line} (h : '\n' ∉ line.text.toList) :
    '\n' ∉ (line.indented width).toList := by
  unfold indented
  split
  · simp
  · rw [String.toList_append, String.toList_ofList, List.mem_append, not_or]
    exact ⟨fun hmem => absurd (List.eq_of_mem_replicate hmem) (by decide), h⟩

/-- The lines of a text are those that it was made of, and nothing stands behind the last. -/
theorem segments_textOf (hlines : lines ≠ []) (h : ∀ line ∈ lines, '\n' ∉ line.text.toList) :
    Text.segments '\n' (textOf width lines) = lines.map (indented width) ++ [""] := by
  induction lines with
  | nil => exact absurd rfl hlines
  | cons line rest ih =>
      rw [List.forall_mem_cons] at h
      have hline := Text.segmentsOf_of_not_mem (not_mem_indented width h.1)
      cases rest with
      | nil =>
          have hlist : (textOf width [line]).toList = (line.indented width).toList ++ '\n' :: [] := by
            rw [textOf_one, String.toList_append]
            rfl
          rw [Text.segments, hlist, Text.segmentsOf_append, hline]
          simp [Text.segmentsOf]
      | cons next rest =>
          have hlist : (textOf width (line :: next :: rest)).toList =
              (line.indented width).toList ++ '\n' :: (textOf width (next :: rest)).toList := by
            rw [textOf_cons width line (by simp), String.toList_append, String.toList_append]
            simp
          have hrest := ih (by simp) h.2
          rw [Text.segments] at hrest
          rw [Text.segments, hlist, Text.segmentsOf_append, hline, List.map_append, hrest]
          simp

/-- The depth of a line as far as it can be seen; that of a line without text cannot. -/
def shownDepth (line : Line) : Nat :=
  if line.text = "" then 0 else line.depth

theorem indented_zero (line : Line) : line.indented 0 = line.text := by
  unfold indented
  split
  next hempty => exact hempty.symm
  · simp

theorem blanks_indented {line : Line} (h : Flush line.text) :
    Text.dropBlanks (line.indented width) = line.text ∧
      Text.leadingBlanks (line.indented width) = line.shownDepth * width := by
  unfold indented shownDepth
  split
  next hempty =>
    rw [hempty, Nat.zero_mul]
    exact ⟨rfl, rfl⟩
  · exact Text.span_blanks _ h

/-- Lines that are found again in the text that they make. -/
structure Apart (lines : List Line) : Prop where
  some : lines ≠ []
  unbroken : ∀ line ∈ lines, '\n' ∉ line.text.toList
  flush : ∀ line ∈ lines, Flush line.text

/-- **The lines of the text are those that it was made of**, and an empty one behind the last. -/
theorem Apart.codeLines_textOf (h : Apart lines) :
    Text.codeLines (textOf width lines) = lines.map Line.text ++ [""] := by
  have htexts : (lines.map (indented width)).map Text.dropBlanks = lines.map Line.text := by
    rw [List.map_map]
    exact List.map_congr_left fun line hline => (blanks_indented width (h.flush line hline)).1
  rw [Text.codeLines, segments_textOf width h.some h.unbroken, List.map_append, htexts]
  rfl

/-- **Without indentation, the text is the same at every width.** -/
theorem Apart.unindent_textOf (h : Apart lines) :
    Text.unindent (textOf width lines) = textOf 0 lines := by
  have hjoin : ∀ texts : List String, texts ≠ [] →
      Text.join "\n" (texts ++ [""]) = Text.join "\n" texts ++ "\n" := by
    intro texts htexts
    induction texts with
    | nil => exact absurd rfl htexts
    | cons t rest ih =>
        cases rest with
        | nil => simp [Text.join]
        | cons u rest =>
            have hrest := ih (by simp)
            simp only [List.cons_append, Text.join] at hrest ⊢
            rw [hrest, String.append_assoc, String.append_assoc, String.append_assoc]
  have hzero : lines.map (indented 0) = lines.map Line.text :=
    List.map_congr_left fun line _ => indented_zero line
  have hcode := h.codeLines_textOf width
  rw [Text.codeLines] at hcode
  rw [Text.unindent, hcode, textOf, hzero]
  exact hjoin _ (by simpa using h.some)

/-- **The indentation of each line is its depth times the width.** -/
theorem Apart.indents_textOf (h : Apart lines) :
    Text.indents (textOf width lines) = (lines.map shownDepth ++ [0]).map (· * width) := by
  rw [Text.indents, segments_textOf width h.some h.unbroken, List.map_append, List.map_append,
    List.map_map, List.map_map]
  congr 1
  · exact List.map_congr_left fun line hline => (blanks_indented width (h.flush line hline)).2
  · simp [Text.leadingBlanks]

end Line

/-! ### How the lines of a view begin -/

/-- The generated views that are made have names that begin with no blank. -/
def MakesFlush (effects : List Effect) : Prop :=
  ∀ type, .view type ∈ effects → Flush type

theorem makesFlush_append {effects more : List Effect} :
    MakesFlush (effects ++ more) ↔ MakesFlush effects ∧ MakesFlush more := by
  simp only [MakesFlush, List.mem_append, or_imp, forall_and]

theorem ContainerKind.flush_head (kind : ContainerKind) (args : List Arg) :
    Flush (containerHead kind args ++ " \x7b") := by
  have hname : ∀ rest, Flush (kind.name ++ rest) := by
    intro rest
    cases kind <;> exact flush_word_append (by decide) rest
  unfold containerHead
  split
  · exact hname _
  · simp only [String.append_assoc]
    exact hname _

theorem LeafKind.flush_call {kind : LeafKind} {args : List Arg} (h : MakesFlush (kind.leads args)) :
    Flush (kind.name ++ "(" ++ argsText args ++ ")") := by
  rw [String.append_assoc, String.append_assoc]
  cases kind with
  | custom type => exact (h type (by simp)).append (by simp [Flush])
  | _ => exact flush_word_append (by decide) _

theorem flush_modifierHead (name : String) (args : List Arg) (hasClosure : Bool) (rest : String) :
    Flush (modifierHead name args hasClosure ++ rest) := by
  unfold modifierHead Flush
  split <;> simp

/-- Lines none of which begins with a blank. -/
def AllFlush (lines : List Line) : Prop :=
  ∀ line ∈ lines, Flush line.text

@[simp]
theorem allFlush_nil : AllFlush [] := by
  simp [AllFlush]

@[simp]
theorem allFlush_cons {line : Line} {lines : List Line} :
    AllFlush (line :: lines) ↔ Flush line.text ∧ AllFlush lines :=
  List.forall_mem_cons

@[simp]
theorem allFlush_append {lines more : List Line} :
    AllFlush (lines ++ more) ↔ AllFlush lines ∧ AllFlush more :=
  List.forall_mem_append

/-- Lines that leave the brackets as they are do not break. -/
theorem LinesInert.apart {lines : List Line} (h : LinesInert lines) (hsome : lines ≠ [])
    (hflush : AllFlush lines) : Line.Apart lines := by
  refine ⟨hsome, fun line hline hbreak => ?_, hflush⟩
  cases h.not_break line hline _ hbreak

mutual

theorem View.allFlush (depth : Nat) : ∀ view : View, MakesFlush view.effects →
    AllFlush (view.lines depth)
  | .leaf kind args, h => by
      rw [View.effects, makesFlush_append] at h
      rw [View.lines, allFlush_cons]
      exact ⟨LeafKind.flush_call h.1, allFlush_nil⟩
  | .container kind args content trailing, h => by
      simp only [View.effects, makesFlush_append] at h
      simp only [View.lines, List.cons_append, allFlush_cons, allFlush_append]
      exact ⟨kind.flush_head args, ⟨allFlush_views (depth + 1) content h.1.2,
        allFlush_closures depth trailing h.2⟩, by simp [Flush], allFlush_nil⟩
  | .modified inner chain, h => by
      rw [View.effects, makesFlush_append] at h
      rw [View.lines, allFlush_append]
      refine ⟨?_, allFlush_modifiers (depth + 1) chain h.2⟩
      split
      · simp only [List.cons_append, allFlush_cons, allFlush_append]
        exact ⟨by simp [Flush], View.allFlush (depth + 1) inner h.1, by simp [Flush],
          allFlush_nil⟩
      · exact View.allFlush depth inner h.1
  | .conditional condition yes no, h => by
      simp only [View.effects, makesFlush_append] at h
      simp only [View.lines, List.cons_append, allFlush_cons, allFlush_append]
      refine ⟨by simp [Flush], ⟨allFlush_views (depth + 1) yes h.1.2, ?_⟩, by simp [Flush],
        allFlush_nil⟩
      split
      · exact allFlush_nil
      · rw [allFlush_cons]
        exact ⟨by simp [Flush], allFlush_views (depth + 1) no h.2⟩

theorem allFlush_views (depth : Nat) : ∀ views : List View, MakesFlush (viewEffects views) →
    AllFlush (viewLines depth views)
  | [], _ => allFlush_nil
  | view :: rest, h => by
      rw [viewEffects, makesFlush_append] at h
      rw [viewLines, allFlush_append]
      exact ⟨View.allFlush depth view h.1, allFlush_views depth rest h.2⟩

theorem ViewModifier.allFlush (depth : Nat) : ∀ m : ViewModifier, MakesFlush m.effects →
    AllFlush (m.lines depth)
  | .mk name args [], _ => by
      rw [ViewModifier.lines, allFlush_cons]
      refine ⟨?_, allFlush_nil⟩
      have hhead := flush_modifierHead name args false ""
      rwa [String.append_empty] at hhead
  | .mk name args (.mk label params body :: rest), h => by
      simp only [ViewModifier.effects, closureEffects, makesFlush_append] at h
      simp only [ViewModifier.lines, List.cons_append, allFlush_cons, allFlush_append]
      refine ⟨?_, ⟨allFlush_views (depth + 1) body h.2.1, allFlush_closures depth rest h.2.2⟩,
        by simp [Flush], allFlush_nil⟩
      rw [String.append_assoc]
      exact flush_modifierHead name args true _

theorem allFlush_modifiers (depth : Nat) : ∀ chain : List ViewModifier,
    MakesFlush (modifierEffects chain) → AllFlush (modifierLines depth chain)
  | [], _ => allFlush_nil
  | m :: rest, h => by
      rw [modifierEffects, makesFlush_append] at h
      rw [modifierLines, allFlush_append]
      exact ⟨ViewModifier.allFlush depth m h.1, allFlush_modifiers depth rest h.2⟩

theorem allFlush_closures (depth : Nat) : ∀ closures : List Closure,
    MakesFlush (closureEffects closures) → AllFlush (closureLines depth closures)
  | [], _ => allFlush_nil
  | .mk label params body :: rest, h => by
      simp only [closureEffects, makesFlush_append] at h
      simp only [closureLines, List.cons_append, allFlush_cons, allFlush_append]
      exact ⟨by simp [Flush], allFlush_views (depth + 1) body h.1,
        allFlush_closures depth rest h.2⟩

end

/-! ### How the lines of a file begin -/

theorem flush_memberText (m : Member) : Flush m.text := by
  cases m with
  | state name type initial =>
      change Flush ("@State private var " ++ name ++ ": " ++ type ++ " = " ++ initial.text)
      simp only [String.append_assoc]
      exact flush_word_append (by decide) _
  | environment key name =>
      change Flush ("@Environment(\\." ++ key ++ ") private var " ++ name)
      simp only [String.append_assoc]
      exact flush_word_append (by decide) _
  | router => exact flush_word (by decide)
  | parameter name type default =>
      change Flush ("var " ++ name ++ ": " ++ type ++ " = " ++ default.text)
      simp [Flush]

@[simp]
theorem flush_blank : Flush Line.blank.text := by
  simp [Line.blank, Flush]

theorem allFlush_map {α : Type} {depth : Nat} {xs : List α} {text : α → String}
    (h : ∀ x ∈ xs, Flush (text x)) : AllFlush (xs.map fun x => ⟨depth, text x⟩) :=
  List.forall_mem_map.mpr h

theorem allFlush_flatMap {α : Type} {xs : List α} {lines : α → List Line}
    (h : ∀ x ∈ xs, AllFlush (lines x)) : AllFlush (xs.flatMap lines) := by
  intro line hline
  obtain ⟨x, hx, hline⟩ := List.mem_flatMap.mp hline
  exact h x hx line hline

theorem Handler.allFlush (handler : Handler) : AllFlush handler.lines := by
  simp [Handler.lines, Flush]

theorem allFlush_preview {screen : ScreenView} (h : Flush screen.viewType) :
    AllFlush (previewLines screen) := by
  have hcall : Flush (screen.viewType ++ "()") := h.append (by simp [Flush])
  simp only [previewLines, allFlush_append, allFlush_cons, hcall]
  split <;> simp [Flush]

theorem allFlush_members (members : List Member) : AllFlush (memberLines members) := by
  rw [memberLines, allFlush_append]
  refine ⟨allFlush_map fun m _ => flush_memberText m, ?_⟩
  split <;> simp

theorem ScreenView.allFlush {screen : ScreenView} (hviewType : Flush screen.viewType)
    (hbody : MakesFlush screen.body.effects) (preview : Bool) :
    AllFlush (screen.lines preview) := by
  have hhandlers : AllFlush (screen.handlers.flatMap fun h => .blank :: h.lines) :=
    allFlush_flatMap fun handler _ => allFlush_cons.mpr ⟨flush_blank, handler.allFlush⟩
  simp only [ScreenView.lines, ScreenView.viewLines, allFlush_append, allFlush_cons, flush_blank,
    allFlush_members, View.allFlush 2 _ hbody, hhandlers]
  refine ⟨by simp [Flush], ?_⟩
  split
  · exact allFlush_cons.mpr ⟨flush_blank, allFlush_preview hviewType⟩
  · exact allFlush_nil

theorem allFlush_initializer (properties : List StoredProperty) :
    AllFlush (initializerLines properties) := by
  have hassign : AllFlush (properties.map fun p =>
      ⟨2, "self." ++ withoutBackticks p.name ++ " = " ++ p.name⟩) :=
    allFlush_map fun p _ => by simp [Flush]
  unfold initializerLines
  split
  · simp [Flush]
  · simp only [allFlush_append, allFlush_cons, flush_blank, hassign]
    simp [Flush]

theorem allFlush_typeLines (type : DataType) : AllFlush type.typeLines := by
  have hproperties : AllFlush (type.properties.map fun p =>
      ⟨1, (if type.persisted && p.transient then "@Transient " else "") ++ "var " ++ p.text⟩) :=
    allFlush_map fun p _ => by split <;> simp [Flush]
  simp only [DataType.typeLines, allFlush_append]
  refine ⟨⟨⟨?_, hproperties⟩, ?_⟩, by simp [Flush]⟩
  · split <;> simp [Flush]
  · split
    · exact allFlush_initializer type.properties
    · exact allFlush_nil

theorem DataType.allFlush (type : DataType) : AllFlush type.lines := by
  simp only [DataType.lines, allFlush_append, allFlush_cons, flush_blank, allFlush_typeLines]
  simp [Flush]

namespace AppEntry

variable {entry : AppEntry}

theorem allFlush_app (entry : AppEntry) : AllFlush entry.appLines := by
  have hcontainer : AllFlush (containerLines entry.store) := by
    unfold containerLines
    split
    · simp only [allFlush_cons, flush_blank, allFlush_nil, true_and, and_true, String.append_assoc]
      refine ⟨flush_word (by decide), flush_word_append (by decide) _, ?_⟩
      and_intros <;> exact flush_word (by decide)
    · exact allFlush_nil
  have hstore : AllFlush (storeLines entry.store) := by
    unfold storeLines
    split
    · exact allFlush_nil
    · simp only [allFlush_cons, allFlush_nil, and_true, String.append_assoc]
      exact flush_word_append (by decide) _
    · exact allFlush_cons.mpr ⟨flush_word (by decide), allFlush_nil⟩
  have hscene : AllFlush (entry.sceneModifiers.map fun m =>
      ⟨4, "." ++ m.name ++ "(" ++ argsText m.args ++ ")"⟩) :=
    allFlush_map fun m _ => by simp [Flush]
  have hstruct : Flush ("struct " ++ entry.appType ++ ": App \x7b") := by
    rw [String.append_assoc]
    exact flush_word_append (by decide) _
  simp only [appLines, allFlush_append, allFlush_cons, flush_blank, hcontainer, hstore, hscene,
    hstruct, allFlush_nil, true_and, and_true]
  and_intros <;> exact flush_word (by decide)

theorem allFlush_routes (entry : AppEntry) : AllFlush entry.routeLines := by
  have hcases : AllFlush (entry.routes.map fun r => ⟨1, "case " ++ r.name⟩) :=
    allFlush_map fun r _ => by simp [Flush]
  have hlinks : AllFlush (entry.routes.flatMap Route.linkLines) :=
    allFlush_flatMap fun r _ => by
      unfold Route.linkLines
      split <;> simp [Flush]
  simp only [routeLines, allFlush_append, allFlush_cons, hcases]
  refine ⟨⟨by simp [Flush], ?_⟩, by simp [Flush]⟩
  split
  · simp only [allFlush_append, allFlush_cons, flush_blank, hlinks, allFlush_nil, true_and, and_true]
    refine ⟨⟨flush_word (by decide), flush_word_append (by decide) _, flush_word (by decide)⟩, ?_⟩
    and_intros <;> exact flush_word (by decide)
  · exact allFlush_nil

theorem allFlush_router (entry : AppEntry) : AllFlush entry.routerLines := by
  have hselection : AllFlush entry.selectionLines := by
    unfold selectionLines
    split
    · exact allFlush_nil
    · simp only [allFlush_cons, allFlush_nil, and_true, String.append_assoc]
      exact ⟨flush_word_append (by decide) _, flush_word (by decide), flush_word (by decide)⟩
  have hopen : AllFlush entry.openLines := by
    unfold openLines
    split
    · simp only [allFlush_append, allFlush_cons, flush_blank, allFlush_nil, true_and, and_true]
      refine ⟨⟨?_, ?_⟩, flush_word (by decide)⟩
      · and_intros <;> exact flush_word (by decide)
      · split
        all_goals
          simp only [allFlush_cons, allFlush_nil, and_true, String.append_assoc]
          refine ⟨flush_word_append (by decide) _, ?_⟩
          and_intros <;> exact flush_word (by decide)
    · exact allFlush_nil
  simp only [routerLines, allFlush_append, allFlush_cons, flush_blank, hselection, hopen,
    allFlush_nil, true_and, and_true]
  and_intros <;> exact flush_word (by decide)

theorem allFlush_root (hroutes : ∀ r ∈ entry.routes, Flush r.viewType)
    (hroot : MakesFlush entry.root.effects) : AllFlush entry.rootLines := by
  have hviews : AllFlush (entry.routes.flatMap Route.viewLines) := by
    refine allFlush_flatMap fun r hr => ?_
    have hcall : Flush (r.viewType ++ "()") := (hroutes r hr).append (by simp [Flush])
    simp only [Route.viewLines, allFlush_cons, hcall]
    simp [Flush]
  simp only [rootLines, allFlush_append, allFlush_cons, flush_blank, hviews,
    View.allFlush 2 _ hroot, allFlush_nil, true_and, and_true]
  and_intros <;> exact flush_word (by decide)

theorem allFlush (hroutes : ∀ r ∈ entry.routes, Flush r.viewType)
    (hroot : MakesFlush entry.root.effects) : AllFlush entry.lines := by
  have hdata : AllFlush (if entry.store = .none then [] else [⟨0, "import SwiftData"⟩]) := by
    split <;> simp [Flush]
  have htypes : AllFlush (entry.valueTypes.flatMap fun type => .blank :: type.typeLines) :=
    allFlush_flatMap fun type _ => allFlush_cons.mpr ⟨flush_blank, allFlush_typeLines type⟩
  simp only [lines, allFlush_append, allFlush_cons, flush_blank, hdata, htypes, allFlush_app,
    allFlush_routes, allFlush_router, allFlush_root hroutes hroot]
  simp [Flush]

end AppEntry

end Swift

end Screenwright
