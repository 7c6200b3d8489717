/-
Reading generated code bracket by bracket.

`Reader` is all that is known of Swift here: where string literals begin and end, and
which brackets are open.  A text is well formed if reading it never fails and ends
outside literals with nothing open.  Texts are put together from lines and these from pieces,
and what a piece does to the open brackets, `Moves`, is a matter of the piece alone: it never
looks below the brackets that it closes itself, and it stays on its line.  A piece that leaves
the brackets as they are is `Inert`.
-/
import Mathlib.Tactic.Common
import Screenwright.Swift.Literal

namespace Screenwright.Swift

/-! ### Reading -/

/-- Where a reader of code stands. -/
inductive Place where
  | code
  /-- Inside a string literal. -/
  | literal
  /-- Behind a backslash inside a string literal. -/
  | escaped
deriving DecidableEq, Repr

/-- A reader of code. -/
structure Reader where
  place : Place
  /-- The closing brackets still to come, the next one first. -/
  awaited : List Char
deriving DecidableEq, Repr

/-- The bracket that closes an opening one. -/
def closerOf? : Char → Option Char
  | '(' => some ')'
  | '[' => some ']'
  | '\x7b' => some '\x7d'
  | _ => none

/-- Whether a character closes a bracket. -/
def isCloser (c : Char) : Bool :=
  c = ')' || c = ']' || c = '\x7d'

/-- Whether a character ends a line. -/
def isBreak (c : Char) : Bool :=
  c = '\n' || c = '\r'

namespace Reader

/-- At the begin of a text. -/
def start : Reader := ⟨.code, []⟩

/-- Reads one character.  It fails on a closing bracket other than the next one, and on the
end of a line inside a literal. -/
def step (r : Reader) (c : Char) : Option Reader :=
  match r.place with
  | .code =>
    if c = '"' then some ⟨.literal, r.awaited⟩
    else
      match closerOf? c with
      | some d => some ⟨.code, d :: r.awaited⟩
      | none =>
        if isCloser c then
          match r.awaited with
          | d :: rest => if c = d then some ⟨.code, rest⟩ else none
          | [] => none
        else some r
  | .literal =>
    if c = '"' then some ⟨.code, r.awaited⟩
    else if c = '\\' then some ⟨.escaped, r.awaited⟩
    else if isBreak c then none
    else some r
  | .escaped => if isBreak c then none else some ⟨.literal, r.awaited⟩

/-- Reads some characters. -/
def read (r : Reader) (cs : List Char) : Option Reader :=
  cs.foldlM step r

theorem read_append (r : Reader) (cs ds : List Char) :
    r.read (cs ++ ds) = (r.read cs).bind fun r => r.read ds :=
  List.foldlM_append

theorem read_cons (r : Reader) (c : Char) (cs : List Char) :
    r.read (c :: cs) = (r.step c).bind fun r => r.read cs :=
  rfl

/-- Brackets below those that a step sees make no difference. -/
theorem step_below {p q : Place} {a b : List Char} {c : Char} (rest : List Char)
    (h : step ⟨p, a⟩ c = some ⟨q, b⟩) : step ⟨p, a ++ rest⟩ c = some ⟨q, b ++ rest⟩ := by
  cases p with
  | literal =>
      simp only [step] at h ⊢
      split at h
      next hquote => cases h; rw [if_pos hquote]
      next hquote =>
        split at h
        next hescape => cases h; rw [if_neg hquote, if_pos hescape]
        next hescape =>
          split at h
          · cases h
          next hbreak => cases h; rw [if_neg hquote, if_neg hescape, if_neg hbreak]
  | escaped =>
      simp only [step] at h ⊢
      split at h
      · cases h
      next hbreak => cases h; rw [if_neg hbreak]
  | code =>
      simp only [step] at h ⊢
      split at h
      next hquote => cases h; rw [if_pos hquote]
      next hquote =>
        rw [if_neg hquote]
        split at h
        next hopen => cases h; rfl
        next hopen =>
          split at h
          next hclose =>
            rw [if_pos hclose]
            cases a with
            | nil => cases h
            | cons d below =>
                simp only at h
                split at h
                next heq => cases h; exact if_pos heq
                · cases h
          next hclose => cases h; rw [if_neg hclose]

theorem read_below {cs : List Char} (rest : List Char) :
    ∀ {p q : Place} {a b : List Char}, read ⟨p, a⟩ cs = some ⟨q, b⟩ →
      read ⟨p, a ++ rest⟩ cs = some ⟨q, b ++ rest⟩ := by
  induction cs with
  | nil =>
      intro p q a b h
      cases h
      rfl
  | cons c cs ih =>
      intro p q a b h
      rw [read_cons] at h
      obtain ⟨⟨p', a'⟩, hstep, hread⟩ := Option.bind_eq_some_iff.mp h
      rw [read_cons, step_below rest hstep]
      exact ih hread

/-! ### Reading a line -/

/-- Reads some characters that all stand on one line. -/
def readOn (r : Reader) (cs : List Char) : Option Reader :=
  if cs.any isBreak then none else r.read cs

theorem readOn_eq_some {r r' : Reader} {cs : List Char} :
    r.readOn cs = some r' ↔ r.read cs = some r' ∧ ∀ c ∈ cs, isBreak c = false := by
  unfold readOn
  split
  next hbreak =>
    obtain ⟨c, hc, hbad⟩ := List.any_eq_true.mp hbreak
    refine iff_of_false (by simp) fun h => ?_
    rw [h.2 c hc] at hbad
    cases hbad
  next hbreak => simpa using fun _ => hbreak

theorem readOn_append {r between after : Reader} {cs ds : List Char}
    (hcs : r.readOn cs = some between) (hds : between.readOn ds = some after) :
    r.readOn (cs ++ ds) = some after := by
  rw [readOn_eq_some] at hcs hds ⊢
  rw [read_append, hcs.1, Option.bind_some, List.forall_mem_append]
  exact ⟨hds.1, hcs.2, hds.2⟩

end Reader

/-- **Whether a text is lexically well formed**: every string literal ends on the line on which
it begins, and the brackets outside literals are properly nested and all closed. -/
def isWellFormed (code : String) : Bool :=
  Reader.start.read code.toList = some .start

/-! ### What a piece of code does to the open brackets -/

/-- Reading the text, which stands on one line, takes the brackets `before` to the brackets
`after`, from code to code, whatever lies below them. -/
def Moves (before after : List Char) (t : String) : Prop :=
  ∀ rest, Reader.readOn ⟨.code, before ++ rest⟩ t.toList = some ⟨.code, after ++ rest⟩

/-- The text leaves the open brackets as they are. -/
def Inert (t : String) : Prop :=
  Moves [] [] t

section Moves

variable {a b c : List Char} {t u : String}

/-- What a text does to some brackets, it does above any others. -/
theorem moves_of_readOn (h : Reader.readOn ⟨.code, a⟩ t.toList = some ⟨.code, b⟩) :
    Moves a b t := by
  obtain ⟨hread, hline⟩ := Reader.readOn_eq_some.mp h
  exact fun rest => Reader.readOn_eq_some.mpr ⟨Reader.read_below rest hread, hline⟩

/-- So does a word of the library, which is checked character by character. -/
theorem moves_of_read {cs : List Char} (h : Reader.readOn ⟨.code, a⟩ cs = some ⟨.code, b⟩) :
    Moves a b (String.ofList cs) :=
  moves_of_readOn (by rwa [String.toList_ofList])

theorem Moves.read (h : Moves a b t) (rest : List Char) :
    Reader.read ⟨.code, a ++ rest⟩ t.toList = some ⟨.code, b ++ rest⟩ :=
  (Reader.readOn_eq_some.mp (h rest)).1

/-- Such a text stays on its line. -/
theorem Moves.not_break (h : Moves a b t) : ∀ c ∈ t.toList, isBreak c = false :=
  (Reader.readOn_eq_some.mp (h [])).2

theorem Moves.append (ht : Moves a b t) (hu : Moves b c u) : Moves a c (t ++ u) := by
  intro rest
  rw [String.toList_append]
  exact Reader.readOn_append (ht rest) (hu rest)

theorem Inert.moves (h : Inert t) (a : List Char) : Moves a a t :=
  fun rest => h (a ++ rest)

/-- An inert text before another. -/
theorem Moves.after (hu : Moves a b u) (ht : Inert t) : Moves a b (t ++ u) :=
  (ht.moves a).append hu

/-- An inert text behind another. -/
theorem Moves.before (ht : Moves a b t) (hu : Inert u) : Moves a b (t ++ u) :=
  ht.append (hu.moves b)

theorem inert_empty : Inert "" :=
  fun _ => rfl

theorem Inert.append (ht : Inert t) (hu : Inert u) : Inert (t ++ u) :=
  Moves.append ht hu

theorem inert_join {sep : String} (hsep : Inert sep) {ts : List String} (h : ∀ t ∈ ts, Inert t) :
    Inert (Text.join sep ts) :=
  Text.join_of_append inert_empty Inert.append hsep h

end Moves

/-! ### Plain text -/

/-- Whether a character means nothing to the reader, inside literals and outside them. -/
def isPlain (c : Char) : Bool :=
  !(['"', '\\', '(', ')', '[', ']', '\x7b', '\x7d', '\n', '\r'].contains c)

/-- A text of plain characters. -/
def Plain (t : String) : Prop :=
  ∀ c ∈ t.toList, isPlain c = true

theorem Plain.append {t u : String} (ht : Plain t) (hu : Plain u) : Plain (t ++ u) := by
  intro c hc
  rw [String.toList_append, List.mem_append] at hc
  exact hc.elim (ht c) (hu c)

/-- A word of the library is plain if its characters are. -/
theorem plain_of_all {cs : List Char} (h : cs.all isPlain = true) : Plain (String.ofList cs) := by
  rw [Plain, String.toList_ofList]
  exact List.all_eq_true.mp h

/-- So is each word of a list of them. -/
theorem plain_of_mem {words : List String}
    (h : words.all (fun word => word.toList.all isPlain) = true) {word : String}
    (hword : word ∈ words) : Plain word :=
  List.all_eq_true.mp (List.all_eq_true.mp h word hword)

theorem plain_join {sep : String} (hsep : Plain sep) {ts : List String} (h : ∀ t ∈ ts, Plain t) :
    Plain (Text.join sep ts) :=
  Text.join_of_append (plain_of_all rfl) Plain.append hsep h

namespace Reader

theorem step_of_isPlain {c : Char} (h : isPlain c = true) (a : List Char) :
    step ⟨.code, a⟩ c = some ⟨.code, a⟩ ∧ step ⟨.literal, a⟩ c = some ⟨.literal, a⟩ := by
  simp only [isPlain, List.contains_cons, List.contains_nil, Bool.or_false, Bool.not_eq_true',
    Bool.or_eq_false_iff, beq_eq_false_iff_ne] at h
  obtain ⟨hquote, hslash, hparen, hparen', hsquare, hsquare', hcurly, hcurly', hn, hr⟩ := h
  have hopen : closerOf? c = none := by
    unfold closerOf?
    split <;> simp_all
  constructor
  · simp [step, hquote, hopen, isCloser, hparen', hsquare', hcurly']
  · simp [step, hquote, hslash, isBreak, hn, hr]

theorem read_plain {cs : List Char} (h : ∀ c ∈ cs, isPlain c = true) (a : List Char) :
    read ⟨.code, a⟩ cs = some ⟨.code, a⟩ ∧ read ⟨.literal, a⟩ cs = some ⟨.literal, a⟩ := by
  induction cs with
  | nil => exact ⟨rfl, rfl⟩
  | cons c cs ih =>
      rw [List.forall_mem_cons] at h
      obtain ⟨hcode, hliteral⟩ := step_of_isPlain h.1 a
      rw [read_cons, read_cons, hcode, hliteral]
      exact ih h.2

end Reader

theorem not_break_of_isPlain {c : Char} (h : isPlain c = true) : isBreak c = false := by
  simp only [isPlain, List.contains_cons, List.contains_nil, Bool.or_false, Bool.not_eq_true',
    Bool.or_eq_false_iff, beq_eq_false_iff_ne] at h
  obtain ⟨-, -, -, -, -, -, -, -, hn, hr⟩ := h
  simp [isBreak, hn, hr]

theorem Plain.inert {t : String} (h : Plain t) : Inert t :=
  fun rest => Reader.readOn_eq_some.mpr
    ⟨(Reader.read_plain h rest).1, fun c hc => not_break_of_isPlain (h c hc)⟩

/-! ### String literals -/

/-- The letters of the short escapes, with the characters that they stand for. -/
def shortEscapes : List (Char × Char) :=
  [('\\', '\\'), ('"', '"'), ('n', '\n'), ('r', '\r'), ('t', '\t'), ('0', '\x00')]

/-- How a character stands in a literal: by a short escape, by its number, or as it is. -/
inductive Escapes (c : Char) : List Char → Prop
  | short {letter : Char} (h : (letter, c) ∈ shortEscapes) : Escapes c ['\\', letter]
  | numbered (h : isControl c = true) :
    Escapes c (['\\', 'u', '\x7b'] ++ hexDigits c.toNat ++ ['\x7d'])
  | plain (hslash : c ≠ '\\') (hquote : c ≠ '"') (hcontrol : isControl c = false) : Escapes c [c]

theorem escapes_escapeChar (c : Char) : Escapes c (escapeChar c) := by
  unfold escapeChar
  split
  next h =>
    subst h
    exact .short (by decide)
  split
  next h =>
    subst h
    exact .short (by decide)
  split
  next h =>
    subst h
    exact .short (by decide)
  split
  next h =>
    subst h
    exact .short (by decide)
  split
  next h =>
    subst h
    exact .short (by decide)
  split
  next h =>
    subst h
    exact .short (by decide)
  next hslash hquote _ _ _ _ =>
    split
    next hcontrol => exact .numbered hcontrol
    next hcontrol => exact .plain hslash hquote (Bool.eq_false_iff.mpr hcontrol)

theorem toNat_lt_of_isControl {c : Char} (h : isControl c = true) : c.toNat < 160 := by
  simp only [isControl, Bool.or_eq_true, Bool.and_eq_true, decide_eq_true_eq] at h
  omega

/-- A break is a control. -/
theorem not_break_of_not_control {c : Char} (h : isControl c = false) : isBreak c = false := by
  by_contra hbreak
  simp only [isBreak, Bool.or_eq_false_iff, decide_eq_false_iff_not, not_and_or, not_not] at hbreak
  rcases hbreak with rfl | rfl <;> cases h

theorem isPlain_hexDigits : ∀ n < 160, (hexDigits n).all isPlain = true := by
  decide +kernel

namespace Escapes

variable {c : Char} {piece : List Char}

/-- An escaped character leaves a literal open. -/
theorem read (h : Escapes c piece) (a : List Char) :
    Reader.read ⟨.literal, a⟩ piece = some ⟨.literal, a⟩ := by
  cases h with
  | short h =>
      have hbreak : ∀ entry ∈ shortEscapes, isBreak entry.1 = false := by decide
      simp [Reader.read_cons, Reader.step, hbreak _ h]
      rfl
  | numbered h =>
      -- Behind the backslash stand a letter, braces and digits, which mean nothing here.
      have hdigits := List.all_eq_true.mp (isPlain_hexDigits c.toNat (toNat_lt_of_isControl h))
      have hopen : Reader.read ⟨.literal, a⟩ ['\\', 'u', '\x7b'] = some ⟨.literal, a⟩ := rfl
      rw [Reader.read_append, Reader.read_append, hopen, Option.bind_some,
        (Reader.read_plain hdigits a).2]
      rfl
  | plain hslash hquote hcontrol =>
      have hbreak := not_break_of_not_control hcontrol
      simp [Reader.read_cons, Reader.step, hslash, hquote, hbreak]
      rfl

/-- A control does not stay one when it is escaped. -/
theorem not_control (h : Escapes c piece) : ∀ d ∈ piece, isControl d = false := by
  cases h with
  | short h =>
      have hletter : ∀ entry ∈ shortEscapes, isControl entry.1 = false := by decide
      rw [List.forall_mem_cons, List.forall_mem_singleton]
      exact ⟨rfl, hletter _ h⟩
  | numbered h =>
      have hdigits : ∀ n < 160, (hexDigits n).all (fun d => !isControl d) = true := by
        decide +kernel
      have hall := List.all_eq_true.mp (hdigits c.toNat (toNat_lt_of_isControl h))
      have hopen : ∀ d ∈ ['\\', 'u', '\x7b'], isControl d = false := by
        simp only [List.forall_mem_cons]
        exact ⟨rfl, rfl, rfl, List.forall_mem_nil _⟩
      rw [List.forall_mem_append, List.forall_mem_append, List.forall_mem_singleton]
      exact ⟨⟨hopen, fun d hd => by simpa using hall d hd⟩, rfl⟩
  | plain _ _ hcontrol => exact List.forall_mem_singleton.mpr hcontrol

end Escapes

theorem Reader.read_escapeChars (cs : List Char) (a : List Char) :
    read ⟨.literal, a⟩ (escapeChars cs) = some ⟨.literal, a⟩ := by
  induction cs with
  | nil => rfl
  | cons c cs ih =>
      rw [escapeChars, List.flatMap_cons, read_append, (escapes_escapeChar c).read]
      exact ih

/-- Characters of the library that are no breaks. -/
theorem not_break_of_all {cs : List Char} (h : cs.all (fun c => !isBreak c) = true) :
    ∀ c ∈ cs, isBreak c = false := by
  simpa using h

/-- No control stands inside a literal. -/
theorem not_control_escapeChars (cs : List Char) : ∀ d ∈ escapeChars cs, isControl d = false := by
  intro d hd
  obtain ⟨c, -, hc⟩ := List.mem_flatMap.mp hd
  exact (escapes_escapeChar c).not_control d hc

/-- **No text can leave the literal that it stands in, nor its line.** -/
theorem inert_stringLiteral (s : String) : Inert (stringLiteral s) := by
  intro rest
  rw [stringLiteral, String.toList_ofList, Reader.readOn_eq_some]
  constructor
  · show (Reader.read ⟨.literal, rest⟩ (escapeChars s.toList ++ ['"'])) = _
    rw [Reader.read_append, Reader.read_escapeChars]
    rfl
  · rw [List.cons_append, List.forall_mem_cons, List.forall_mem_append]
    refine ⟨rfl, fun d hd => ?_, not_break_of_all rfl⟩
    exact not_break_of_not_control (not_control_escapeChars _ d hd)

example : isWellFormed ("Text(" ++ stringLiteral "a \" )" ++ ")") = true := by decide

/-- A path shown inside a literal. -/
theorem inert_interpolation {path : String} (h : Plain path) :
    Inert ("\"\\(" ++ path ++ ")\"") := by
  intro rest
  rw [String.toList_append, String.toList_append, Reader.readOn_eq_some]
  constructor
  · rw [Reader.read_append, Reader.read_append]
    show ((Reader.read ⟨.literal, rest⟩ path.toList).bind _) = _
    rw [(Reader.read_plain h rest).2]
    rfl
  · rw [List.forall_mem_append, List.forall_mem_append]
    exact ⟨⟨not_break_of_all rfl, fun c hc => not_break_of_isPlain (h c hc)⟩, not_break_of_all rfl⟩

end Screenwright.Swift
