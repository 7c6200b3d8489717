/-
Reading literals back.

`readLiteral?` is what the language says of a literal on one line: a backslash begins an escape,
which stands for one character, a quote ends the literal, and neither the end of a line nor an
interpolation belongs to its text.  Reading goes on behind what a character was escaped to as if
the character had been read, whatever stands there, also a digit behind a character that is
written by its number.  So what follows a literal is never taken for a part of it, nor a part of
it for code.
-/
import Screenwright.Proofs.Lexical.Brackets
import Screenwright.Proofs.Tokens

namespace Screenwright.Swift

/-! ### Reading -/

/-- The number of one to eight hexadecimal digits. -/
def readHex (digits : List Char) : Option Nat :=
  if 1 ≤ digits.length ∧ digits.length ≤ 8 then
    (digits.mapM Rgba.hexDigit?).map fun values => values.foldl (fun n d => 16 * n + d) 0
  else none

/-- Reads an escape behind its backslash: the character that it stands for, and what follows it. -/
def readEscape? : List Char → Option (Char × List Char)
  | 'u' :: '\x7b' :: cs => do
    let (digits, rest) ← Text.cutFirst '\x7d' cs
    let n ← readHex digits
    if n.isValidChar then some (Char.ofNat n, rest) else none
  | letter :: rest => (shortEscapes.lookup letter).map fun c => (c, rest)
  | [] => none

/-- An escape is not empty. -/
theorem length_lt_of_readEscape? {cs rest : List Char} {c : Char}
    (h : readEscape? cs = some (c, rest)) : rest.length < cs.length := by
  unfold readEscape? at h
  split at h
  · obtain ⟨⟨digits, rest'⟩, hcut, h⟩ := Option.bind_eq_some_iff.mp h
    obtain ⟨n, -, h⟩ := Option.bind_eq_some_iff.mp h
    split at h
    · cases h
      rw [Text.eq_of_cutFirst hcut]
      simp
      omega
    · cases h
  · obtain ⟨d, -, heq⟩ := Option.map_eq_some_iff.mp h
    cases heq
    simp
  · cases h

/-- Reads a literal behind its opening quote: its text, and what follows its closing quote. -/
def readText? : List Char → Option (List Char × List Char)
  | [] => none
  | c :: cs =>
    if c = '"' then some ([], cs)
    else if c = '\\' then
      match _h : readEscape? cs with
      | some (d, rest) => (readText? rest).map fun (text, after) => (d :: text, after)
      | none => none
    else if isBreak c then none
    else (readText? cs).map fun (text, after) => (c :: text, after)
termination_by cs => cs.length
decreasing_by
  · have := length_lt_of_readEscape? _h
    rw [List.length_cons]
    omega
  · simp

/-- Reads a literal: its text, and what follows it. -/
def readLiteral? : List Char → Option (String × List Char)
  | '"' :: cs => (readText? cs).map fun (text, after) => (String.ofList text, after)
  | _ => none

/-! ### Reading what is written -/

theorem readHex_hexDigits : ∀ n < 160, readHex (hexDigits n) = some n := by
  decide +kernel

theorem brace_not_mem_hexDigits : ∀ n < 160, '\x7d' ∉ hexDigits n := by
  decide +kernel

theorem readText?_escape {c : Char} {cs rest : List Char} (h : readEscape? cs = some (c, rest)) :
    readText? ('\\' :: cs) = (readText? rest).map fun (text, after) => (c :: text, after) := by
  rw [readText?, if_neg (by decide), if_pos rfl]
  split
  next heq =>
    rw [h] at heq
    cases heq
    rfl
  next heq =>
    rw [h] at heq
    cases heq

/-- The character neither ends a literal nor its line, and begins no escape. -/
structure IsInner (c : Char) : Prop where
  quote : c ≠ '"'
  slash : c ≠ '\\'
  noBreak : isBreak c = false

instance (c : Char) : Decidable (IsInner c) :=
  decidable_of_iff (c ≠ '"' ∧ c ≠ '\\' ∧ isBreak c = false)
    ⟨fun ⟨quote, slash, noBreak⟩ => ⟨quote, slash, noBreak⟩, fun h => ⟨h.1, h.2, h.3⟩⟩

theorem isInner_of_isPlain {c : Char} (h : isPlain c = true) : IsInner c := by
  refine ⟨?_, ?_, not_break_of_isPlain h⟩ <;>
    rintro rfl <;> cases h

theorem Reader.read_inner {cs : List Char} (h : ∀ c ∈ cs, IsInner c) (a : List Char) :
    read ⟨.literal, a⟩ cs = some ⟨.literal, a⟩ := by
  induction cs with
  | nil => rfl
  | cons c cs ih =>
      rw [List.forall_mem_cons] at h
      obtain ⟨⟨hquote, hslash, hbreak⟩, hrest⟩ := h
      have hstep : step ⟨.literal, a⟩ c = some ⟨.literal, a⟩ := by
        simp [step, hquote, hslash, hbreak]
      rw [read_cons, hstep]
      exact ih hrest

/-- Behind the text, at whose begin it was in a literal, the reader of code still is, and the next
character neither ends the literal nor begins an interpolation: a quote stands behind the backslash
of an escape, and a parenthesis does not. -/
def StaysWithin (before : List Char) (next : Char) : Prop :=
  ∃ place ≠ Place.code, Reader.read ⟨.literal, []⟩ before = some ⟨place, []⟩ ∧
    (next = '"' → place = .escaped) ∧ (next = '(' → place = .literal)

namespace Escapes

variable {c : Char} {piece : List Char}

/-- What a character is escaped to is read as the character, whatever follows it. -/
theorem readText?_append (h : Escapes c piece) (cs : List Char) :
    readText? (piece ++ cs) = (readText? cs).map fun (text, after) => (c :: text, after) := by
  cases h with
  | @short letter h =>
      have hlookup : ∀ entry ∈ shortEscapes, ∀ cs,
          readEscape? (entry.1 :: cs) = some (entry.2, cs) := by
        simp only [shortEscapes, List.forall_mem_cons]
        exact ⟨fun _ => rfl, fun _ => rfl, fun _ => rfl, fun _ => rfl, fun _ => rfl, fun _ => rfl,
          by simp⟩
      exact readText?_escape (hlookup _ h cs)
  | numbered h =>
      have hsmall := toNat_lt_of_isControl h
      have hread : readEscape? ('u' :: '\x7b' :: (hexDigits c.toNat ++ '\x7d' :: cs)) =
          some (c, cs) := by
        rw [readEscape?, Text.cutFirst_append cs (brace_not_mem_hexDigits _ hsmall)]
        simp only [Option.bind_eq_bind, Option.bind_some, readHex_hexDigits _ hsmall]
        rw [if_pos (show c.toNat.isValidChar from c.valid), Char.ofNat_toNat]
      have hpiece : ['\\', 'u', '\x7b'] ++ hexDigits c.toNat ++ ['\x7d'] ++ cs =
          '\\' :: 'u' :: '\x7b' :: (hexDigits c.toNat ++ '\x7d' :: cs) := by simp
      rw [hpiece]
      exact readText?_escape hread
  | plain hslash hquote hcontrol =>
      rw [List.singleton_append, readText?, if_neg hquote, if_neg hslash,
        if_neg (by rw [not_break_of_not_control hcontrol]; decide)]

/-- None of the characters that a character is escaped to leaves the literal. -/
theorem staysWithin (h : Escapes c piece) {before after : List Char} {d : Char}
    (hpiece : piece = before ++ d :: after) : StaysWithin before d := by
  cases h with
  | @short letter h =>
      have hletter : ∀ entry ∈ shortEscapes, entry.1 ≠ '(' := by decide
      rcases before with _ | ⟨b, before⟩
      · cases hpiece
        exact ⟨.literal, by decide, rfl, by decide, by decide⟩
      · obtain ⟨rfl, hpiece⟩ := List.cons.inj hpiece
        obtain ⟨rfl, rfl, rfl⟩ : before = [] ∧ d = letter ∧ after = [] := by
          simpa [List.singleton_eq_append_iff] using hpiece
        exact ⟨.escaped, by decide, rfl, fun _ => rfl, fun hd => absurd hd (hletter _ h)⟩
  | numbered h =>
      have hdigits := List.all_eq_true.mp (isPlain_hexDigits c.toNat (toNat_lt_of_isControl h))
      have hinner : ∀ x ∈ '\x7b' :: (hexDigits c.toNat ++ ['\x7d']), IsInner x := by
        rw [List.forall_mem_cons, List.forall_mem_append, List.forall_mem_singleton]
        exact ⟨by decide, fun x hx => isInner_of_isPlain (hdigits x hx), by decide⟩
      rcases before with _ | ⟨b, _ | ⟨b', before⟩⟩
      · cases hpiece
        exact ⟨.literal, by decide, rfl, by decide, by decide⟩
      · cases hpiece
        exact ⟨.escaped, by decide, rfl, by decide, by decide⟩
      · -- Behind the letter the literal goes on until the escape ends.
        obtain ⟨rfl, rfl, hsplit⟩ : '\\' = b ∧ 'u' = b' ∧
            '\x7b' :: (hexDigits c.toNat ++ ['\x7d']) = before ++ d :: after := by
          simpa using hpiece
        rw [hsplit, List.forall_mem_append, List.forall_mem_cons] at hinner
        obtain ⟨hbefore, hd, -⟩ := hinner
        exact ⟨.literal, by decide, Reader.read_inner hbefore [],
          fun heq => absurd heq hd.quote, fun _ => rfl⟩
  | plain _ hquote _ =>
      obtain ⟨rfl, rfl, rfl⟩ : before = [] ∧ d = c ∧ after = [] := by
        simpa [List.singleton_eq_append_iff] using hpiece
      exact ⟨.literal, by decide, rfl, fun heq => absurd heq hquote, fun _ => rfl⟩

end Escapes

/-- **What has been escaped is read back**, whatever follows the literal. -/
theorem readText?_escapeChars (cs after : List Char) :
    readText? (escapeChars cs ++ '"' :: after) = some (cs, after) := by
  induction cs with
  | nil => rw [escapeChars, List.flatMap_nil, List.nil_append, readText?, if_pos rfl]
  | cons c cs ih =>
      rw [escapeChars, List.flatMap_cons, List.append_assoc,
        (escapes_escapeChar c).readText?_append, ← escapeChars, ih]
      rfl

/-- **Nothing that has been escaped leaves its literal.** -/
theorem staysWithin_of_escapeChars {cs : List Char} :
    ∀ {before after : List Char} {d : Char}, escapeChars cs = before ++ d :: after →
      StaysWithin before d := by
  induction cs with
  | nil => simp [escapeChars]
  | cons c cs ih =>
      intro before after d h
      rw [escapeChars, List.flatMap_cons, ← escapeChars, List.append_eq_append_iff] at h
      rcases h with ⟨more, rfl, hmore⟩ | ⟨_ | ⟨b, more⟩, hpiece, hmore⟩
      · rw [StaysWithin, Reader.read_append, (escapes_escapeChar c).read]
        exact ih hmore
      · rw [List.append_nil] at hpiece
        rw [StaysWithin, ← hpiece, (escapes_escapeChar c).read]
        have hnext : StaysWithin [] d := ih hmore.symm
        exact hnext
      · obtain ⟨rfl, -⟩ := List.cons.inj hmore
        exact (escapes_escapeChar c).staysWithin hpiece

/-- **A literal is read as the text that it was made from.**  Whatever follows the literal, reading
it gives the text and stops at its end; no character of it is a control or ends a line, and none
ends the literal or begins an interpolation; and different texts have different literals. -/
theorem literals_read_back (s : String) :
    (∀ after, readLiteral? ((stringLiteral s).toList ++ after) = some (s, after)) ∧
      (∀ c ∈ escapeChars s.toList, isControl c = false ∧ isBreak c = false) ∧
      (∀ before c after, escapeChars s.toList = before ++ c :: after → StaysWithin before c) ∧
      ∀ t, stringLiteral t = stringLiteral s → t = s := by
  have hread : ∀ t after, readLiteral? ((stringLiteral t).toList ++ after) = some (t, after) := by
    intro t after
    have hcode : (stringLiteral t).toList ++ after =
        '"' :: (escapeChars t.toList ++ '"' :: after) := by simp [stringLiteral]
    rw [hcode, readLiteral?, readText?_escapeChars]
    simp
  refine ⟨hread s, fun c hc => ?_, fun _ _ _ h => staysWithin_of_escapeChars h, fun t heq => ?_⟩
  · have hcontrol := not_control_escapeChars _ c hc
    exact ⟨hcontrol, not_break_of_not_control hcontrol⟩
  · have hboth := hread t []
    rw [heq, hread s []] at hboth
    cases hboth
    rfl

/-- A text that looks like an interpolation, with a bell before a digit: behind its literal the code
goes on, and neither the parenthesis nor the quote in it is taken for more than it is. -/
theorem literal_of_bell :
    readLiteral? ("\"\\\\(id)\\\"\\u\x7b7\x7df\"".toList ++ [')']) =
        some ("\\(id)\"\x07f", [')']) ∧
      StaysWithin ['\\', '\\'] '(' ∧
      StaysWithin ['\\', '\\', '(', 'i', 'd', ')', '\\'] '"' := by
  obtain ⟨hread, -, hwithin, -⟩ := literals_read_back "\\(id)\"\x07f"
  have hliteral : stringLiteral "\\(id)\"\x07f" = "\"\\\\(id)\\\"\\u\x7b7\x7df\"" := by decide
  exact ⟨hliteral ▸ hread [')'], hwithin _ _ "id)\\\"\\u\x7b7\x7df".toList (by decide),
    hwithin _ _ "\\u\x7b7\x7df".toList (by decide)⟩

end Screenwright.Swift
