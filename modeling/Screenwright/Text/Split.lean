/-
Cutting a text at a separator, and putting pieces together.

`segments` keeps every piece, also the empty ones, so that joining the segments
with the separator gives the text back.
-/

namespace Screenwright.Text

/-- The pieces of a text between the occurrences of `sep`. -/
def segmentsOf (sep : Char) : List Char → List (List Char)
  | [] => [[]]
  | c :: cs =>
    if c = sep then [] :: segmentsOf sep cs
    else
      match segmentsOf sep cs with
      | [] => [[c]]
      | piece :: rest => (c :: piece) :: rest

theorem segmentsOf_ne_nil (sep : Char) (cs : List Char) : segmentsOf sep cs ≠ [] := by
  cases cs with
  | nil => simp [segmentsOf]
  | cons c cs =>
    simp only [segmentsOf]
    split
    · simp
    · split <;> simp

/-- No piece holds the separator. -/
theorem not_mem_of_mem_segmentsOf {sep : Char} {cs piece : List Char}
    (h : piece ∈ segmentsOf sep cs) : sep ∉ piece := by
  induction cs generalizing piece with
  | nil => simp_all [segmentsOf]
  | cons c cs ih =>
    simp only [segmentsOf] at h
    split at h
    · rcases List.mem_cons.mp h with rfl | h
      · simp
      · exact ih h
    · next hc =>
      have hne : ¬ sep = c := fun e => hc e.symm
      split at h
      · simp_all
      · next first rest hs =>
        rcases List.mem_cons.mp h with rfl | h
        · simpa [hne] using ih (hs ▸ List.mem_cons_self)
        · exact ih (hs ▸ List.mem_cons_of_mem _ h)

/-- Every character of a text is the separator or stands in a piece. -/
theorem mem_segmentsOf {sep c : Char} {cs : List Char} (h : c ∈ cs) :
    c = sep ∨ ∃ piece ∈ segmentsOf sep cs, c ∈ piece := by
  induction cs with
  | nil => cases h
  | cons d cs ih =>
      rw [segmentsOf]
      by_cases hd : d = sep
      · rw [if_pos hd]
        rcases List.mem_cons.mp h with rfl | h
        · exact Or.inl hd
        · rcases ih h with hsep | ⟨piece, hpiece, hc⟩
          · exact Or.inl hsep
          · exact Or.inr ⟨piece, List.mem_cons_of_mem _ hpiece, hc⟩
      · rw [if_neg hd]
        cases hpieces : segmentsOf sep cs with
        | nil => exact absurd hpieces (segmentsOf_ne_nil sep cs)
        | cons first rest =>
            rw [hpieces] at ih
            rcases List.mem_cons.mp h with rfl | h
            · exact Or.inr ⟨_, List.mem_cons_self, List.mem_cons_self⟩
            · rcases ih h with hsep | ⟨piece, hpiece, hc⟩
              · exact Or.inl hsep
              · rcases List.mem_cons.mp hpiece with rfl | hpiece
                · exact Or.inr ⟨_, List.mem_cons_self, List.mem_cons_of_mem _ hc⟩
                · exact Or.inr ⟨piece, List.mem_cons_of_mem _ hpiece, hc⟩

/-- A text without the separator is one piece. -/
theorem segmentsOf_of_not_mem {sep : Char} {cs : List Char} (h : sep ∉ cs) :
    segmentsOf sep cs = [cs] := by
  induction cs with
  | nil => rfl
  | cons c cs ih =>
    rw [List.mem_cons, not_or] at h
    rw [segmentsOf, if_neg (Ne.symm h.1), ih h.2]

/-- The pieces of two texts with the separator between them. -/
theorem segmentsOf_append (sep : Char) (xs ys : List Char) :
    segmentsOf sep (xs ++ sep :: ys) = segmentsOf sep xs ++ segmentsOf sep ys := by
  induction xs with
  | nil => simp [segmentsOf]
  | cons c cs ih =>
    rw [List.cons_append, segmentsOf, segmentsOf, ih]
    split
    · rfl
    · cases hs : segmentsOf sep cs with
      | nil => exact absurd hs (segmentsOf_ne_nil sep cs)
      | cons piece rest => rfl

/-- The pieces with the separator between them are the text. -/
theorem intercalate_segmentsOf (sep : Char) (cs : List Char) :
    [sep].intercalate (segmentsOf sep cs) = cs := by
  induction cs with
  | nil => simp [segmentsOf]
  | cons c cs ih =>
    have hne := segmentsOf_ne_nil sep cs
    simp only [segmentsOf]
    cases hs : segmentsOf sep cs with
    | nil => exact absurd hs hne
    | cons piece rest =>
      rw [hs] at ih
      split
      · next hc => subst hc; simpa [List.intercalate] using ih
      · cases rest <;> simpa [List.intercalate] using ih

example : segmentsOf '.' "a..b".toList = ["a".toList, [], "b".toList] := by decide

/-- The pieces of a string between the occurrences of `sep`. -/
def segments (sep : Char) (s : String) : List String :=
  (segmentsOf sep s.toList).map String.ofList

/-- The text before the first `sep` and the text after it. -/
def cutFirst (sep : Char) : List Char → Option (List Char × List Char)
  | [] => none
  | c :: cs =>
    if c = sep then some ([], cs)
    else (cutFirst sep cs).map fun (before, after) => (c :: before, after)

/-- The text before the last `sep` and the text after it. -/
def cutLast (sep : Char) (cs : List Char) : Option (List Char × List Char) :=
  (cutFirst sep cs.reverse).map fun (after, before) => (before.reverse, after.reverse)

/-- A string cut at the first `sep`. -/
def splitFirst (sep : Char) (s : String) : Option (String × String) :=
  (cutFirst sep s.toList).map fun (a, b) => (String.ofList a, String.ofList b)

/-- A string cut at the last `sep`. -/
def splitLast (sep : Char) (s : String) : Option (String × String) :=
  (cutLast sep s.toList).map fun (a, b) => (String.ofList a, String.ofList b)

/-- The pieces with `sep` between them. -/
def join (sep : String) : List String → String
  | [] => ""
  | [s] => s
  | s :: t :: rest => s ++ sep ++ join sep (t :: rest)

/-- What holds of the pieces, of the text between them and of what is put together holds of all of
them joined. -/
theorem join_of_append {p : String → Prop} (hempty : p "")
    (happend : ∀ {s t}, p s → p t → p (s ++ t)) {sep : String} (hsep : p sep) {ts : List String}
    (h : ∀ t ∈ ts, p t) : p (join sep ts) := by
  induction ts with
  | nil => exact hempty
  | cons t ts ih =>
    rw [List.forall_mem_cons] at h
    cases ts with
    | nil => exact h.1
    | cons u ts => exact happend (happend h.1 hsep) (ih h.2)

/-- Texts between the same two texts differ as they differ by themselves. -/
theorem between_inj {before after a b : String} :
    before ++ a ++ after = before ++ b ++ after ↔ a = b := by
  constructor
  · intro heq
    have hlist := congrArg String.toList heq
    simp only [String.toList_append] at hlist
    exact String.toList_inj.mp (List.append_cancel_left (List.append_cancel_right hlist))
  · rintro rfl
    rfl

/-- Whether a string begins with the given one. -/
def startsWith (start s : String) : Bool :=
  start.toList.isPrefixOf s.toList

theorem startsWith_append (start rest : String) : startsWith start (start ++ rest) = true := by
  rw [startsWith, List.isPrefixOf_iff_prefix, String.toList_append]
  exact List.prefix_append _ _

end Screenwright.Text
