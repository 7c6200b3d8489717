/-
Names mean nothing to a reader of code.

Whatever text a name is made from, it is made of letters and digits of ASCII, because the
words of a text are; and what the checks let through as an identifier holds only those and
underscores.  None of these characters begins or ends a literal or a bracket, so a name
can stand anywhere in generated code.
-/
import Screenwright.App.Component
import Screenwright.Names.ScreenNames
import Screenwright.Proofs.Lexical.Brackets

namespace Screenwright

open Swift

/-- The pieces of a text with the separator between them are the text. -/
theorem Text.join_segmentsOf (sep : Char) (cs : List Char) :
    join (String.singleton sep) ((segmentsOf sep cs).map String.ofList) = String.ofList cs := by
  have hjoin : ∀ pieces : List (List Char),
      join (String.singleton sep) (pieces.map String.ofList) =
        String.ofList ([sep].intercalate pieces) := by
    intro pieces
    induction pieces with
    | nil => rfl
    | cons piece rest ih =>
        cases rest with
        | nil => simp [join, List.intercalate]
        | cons next rest =>
            rw [List.intercalate_cons_cons, String.ofList_append, String.ofList_append, ← ih]
            rfl
  rw [hjoin, intercalate_segmentsOf]

/-! ### Letters and digits -/

namespace Names

/-- What holds of the first 128 characters is decided by looking at each of them. -/
theorem forall_ascii {p : Char → Prop} (h : ∀ n < 128, p (Char.ofNat n)) {c : Char}
    (hc : c.toNat < 128) : p c := by
  have hp := h c.toNat hc
  rwa [Char.ofNat_toNat] at hp

theorem toNat_lt_of_isAlphanum {c : Char} (h : c.isAlphanum = true) : c.toNat < 128 := by
  have hranges : (decide ('A'.val ≤ c.val ∧ c.val ≤ 'Z'.val) ||
      ('a'.val ≤ c.val && c.val ≤ 'z'.val) || ('0'.val ≤ c.val && c.val ≤ '9'.val)) = true := h
  simp only [Bool.or_eq_true, Bool.and_eq_true, decide_eq_true_eq,
    UInt32.le_iff_toNat_le] at hranges
  have hval : c.toNat = c.val.toNat := rfl
  have hZ : 'Z'.val.toNat = 90 := rfl
  have hz : 'z'.val.toNat = 122 := rfl
  have h9 : '9'.val.toNat = 57 := rfl
  omega

theorem isPlain_of_isAlphanum {c : Char} (h : c.isAlphanum = true) : isPlain c = true :=
  forall_ascii (p := fun c => c.isAlphanum = true → isPlain c = true) (by decide +kernel)
    (toNat_lt_of_isAlphanum h) h

theorem isAlphanum_toUpper {c : Char} (h : c.isAlphanum = true) : c.toUpper.isAlphanum = true :=
  forall_ascii (p := fun c => c.isAlphanum = true → c.toUpper.isAlphanum = true)
    (by decide +kernel) (toNat_lt_of_isAlphanum h) h

theorem isAlphanum_toLower {c : Char} (h : c.isAlphanum = true) : c.toLower.isAlphanum = true :=
  forall_ascii (p := fun c => c.isAlphanum = true → c.toLower.isAlphanum = true)
    (by decide +kernel) (toNat_lt_of_isAlphanum h) h

/-! ### Words -/

/-- A run holds characters of the text that do not end it. -/
theorem mem_runs {p : Char → Bool} {cs : List Char} :
    ∀ run ∈ Text.runs p cs, ∀ c ∈ run, p c = false := by
  fun_induction Text.runs p cs with
  | case1 => simp
  | case2 c cs hc ih => exact ih
  | case3 c hc => simpa [Text.runs] using hc
  | case4 c hc d cs word rest hd hruns ih =>
      rw [hruns] at ih ⊢
      simp only [hd, if_true, List.forall_mem_cons]
      exact ⟨by simpa using hc, List.forall_mem_cons.mp ih⟩
  | case5 c hc d cs word rest hd hruns ih =>
      rw [hruns] at ih ⊢
      simp only [hd, Bool.false_eq_true, if_false, List.forall_mem_cons] at ih ⊢
      exact ⟨⟨by simpa using hc, ih.1⟩, ih.2⟩
  | case6 c hc d cs hruns ih =>
      rw [hruns]
      simpa using hc

/-- Cutting a run loses no character and adds none. -/
theorem flatten_cutWords (cs : List Char) : (cutWords cs).flatten = cs := by
  fun_induction cutWords cs with
  | case1 => rfl
  | case2 c => rfl
  | case3 c d cs hnil ih => simp_all
  | case4 c d cs word rest hwords hbreak ih => simp_all
  | case5 c d cs word rest hwords hbreak ih => simp_all

theorem isAlphanum_of_mem_words {cs word : List Char} (hword : word ∈ words cs) :
    ∀ c ∈ word, c.isAlphanum = true := by
  intro c hc
  obtain ⟨run, hrun, hmem⟩ := List.mem_flatMap.mp hword
  have hc' : c ∈ run := by
    rw [← flatten_cutWords run]
    exact List.mem_flatten.mpr ⟨word, hmem, hc⟩
  simpa using mem_runs run hrun c hc'

theorem isAlphanum_of_mem_capitalize {word : List Char}
    (h : ∀ c ∈ word, c.isAlphanum = true) : ∀ c ∈ capitalize word, c.isAlphanum = true := by
  cases word with
  | nil => exact h
  | cons c cs =>
      rw [List.forall_mem_cons] at h
      rw [capitalize, List.forall_mem_cons]
      refine ⟨isAlphanum_toUpper h.1, fun d hd => ?_⟩
      obtain ⟨c', hc', rfl⟩ := List.mem_map.mp hd
      exact isAlphanum_toLower (h.2 c' hc')

theorem isAlphanum_of_mem_upperCamel (cs : List Char) :
    ∀ c ∈ upperCamel cs, c.isAlphanum = true := by
  intro c hc
  obtain ⟨word, hword, hc⟩ := List.mem_flatMap.mp hc
  exact isAlphanum_of_mem_capitalize (isAlphanum_of_mem_words hword) c hc

theorem isAlphanum_of_mem_lowerCamel (cs : List Char) :
    ∀ c ∈ lowerCamel cs, c.isAlphanum = true := by
  intro c hc
  have hwords : ∀ word ∈ words cs, ∀ c ∈ word, c.isAlphanum = true :=
    fun word hword => isAlphanum_of_mem_words hword
  unfold lowerCamel at hc
  split at hc
  · cases hc
  next word rest heq =>
    rw [heq, List.forall_mem_cons] at hwords
    rcases List.mem_append.mp hc with hc | hc
    · obtain ⟨c', hc', rfl⟩ := List.mem_map.mp hc
      exact isAlphanum_toLower (hwords.1 c' hc')
    · obtain ⟨word', hword', hc⟩ := List.mem_flatMap.mp hc
      exact isAlphanum_of_mem_capitalize (hwords.2 word' hword') c hc

/-! ### Names made from text -/

theorem plain_of_alphanum {cs : List Char} (h : ∀ c ∈ cs, c.isAlphanum = true) :
    Plain (String.ofList cs) := by
  intro c hc
  rw [String.toList_ofList] at hc
  exact isPlain_of_isAlphanum (h c hc)

theorem plain_of_isAlphanum {name : String} (h : ∀ c ∈ name.toList, c.isAlphanum = true) :
    Plain name :=
  fun c hc => isPlain_of_isAlphanum (h c hc)

theorem isAlphanum_of_mem_typeName? {raw name : String} (h : typeName? raw = some name) :
    ∀ c ∈ name.toList, c.isAlphanum = true := by
  obtain ⟨cs, hcs, rfl⟩ := Option.map_eq_some_iff.mp h
  have hall := isAlphanum_of_mem_upperCamel raw.toList
  intro c hc
  rw [String.toList_ofList] at hc
  unfold typeNameChars at hcs
  split at hcs
  · cases hcs
  next d rest heq =>
    cases hcs
    rw [heq] at hall
    split at hc
    · rcases List.mem_cons.mp hc with rfl | hc
      · rfl
      · exact hall c hc
    · exact hall c hc

/-- The first letter of words with a capital each is not a small one. -/
theorem isLower_head_capitalize {ws : List (List Char)}
    (h : ∀ word ∈ ws, ∀ c ∈ word, c.isAlphanum = true) {c : Char} {rest : List Char}
    (heq : ws.flatMap capitalize = c :: rest) : c.isLower = false := by
  induction ws with
  | nil => cases heq
  | cons word ws ih =>
      rw [List.forall_mem_cons] at h
      rw [List.flatMap_cons] at heq
      cases word with
      | nil => exact ih h.2 heq
      | cons d cs =>
          obtain ⟨rfl, -⟩ := List.cons.inj heq
          have hd := h.1 d List.mem_cons_self
          exact forall_ascii (p := fun c => c.isAlphanum = true → c.toUpper.isLower = false)
            (by decide +kernel) (toNat_lt_of_isAlphanum hd) hd

/-- **A type name does not begin with a small letter.** -/
theorem isLower_head_typeName? {raw name : String} (h : typeName? raw = some name) :
    ∃ c, name.toList.head? = some c ∧ c.isLower = false := by
  obtain ⟨cs, hcs, rfl⟩ := Option.map_eq_some_iff.mp h
  rw [String.toList_ofList]
  unfold typeNameChars at hcs
  split at hcs
  · cases hcs
  next c rest heq =>
    cases hcs
    split
    · exact ⟨'N', rfl, rfl⟩
    · exact ⟨c, rfl, isLower_head_capitalize (fun _ hword => isAlphanum_of_mem_words hword) heq⟩

example : typeName? "2 fast HTMLPages" = some "N2FastHtmlPages" := by decide

theorem isAlphanum_of_mem_memberName (raw : String) :
    ∀ c ∈ (memberName raw).toList, c.isAlphanum = true := by
  have hall := isAlphanum_of_mem_lowerCamel raw.toList
  intro c hc
  rw [memberName, String.toList_ofList] at hc
  unfold memberNameChars at hc
  split at hc
  · exact List.all_eq_true.mp (by decide : "value".toList.all Char.isAlphanum = true) c hc
  next d rest heq =>
    rw [heq] at hall
    split at hc
    · rcases List.mem_cons.mp hc with rfl | hc
      · rfl
      · exact hall c hc
    · exact hall c hc

theorem isAlphanum_of_mem_appFolder (appName : String) :
    ∀ c ∈ (appFolder appName).toList, c.isAlphanum = true := by
  unfold appFolder
  cases h : typeName? appName with
  | none => exact List.all_eq_true.mp (by decide : "Generated".toList.all Char.isAlphanum = true)
  | some name => exact isAlphanum_of_mem_typeName? h

/-- **A type name is plain, whatever it is made from.** -/
theorem plain_of_typeName? {raw name : String} (h : typeName? raw = some name) : Plain name :=
  plain_of_isAlphanum (isAlphanum_of_mem_typeName? h)

/-- **A member name is plain, whatever it is made from.** -/
theorem plain_memberName (raw : String) : Plain (memberName raw) :=
  plain_of_isAlphanum (isAlphanum_of_mem_memberName raw)

theorem plain_escapeMember {name : String} (h : Plain name) : Plain (escapeMember name) := by
  have htick : Plain "\x60" := plain_of_all rfl
  unfold escapeMember
  split
  · exact (htick.append h).append htick
  · exact h

theorem plain_appFolder (appName : String) : Plain (appFolder appName) :=
  plain_of_isAlphanum (isAlphanum_of_mem_appFolder appName)

theorem plain_appTypeName (appName : String) : Plain (appTypeName appName) :=
  (plain_appFolder appName).append (plain_of_all rfl)

/-! ### Identifiers -/

theorem isPlain_of_continuesIdentifier {c : Char} (h : continuesIdentifier c = true) :
    isPlain c = true := by
  simp only [continuesIdentifier, Bool.or_eq_true, decide_eq_true_eq] at h
  rcases h with h | rfl
  · exact isPlain_of_isAlphanum h
  · rfl

theorem continues_of_startsIdentifier {c : Char} (h : startsIdentifier c = true) :
    continuesIdentifier c = true := by
  simp only [startsIdentifier, continuesIdentifier, Char.isAlphanum, Bool.or_eq_true] at h ⊢
  exact h.imp_left Or.inl

theorem plain_of_isIdentifier {name : String} (h : isIdentifier name = true) : Plain name := by
  intro c hc
  unfold isIdentifier at h
  cases hcs : name.toList with
  | nil => rw [hcs] at hc; cases hc
  | cons d ds =>
      rw [hcs, areIdentifier, Bool.and_eq_true, List.all_eq_true] at h
      rw [hcs] at hc
      rcases List.mem_cons.mp hc with rfl | hc
      · exact isPlain_of_continuesIdentifier (continues_of_startsIdentifier h.1)
      · exact isPlain_of_continuesIdentifier (h.2 c hc)

theorem plain_of_isUsable {name : String} (h : isUsable name = true) : Plain name :=
  plain_of_isIdentifier (Bool.and_eq_true _ _ ▸ h).1

end Names

/-- A path of identifiers is plain. -/
theorem DataBinding.plain_of_segmentsOf {path : String}
    (h : ∀ name ∈ segmentsOf path, Names.isIdentifier name = true) : Plain path := by
  have hdot : Plain (String.singleton '.') := by
    intro c hc
    rw [String.toList_singleton, List.mem_singleton] at hc
    rw [hc]
    rfl
  have hpath : Plain (Text.join (String.singleton '.') (segmentsOf path)) :=
    plain_join hdot fun name hname => Names.plain_of_isIdentifier (h name hname)
  rwa [segmentsOf, Text.segments, Text.join_segmentsOf, String.ofList_toList] at hpath

/-- The first name of a path of identifiers is one of them. -/
theorem DataBinding.plain_rootOf {path : String}
    (h : ∀ name ∈ segmentsOf path, Names.isIdentifier name = true) : Plain (rootOf path) := by
  unfold rootOf
  cases hsegments : segmentsOf path with
  | nil => exact plain_of_all rfl
  | cons name rest => exact Names.plain_of_isIdentifier (h name (by simp [hsegments]))

/-! ### The names of screens -/

/-- Names of a screen that can stand in code. -/
structure ScreenNames.Tame (names : ScreenNames) : Prop where
  viewType : Plain names.viewType
  routeCase : Plain names.routeCase

namespace ScreenNames

theorem tame_ofIdAndName (id name : String) : (ofIdAndName id name).Tame := by
  refine ⟨Plain.append ?_ (plain_of_all rfl), ?_⟩
  · cases hname : Names.typeName? name with
    | some type => exact Names.plain_of_typeName? hname
    | none =>
        cases hid : Names.typeName? id with
        | some type => exact Names.plain_of_typeName? hid
        | none => exact plain_of_all rfl
  · exact Names.plain_escapeMember (Names.plain_memberName id)

theorem plain_presentationFlag (names : ScreenNames) : Plain names.presentationFlag :=
  Plain.append (plain_of_all rfl) (Names.plain_of_alphanum (Names.isAlphanum_of_mem_upperCamel _))

end ScreenNames

end Screenwright
