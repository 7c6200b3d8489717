/-
Every color that is read has a text that is read again.

The text of a color shows its lightness, its chroma and its opacity to a few places, and what is
read from a text has to have them in range.  A color that comes from such a text has been checked.
One that comes from hexadecimal digits has not: it is computed, and the proof has to show that no
step of the computation leaves the numbers, since what is no number stays so when it is moved into
range.
-/
import Screenwright.App.Definition
import Screenwright.Proofs.Floats.Printed
import Screenwright.Proofs.Floats.Roots
import Screenwright.Proofs.Tokens

namespace Screenwright

open Number

/-! ### Screen channels -/

namespace Rgba

theorem hexDigit?_lt {c : Char} {n : Nat} (h : hexDigit? c = some n) : n < 16 := by
  unfold hexDigit? at h
  split at h
  next hdigit =>
    cases h
    have hle : c.toNat ≤ '9'.toNat := (Char.isDigit_iff_toNat.mp hdigit).2
    have h9 : '9'.toNat = 57 := rfl
    have h0 : '0'.toNat = 48 := rfl
    omega
  split at h
  next hlower =>
    cases h
    simp only [Bool.and_eq_true, decide_eq_true_eq] at hlower
    have hle : c.toNat ≤ 'f'.toNat := hlower.2
    have hf : 'f'.toNat = 102 := rfl
    have ha : 'a'.toNat = 97 := rfl
    omega
  split at h
  next hupper =>
    cases h
    simp only [Bool.and_eq_true, decide_eq_true_eq] at hupper
    have hle : c.toNat ≤ 'F'.toNat := hupper.2
    have hf : 'F'.toNat = 70 := rfl
    have ha : 'A'.toNat = 65 := rfl
    omega
  · cases h

theorem hexDigits_lt {cs : List Char} : ∀ {ds}, cs.mapM hexDigit? = some ds → ∀ d ∈ ds, d < 16 := by
  induction cs with
  | nil =>
      rintro ds ⟨⟩
      simp
  | cons c cs ih =>
      intro ds h
      rw [List.mapM_cons] at h
      obtain ⟨d, hd, h⟩ := Option.bind_eq_some_iff.mp h
      obtain ⟨rest, hrest, h⟩ := Option.bind_eq_some_iff.mp h
      cases h
      exact List.forall_mem_cons.mpr ⟨hexDigit?_lt hd, ih hrest⟩

/-- The channels of two hexadecimal digits lie in the unit interval. -/
theorem inUnit_channel {high low : Nat} (hhigh : high < 16) (hlow : low < 16) :
    InUnit (channel high low) := by
  have hspells : Spells 255 45 (255.0 : Float) :=
    ⟨by decide, by decide, by decide, by decide, by rfl⟩
  exact hspells.inUnit_ofNat_div (by omega)

/-- Every channel lies in the unit interval. -/
structure IsProper (color : Rgba) : Prop where
  r : InUnit color.r
  g : InUnit color.g
  b : InUnit color.b
  a : InUnit color.a

theorem isProper_ofHexChars {cs : List Char} {color : Rgba} (h : ofHexChars cs = some color) :
    color.IsProper := by
  unfold ofHexChars at h
  split at h
  next r₁ r₂ g₁ g₂ b₁ b₂ hdigits =>
    have hlt := hexDigits_lt hdigits
    simp only [List.forall_mem_cons] at hlt
    obtain ⟨hr₁, hr₂, hg₁, hg₂, hb₁, hb₂, -⟩ := hlt
    cases h
    exact ⟨inUnit_channel hr₁ hr₂, inUnit_channel hg₁ hg₂, inUnit_channel hb₁ hb₂, inUnit_one⟩
  next r₁ r₂ g₁ g₂ b₁ b₂ a₁ a₂ hdigits =>
    have hlt := hexDigits_lt hdigits
    simp only [List.forall_mem_cons] at hlt
    obtain ⟨hr₁, hr₂, hg₁, hg₂, hb₁, hb₂, ha₁, ha₂, -⟩ := hlt
    cases h
    exact ⟨inUnit_channel hr₁ hr₂, inUnit_channel hg₁ hg₂, inUnit_channel hb₁ hb₂,
      inUnit_channel ha₁ ha₂⟩
  · cases h

end Rgba

/-! ### Colors of screen channels -/

namespace Color

theorem within_linearOf {x : Float} (h : InUnit x) : Within 217 (linearOf x) := by
  have hx := h.within
  unfold linearOf
  split
  · have hdivisor : AtLeast 4 (12.92 : Float).toModel.unpack := by decide +kernel
    exact (hx.div hdivisor (by decide) (by decide)).mono (by decide)
  · have hshift : Within 1 (0.055 : Float) := by decide +kernel
    have hdivisor : AtLeast 1 (1.055 : Float).toModel.unpack := by decide +kernel
    have hbase : Within 4 ((x + 0.055) / 1.055) :=
      (hx.add hshift (by decide) (by decide)).div hdivisor (by decide) (by decide)
    have hplaces : (-(parts 2.4).exponent).toNat = 51 := by decide +kernel
    have hwhole :
        (parts 2.4).significand * pow2 (parts 2.4).exponent.toNat / pow2 51 = 2 := by
      decide +kernel
    exact within_raise (j := 4) (k := 212) hbase hplaces hwhole (by decide) (by decide)

variable {j k : Int} {a b c x y z : Float}

/-- Weighted sums of three numbers. -/
theorem within_mix (ha : Within j a) (hb : Within j b) (hc : Within j c) (hx : Within k x)
    (hy : Within k y) (hz : Within k z) (hlow : -1000 ≤ j + k) (hhigh : j + k ≤ 900) :
    Within (j + k + 5) (a * x + b * y + c * z) ∧ Within (j + k + 5) (a * x + b * y - c * z) ∧
      Within (j + k + 5) (a * x - b * y + c * z) := by
  have hterm : ∀ {w v : Float}, Within j w → Within k v → Within (j + k + 1) (w * v) :=
    fun hw hv => hw.mul hv (by omega) (by omega)
  have hsum : Within (j + k + 3) (a * x + b * y) :=
    ((hterm ha hx).add (hterm hb hy) (by omega) (by omega)).mono (by omega)
  have hdifference : Within (j + k + 3) (a * x - b * y) :=
    ((hterm ha hx).sub (hterm hb hy) (by omega) (by omega)).mono (by omega)
  have hlast : Within (j + k + 3) (c * z) := (hterm hc hz).mono (by omega)
  exact ⟨(hsum.add hlast (by omega) (by omega)).mono (by omega),
    (hsum.sub hlast (by omega) (by omega)).mono (by omega),
    (hdifference.add hlast (by omega) (by omega)).mono (by omega)⟩

/-- What a color has to be like for its text to be read. -/
structure IsReadable (color : Color Float) : Prop where
  lightness : InUnit color.l
  chroma : ¬ color.c < 0.0
  opacity : InUnit color.alpha

/-- The root of a weighted sum of the channels. -/
theorem within_cone {color : Rgba} (h : color.IsProper) (ha : Within 0 a) (hb : Within 0 b)
    (hc : Within 0 c) : Within 78
      (cubeRoot (a * linearOf color.r + b * linearOf color.g + c * linearOf color.b)) :=
  within_cubeRoot (j := 74) (within_mix ha hb hc (within_linearOf h.r) (within_linearOf h.g)
    (within_linearOf h.b) (by decide) (by decide)).1 (by decide)

/-- The three roots that a color is computed from. -/
theorem within_cones {color : Rgba} (h : color.IsProper) :
    Within 78 (cubeRoot (0.4122214708 * linearOf color.r + 0.5363325363 * linearOf color.g +
        0.0514459929 * linearOf color.b)) ∧
      Within 78 (cubeRoot (0.2119034982 * linearOf color.r + 0.6806995451 * linearOf color.g +
        0.1073969566 * linearOf color.b)) ∧
      Within 78 (cubeRoot (0.0883024619 * linearOf color.r + 0.2817188376 * linearOf color.g +
        0.6299787005 * linearOf color.b)) :=
  ⟨within_cone h (by decide +kernel) (by decide +kernel) (by decide +kernel),
    within_cone h (by decide +kernel) (by decide +kernel) (by decide +kernel),
    within_cone h (by decide +kernel) (by decide +kernel) (by decide +kernel)⟩

theorem isReadable_ofRgba {color : Rgba} (h : color.IsProper) : (ofRgba color).IsReadable := by
  refine ⟨inUnit_clampUnit (Within.isNaN (k := 83) ?_), not_lt_zero_sqrt _, h.a⟩
  obtain ⟨hl, hm, hs⟩ := within_cones h
  exact (within_mix (j := 0) (a := 0.2104542553) (b := 0.7936177850) (c := 0.0040720468)
    (by decide +kernel) (by decide +kernel) (by decide +kernel) hl hm hs (by decide)
    (by decide)).2.1

/-- The words for lightness, chroma and hue in a functional text. -/
def channelWords (body : List Char) : List (List Char) :=
  match Text.cutFirst '/' body with
  | some (channels, _) => Text.blankWords channels
  | none => Text.blankWords body

/-- The word for the opacity in a functional text. -/
def opacityWord? (body : List Char) : Option (List Char) :=
  (Text.cutFirst '/' body).map fun cut => Text.trimChars cut.2

/-- The opacity in a functional text; without a word for it, it is full. -/
def opacityOf (body : List Char) : Option Float :=
  match opacityWord? body with
  | some cs => readChars cs
  | none => some 1.0

theorem ofFunctionBody_eq (body : List Char) : ofFunctionBody body = (do
    let [l, c, h] ← (channelWords body).mapM readChars | none
    let alpha ← opacityOf body
    if 0.0 ≤ l && l ≤ 1.0 && !(c < 0.0) && 0.0 ≤ alpha && alpha ≤ 1.0 then
      some ⟨l, c, wrapHue h, alpha⟩
    else none) := by
  unfold ofFunctionBody channelWords opacityOf opacityWord?
  cases Text.cutFirst '/' body <;> rfl

/-- What is read of a functional text has three words, and all but the hue are in range. -/
theorem ofFunctionBody_eq_some {body : List Char} {color : Color Float}
    (h : ofFunctionBody body = some color) : ∃ hue,
      (channelWords body).mapM readChars = some [color.l, color.c, hue] ∧
        color.h = wrapHue hue ∧ color.IsReadable := by
  rw [ofFunctionBody_eq] at h
  obtain ⟨values, hvalues, h⟩ := Option.bind_eq_some_iff.mp h
  split at h
  next l c hue =>
    obtain ⟨alpha, -, h⟩ := Option.bind_eq_some_iff.mp h
    split at h
    next hrange =>
      simp only [Bool.and_eq_true, decide_eq_true_eq, Bool.not_eq_true', decide_eq_false_iff_not]
        at hrange
      cases h
      exact ⟨hue, hvalues, rfl, ⟨hrange.1.1.1.1, hrange.1.1.1.2⟩, hrange.1.1.2,
        ⟨hrange.1.2, hrange.2⟩⟩
    · cases h
  · cases h

theorem isReadable_of_parse {s : String} {color : Color Float} (h : parse s = some color) :
    color.IsReadable := by
  unfold parse at h
  dsimp only at h
  split at h
  next body hbody =>
    obtain ⟨-, -, -, hreadable⟩ := ofFunctionBody_eq_some h
    exact hreadable
  next hbody =>
    obtain ⟨rgba, hrgba, rfl⟩ := Option.map_eq_some_iff.mp h
    exact isReadable_ofRgba (Rgba.isProper_ofHexChars hrgba)

end Color

/-! ### Words -/

namespace Text

/-- A text that neither a blank nor a slash divides. -/
structure IsWord (cs : List Char) : Prop where
  ne_nil : cs ≠ []
  nonblank : ∀ c ∈ cs, isBlank c = false
  undivided : '/' ∉ cs

theorem isWord_of_all {cs : List Char}
    (h : (!cs.isEmpty && cs.all fun c => !isBlank c && c != '/') = true) : IsWord cs := by
  simp only [Bool.and_eq_true, Bool.not_eq_true', List.isEmpty_eq_false_iff, List.all_eq_true,
    bne_iff_ne] at h
  exact ⟨h.1, fun c hc => (h.2 c hc).1, fun hslash => (h.2 _ hslash).2 rfl⟩

theorem isBlank_of_isDigit {c : Char} (h : c.isDigit = true) : isBlank c = false := by
  have hlow : 48 ≤ c.toNat := (Char.isDigit_iff_toNat.mp h).1
  have hhigh : c.toNat ≤ 57 := (Char.isDigit_iff_toNat.mp h).2
  unfold isBlank
  simp only [Bool.or_eq_false_iff, Bool.and_eq_false_iff, decide_eq_false_iff_not,
    beq_eq_false_iff_ne]
  omega

theorem isWord_placed {places : Nat} (hplaces : 0 < places) (n : Nat) :
    IsWord (placed places n) := by
  obtain ⟨whole, fraction, heq, hne, -, -, hdigits⟩ := placed_eq hplaces n
  rw [List.forall_mem_append] at hdigits
  refine ⟨?_, ?_, ?_⟩
  · rw [heq]
    exact List.append_ne_nil_of_left_ne_nil hne _
  · rw [heq, List.forall_mem_append, List.forall_mem_cons]
    exact ⟨fun c hc => isBlank_of_isDigit (hdigits.1 c hc), rfl,
      fun c hc => isBlank_of_isDigit (hdigits.2 c hc)⟩
  · intro hslash
    rw [heq, List.mem_append, List.mem_cons] at hslash
    rcases hslash with hslash | hslash | hslash
    · exact absurd (hdigits.1 _ hslash) (by decide)
    · exact absurd hslash (by decide)
    · exact absurd (hdigits.2 _ hslash) (by decide)

theorem IsWord.cons {cs : List Char} (h : IsWord cs) {c : Char} (hc : isBlank c = false)
    (hslash : '/' ≠ c) : IsWord (c :: cs) :=
  ⟨List.cons_ne_nil c cs, List.forall_mem_cons.mpr ⟨hc, h.nonblank⟩,
    fun hmem => (List.mem_cons.mp hmem).elim hslash h.undivided⟩

/-- A printed float is one word. -/
theorem isWord_fixed {places : Nat} (hplaces : 0 < places) (x : Float) :
    IsWord (fixed places x).toList := by
  unfold fixed
  split
  · exact isWord_of_all rfl
  split
  · split <;> exact isWord_of_all rfl
  rw [String.toList_ofList]
  unfold fixedChars
  dsimp only
  split
  · exact (isWord_placed hplaces _).cons (by decide) (by decide)
  · exact isWord_placed hplaces _

theorem runs_of_not {p : Char → Bool} {w : List Char} (hne : w ≠ []) (h : ∀ c ∈ w, p c = false) :
    runs p w = [w] := by
  induction w with
  | nil => exact absurd rfl hne
  | cons c cs ih =>
      rw [List.forall_mem_cons] at h
      rw [runs.eq_def]
      dsimp only
      rw [if_neg (by simp [h.1])]
      cases cs with
      | nil => rfl
      | cons d ds =>
          rw [ih (List.cons_ne_nil d ds) h.2]
          dsimp only
          rw [if_neg (by simp [h.2 d])]

/-- A run ends where a character of the other kind comes. -/
theorem runs_append {p : Char → Bool} {w : List Char} (hne : w ≠ []) (h : ∀ c ∈ w, p c = false)
    {b : Char} (hb : p b = true) (rest : List Char) :
    runs p (w ++ b :: rest) = w :: runs p rest := by
  have hblank : runs p (b :: rest) = runs p rest := by
    rw [runs.eq_def]
    dsimp only
    rw [if_pos hb]
  induction w with
  | nil => exact absurd rfl hne
  | cons c cs ih =>
      rw [List.forall_mem_cons] at h
      rw [List.cons_append, runs.eq_def]
      dsimp only
      rw [if_neg (by simp [h.1])]
      cases cs with
      | nil =>
          rw [List.nil_append, hblank]
          cases runs p rest with
          | nil => rfl
          | cons word words =>
              dsimp only
              rw [if_pos hb]
      | cons d ds =>
          rw [ih (List.cons_ne_nil d ds) h.2]
          dsimp only [List.cons_append]
          rw [if_neg (by simp [h.2 d])]

theorem cutFirst_of_not_mem {sep : Char} {cs : List Char} (h : sep ∉ cs) :
    cutFirst sep cs = none := by
  induction cs with
  | nil => rfl
  | cons c cs ih =>
      rw [List.mem_cons, not_or] at h
      rw [cutFirst, if_neg (Ne.symm h.1), ih h.2]
      rfl

/-- Nothing is trimmed between characters that are not blank. -/
theorem trimChars_of_ends {first last : Char} (middle : List Char) (hfirst : isBlank first = false)
    (hlast : isBlank last = false) :
    trimChars (first :: (middle ++ [last])) = first :: (middle ++ [last]) := by
  unfold trimChars dropEndWhile
  rw [List.dropWhile_cons_of_neg (by simp [hfirst]), ← List.cons_append, List.reverse_append,
    List.reverse_singleton, List.singleton_append, List.dropWhile_cons_of_neg (by simp [hlast]),
    ← List.singleton_append, List.reverse_append, List.reverse_reverse]
  rfl

theorem dropWhile_of_not {p : Char → Bool} {cs : List Char} (h : ∀ c ∈ cs, p c = false) :
    cs.dropWhile p = cs := by
  cases cs with
  | nil => rfl
  | cons c cs => exact List.dropWhile_cons_of_neg (by simp [h c])

theorem trimChars_of_word {cs : List Char} (h : IsWord cs) : trimChars (' ' :: cs) = cs := by
  have hreverse : ∀ c ∈ cs.reverse, isBlank c = false :=
    fun c hc => h.nonblank c (List.mem_reverse.mp hc)
  unfold trimChars dropEndWhile
  rw [List.dropWhile_cons_of_pos (by decide), dropWhile_of_not h.nonblank,
    dropWhile_of_not hreverse, List.reverse_reverse]

/-- Three words and what is behind them. -/
theorem blankWords_three {u v w : List Char} (hu : IsWord u) (hv : IsWord v) (hw : IsWord w) :
    blankWords (u ++ ' ' :: (v ++ ' ' :: w)) = [u, v, w] ∧
      blankWords (u ++ ' ' :: (v ++ ' ' :: (w ++ [' ']))) = [u, v, w] := by
  have hblank : isBlank ' ' = true := rfl
  unfold blankWords
  rw [runs_append hu.ne_nil hu.nonblank hblank, runs_append hu.ne_nil hu.nonblank hblank,
    runs_append hv.ne_nil hv.nonblank hblank, runs_append hv.ne_nil hv.nonblank hblank,
    runs_append hw.ne_nil hw.nonblank hblank, runs_of_not hw.ne_nil hw.nonblank]
  exact ⟨rfl, rfl⟩

end Text

namespace Color

theorem parse_function (body : List Char) :
    parse (String.ofList ("oklch(".toList ++ (body ++ [')']))) = ofFunctionBody body := by
  have hbody : functionBody? ("oklch(".toList ++ (body ++ [')'])) = some body := by
    show functionBody? ('o' :: 'k' :: 'l' :: 'c' :: 'h' :: '(' :: (body ++ [')'])) = some body
    simp [functionBody?]
  have htrim : Text.trimChars ("oklch(".toList ++ (body ++ [')'])) =
      "oklch(".toList ++ (body ++ [')']) :=
    Text.trimChars_of_ends ("klch(".toList ++ body) (by decide) (by decide)
  unfold parse
  rw [String.toList_ofList, htrim]
  dsimp only
  rw [hbody]

/-- The channels of a color as words with blanks between them. -/
def channelChars (color : Color Float) : List Char :=
  (fixed 3 color.l).toList ++ ' ' :: ((fixed 3 color.c).toList ++ ' ' :: (fixed 1 color.h).toList)

/-- The opacity is left out of the text. -/
def IsOpaque (color : Color Float) : Prop :=
  (color.alpha - 1.0).abs < 2.220446049250313e-16

instance (color : Color Float) : Decidable color.IsOpaque :=
  inferInstanceAs (Decidable ((color.alpha - 1.0).abs < 2.220446049250313e-16))

/-- What stands in the parentheses of the text of a color. -/
def textBody (color : Color Float) : List Char :=
  if color.IsOpaque then channelChars color
  else channelChars color ++ [' '] ++ '/' :: ' ' :: (fixed 2 color.alpha).toList

theorem text_eq (color : Color Float) :
    color.text = String.ofList ("oklch(".toList ++ (textBody color ++ [')'])) := by
  refine String.toList_inj.mp ?_
  unfold text textBody channelChars
  by_cases hwhole : color.IsOpaque
  · rw [if_pos hwhole]
    dsimp only
    rw [if_pos (by exact hwhole)]
    simp [String.toList_append]
  · rw [if_neg hwhole]
    dsimp only
    rw [if_neg (by exact hwhole)]
    simp [String.toList_append]

/-- The words of the text of a color. -/
theorem words_textBody (color : Color Float) :
    channelWords (textBody color) =
        [(fixed 3 color.l).toList, (fixed 3 color.c).toList, (fixed 1 color.h).toList] ∧
      opacityWord? (textBody color) =
        if color.IsOpaque then none else some (fixed 2 color.alpha).toList := by
  have hl : Text.IsWord (fixed 3 color.l).toList := Text.isWord_fixed (by decide) _
  have hc : Text.IsWord (fixed 3 color.c).toList := Text.isWord_fixed (by decide) _
  have hh : Text.IsWord (fixed 1 color.h).toList := Text.isWord_fixed (by decide) _
  have ha : Text.IsWord (fixed 2 color.alpha).toList := Text.isWord_fixed (by decide) _
  have hslash : '/' ∉ channelChars color := by
    simp [channelChars, hl.undivided, hc.undivided, hh.undivided]
  obtain ⟨hwords, hwords'⟩ := Text.blankWords_three hl hc hh
  unfold channelWords opacityWord? textBody
  by_cases hwhole : color.IsOpaque
  · rw [if_pos hwhole, if_pos hwhole, Text.cutFirst_of_not_mem hslash]
    exact ⟨hwords, rfl⟩
  · rw [if_neg hwhole, if_neg hwhole, Text.cutFirst_append _ (by simpa using hslash)]
    dsimp only [Option.map_some]
    rw [channelChars, List.append_assoc, List.cons_append, List.append_assoc, List.cons_append,
      hwords', Text.trimChars_of_word ha]
    exact ⟨rfl, rfl⟩

/-- What the text of a color is read as. -/
def readBack (color : Color Float) : Color Float :=
  ⟨reread 3 color.l, reread 3 color.c, wrapHue (reread 1 color.h),
    if color.IsOpaque then 1.0 else reread 2 color.alpha⟩

/-- **The text of a readable color is read as a color.** -/
theorem parse_text {color : Color Float} (h : color.IsReadable) :
    parse color.text = some color.readBack := by
  obtain ⟨hwords, hopacity⟩ := words_textBody color
  have hread : (channelWords (textBody color)).mapM readChars =
      some [reread 3 color.l, reread 3 color.c, reread 1 color.h] := by
    rw [hwords]
    simp [readChars_fixed]
  have hopacity' : opacityOf (textBody color) = some color.readBack.alpha := by
    unfold opacityOf readBack
    rw [hopacity]
    by_cases hwhole : color.IsOpaque
    · rw [if_pos hwhole, if_pos hwhole]
    · rw [if_neg hwhole, if_neg hwhole]
      exact readChars_fixed (by decide) _
  have halpha : InUnit color.readBack.alpha := by
    unfold readBack
    dsimp only
    split
    · exact inUnit_one
    · exact inUnit_reread h.opacity (Or.inl rfl)
  have hlightness : InUnit (reread 3 color.l) := inUnit_reread h.lightness (Or.inr rfl)
  have hchroma : ¬ reread 3 color.c < 0.0 := not_lt_zero_reread h.chroma
  rw [text_eq, parse_function, ofFunctionBody_eq, hread, hopacity']
  dsimp only [Option.bind_eq_bind, Option.bind_some]
  rw [if_pos (by simp [hlightness.1, hlightness.2, hchroma, halpha.1, halpha.2])]
  rfl

theorem exists_parse_text {color : Color Float} (h : color.IsReadable) :
    ∃ y, parse color.text = some y :=
  ⟨_, parse_text h⟩

end Color

end Screenwright
