/-
What a float printed with some places is read as.

The text of a finite float is that of a whole number of units with the point put in, and it is read
as that number of units.  So the float that is read is not the one that was printed, but one that
is near; what has to survive is that it lies in the unit interval, or that it is not below zero.
-/
import Screenwright.Number.Notation
import Screenwright.Proofs.Floats.Fractions

namespace Screenwright.Number

open Float.Model (UnpackedFloat)

/-! ### Digits -/

theorem isDigit_of_mem_digitsOf {n : Nat} {c : Char} (h : c ∈ digitsOf n) : c.isDigit = true :=
  Nat.isDigit_of_mem_toDigits (by decide) (by decide) h

theorem ofDigits_append_zeros (count n : Nat) :
    ofDigits 0 (List.replicate count '0' ++ digitsOf n) = n := by
  show Nat.ofDigitChars 10 (List.replicate count '0' ++ Nat.toDigits 10 n) 0 = n
  rw [Nat.ofDigitChars_append, Nat.ofDigitChars_replicate_zero, Nat.mul_zero,
    Nat.ofDigitChars_ten_toDigits]

/-- A number with the point put in: its digits before and behind the point. -/
theorem placed_eq {places : Nat} (hplaces : 0 < places) (n : Nat) :
    ∃ whole fraction, placed places n = whole ++ '.' :: fraction ∧ whole ≠ [] ∧
      fraction.length = places ∧ ofDigits 0 (whole ++ fraction) = n ∧
      ∀ c ∈ whole ++ fraction, c.isDigit = true := by
  let padded := List.replicate (places + 1 - (digitsOf n).length) '0' ++ digitsOf n
  have hlength : places + 1 ≤ padded.length := by
    rw [List.length_append, List.length_replicate]
    omega
  refine ⟨padded.take (padded.length - places), padded.drop (padded.length - places), ?_, ?_, ?_,
    ?_, ?_⟩
  · exact if_neg (Nat.ne_of_gt hplaces)
  · intro hnil
    have := congrArg List.length hnil
    rw [List.length_take, List.length_nil] at this
    omega
  · rw [List.length_drop]
    omega
  · rw [List.take_append_drop]
    exact ofDigits_append_zeros _ n
  · rw [List.take_append_drop]
    intro c hc
    rcases List.mem_append.mp hc with hc | hc
    · rw [List.eq_of_mem_replicate hc]
      rfl
    · exact isDigit_of_mem_digitsOf hc

theorem readMagnitude_placed {places : Nat} (hplaces : 0 < places) (n : Nat) :
    readMagnitude (placed places n) = some (ofDecimal n (-(places : Int))) := by
  obtain ⟨whole, fraction, heq, hne, hlength, hvalue, hdigits⟩ := placed_eq hplaces n
  rw [List.forall_mem_append] at hdigits
  obtain ⟨hwhole, hfraction⟩ := hdigits
  have htake : (whole ++ '.' :: fraction).takeWhile Char.isDigit = whole := by
    rw [List.takeWhile_append_of_pos hwhole]
    simp
  have hdrop : (whole ++ '.' :: fraction).dropWhile Char.isDigit = '.' :: fraction := by
    rw [List.dropWhile_append_of_pos hwhole]
    rfl
  have htake' : fraction.takeWhile Char.isDigit = fraction :=
    List.takeWhile_eq_self_iff.mpr hfraction
  have hdrop' : fraction.dropWhile Char.isDigit = [] :=
    List.dropWhile_eq_nil_iff.mpr hfraction
  unfold readMagnitude
  simp only [heq, htake, hdrop, htake', hdrop', hvalue, hlength]
  rw [if_neg (by simp [hne])]

theorem toLower_of_isDigit {c : Char} (h : c.isDigit = true) : c.toLower = c := by
  unfold Char.toLower
  refine dif_neg fun hupper => ?_
  have hlow : 'A'.toNat ≤ c.toNat := hupper.1
  have hhigh : c.toNat ≤ '9'.toNat := (Char.isDigit_iff_toNat.mp h).2
  exact absurd (Nat.le_trans hlow hhigh) (by decide)

/-- A number that begins with a digit is none of the words. -/
theorem readSize_of_isDigit {c : Char} (h : c.isDigit = true) (cs : List Char) :
    (if String.ofList ((c :: cs).map Char.toLower) = "nan" then some (0.0 / 0.0)
      else if String.ofList ((c :: cs).map Char.toLower) = "inf" ||
        String.ofList ((c :: cs).map Char.toLower) = "infinity" then some (1.0 / 0.0)
      else readMagnitude (c :: cs)) = readMagnitude (c :: cs) := by
  have hword : ∀ d ds, d.isDigit = false →
      String.ofList ((c :: cs).map Char.toLower) ≠ String.ofList (d :: ds) := by
    intro d ds hd heq
    have hlist := congrArg String.toList heq
    rw [String.toList_ofList, String.toList_ofList, List.map_cons, toLower_of_isDigit h,
      List.cons.injEq] at hlist
    rw [← hlist.1, h] at hd
    contradiction
  have hnan : String.ofList ((c :: cs).map Char.toLower) ≠ "nan" := hword 'n' ['a', 'n'] rfl
  have hinf : String.ofList ((c :: cs).map Char.toLower) ≠ "inf" := hword 'i' ['n', 'f'] rfl
  have hinfinity : String.ofList ((c :: cs).map Char.toLower) ≠ "infinity" :=
    hword 'i' ['n', 'f', 'i', 'n', 'i', 't', 'y'] rfl
  rw [if_neg hnan, if_neg]
  rw [Bool.or_eq_true, decide_eq_true_eq, decide_eq_true_eq, not_or]
  exact ⟨hinf, hinfinity⟩

theorem readChars_of_isDigit {c : Char} (h : c.isDigit = true) (cs : List Char) :
    readChars (c :: cs) = readMagnitude (c :: cs) ∧
      readChars ('-' :: c :: cs) = (readMagnitude (c :: cs)).map fun x => -x := by
  have hsize := readSize_of_isDigit h cs
  constructor
  · unfold readChars
    split
    next negative body heq =>
    split at heq
    next r hminus =>
      cases hminus
      contradiction
    next r hplus =>
      cases hplus
      contradiction
    next =>
      cases heq
      show Option.map (fun x => if false = true then -x else x) _ = _
      exact (congrArg _ hsize).trans Option.map_id'
  · show Option.map (fun x => if true = true then -x else x) _ = _
    exact congrArg _ hsize

theorem readChars_placed {places : Nat} (hplaces : 0 < places) (n : Nat) :
    readChars (placed places n) = some (ofDecimal n (-(places : Int))) ∧
      readChars ('-' :: placed places n) = some (-ofDecimal n (-(places : Int))) := by
  have hmagnitude := readMagnitude_placed hplaces n
  obtain ⟨whole, fraction, heq, hne, -, -, hdigits⟩ := placed_eq hplaces n
  obtain ⟨c, rest, rfl⟩ := List.exists_cons_of_ne_nil hne
  have hdigit : c.isDigit = true := hdigits c (by simp)
  rw [List.cons_append] at heq
  rw [heq] at hmagnitude ⊢
  generalize rest ++ '.' :: fraction = body at hmagnitude ⊢
  obtain ⟨hplain, hminus⟩ := readChars_of_isDigit hdigit body
  rw [hplain, hminus, hmagnitude]
  exact ⟨rfl, rfl⟩

/-! ### Printed floats -/

/-- How many units of the last place a finite float is printed as. -/
def fixedUnits (places : Nat) (x : Float) : Nat :=
  roundDiv ((parts x).significand * pow10 places * pow2 (parts x).exponent.toNat)
    (pow2 (-(parts x).exponent).toNat)

/-- The float that a printed float is read as. -/
def reread (places : Nat) (x : Float) : Float :=
  if x.isNaN then 0.0 / 0.0
  else if x.isInf then if 0.0 < x then 1.0 / 0.0 else -(1.0 / 0.0)
  else if (parts x).negative then -ofDecimal (fixedUnits places x) (-(places : Int))
  else ofDecimal (fixedUnits places x) (-(places : Int))

theorem readChars_fixed {places : Nat} (hplaces : 0 < places) (x : Float) :
    readChars (fixed places x).toList = some (reread places x) := by
  unfold fixed reread
  split
  · rfl
  split
  · split <;> rfl
  · rw [String.toList_ofList]
    unfold fixedChars
    dsimp only
    split
    · exact (readChars_placed hplaces _).2
    · exact (readChars_placed hplaces _).1

/-! ### What survives -/

theorem roundDiv_le {num den k : Nat} (hden : 0 < den) (h : num ≤ k * den) :
    roundDiv num den ≤ k := by
  have hquotient : num / den ≤ k := Nat.div_le_of_le_mul (by rwa [Nat.mul_comm])
  have hsettle : Tie.even.settle (num / den) ≤ num / den + 1 := by
    simp only [Tie.settle]
    split <;> omega
  rcases Nat.lt_or_eq_of_le hquotient with hlt | heq
  · unfold roundDiv
    dsimp only
    split
    · omega
    split
    · omega
    · omega
  · -- nothing is left over
    have hrest : num % den = 0 := by
      have hmod := Nat.div_add_mod num den
      rw [heq, Nat.mul_comm] at hmod
      omega
    unfold roundDiv
    dsimp only
    rw [if_pos (by omega)]
    exact hquotient

variable {x : Float} {places : Nat}

theorem fixedUnits_le (h : InUnit x) : fixedUnits places x ≤ pow10 places := by
  refine roundDiv_le (Nat.two_pow_pos _) ?_
  rw [Nat.mul_right_comm, Nat.mul_comm]
  exact Nat.mul_le_mul_left _ h.significand_le

theorem fixedUnits_eq_zero (h : (parts x).significand = 0) : fixedUnits places x = 0 := by
  refine Nat.le_zero.mp (roundDiv_le (Nat.two_pow_pos _) ?_)
  rw [h, Nat.zero_mul, Nat.zero_mul, Nat.zero_mul]

theorem inUnit_reread (h : InUnit x) (hplaces : places = 2 ∨ places = 3) :
    InUnit (reread places x) := by
  obtain ⟨hnan, hinf⟩ := isFinite_iff.mp h.isFinite
  unfold reread
  rw [hnan, hinf, if_neg Bool.false_ne_true, if_neg Bool.false_ne_true]
  split
  next hnegative =>
    rw [fixedUnits_eq_zero (significand_eq_zero h.not_lt_zero h.isFinite hnegative)]
    exact inUnit_negZero
  next => exact inUnit_ofDecimal (fixedUnits_le h) hplaces

/-- What is printed of a float that is not below zero is read as such a float. -/
theorem not_lt_zero_reread (h : ¬ x < 0.0) : ¬ reread 3 x < 0.0 := by
  unfold reread
  split
  · exact not_lt_zero_iff.mpr trivial
  split
  next hnan hinf =>
    have habove : 0.0 < x := by
      rw [not_lt_zero_iff] at h
      replace hinf : x.toModel.unpack.isInf = true := hinf
      rw [lt_iff_compare, unpack_ofZero]
      cases hx : x.toModel.unpack with
      | infinity s =>
          rw [hx] at h
          cases s with
          | negative => exact absurd h id
          | positive => rfl
      | _ =>
          rw [hx] at hinf
          contradiction
    rw [if_pos habove]
    exact not_lt_zero_iff.mpr trivial
  next hnan hinf =>
    split
    next hnegative =>
      rw [Bool.not_eq_true] at hnan hinf
      have hfinite := isFinite_iff.mpr ⟨hnan, hinf⟩
      rw [fixedUnits_eq_zero (significand_eq_zero h hfinite hnegative)]
      exact inUnit_negZero.not_lt_zero
    next => exact not_lt_zero_ofDecimal _

end Screenwright.Number
