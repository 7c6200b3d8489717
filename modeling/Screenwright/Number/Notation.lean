/-
Written forms of a float.

A form says which decimal exponents are written out positionally, whether a whole
number keeps a fraction, how an exponent is written, and which of two equally near texts
is taken.  The digits are always the fewest that read back.
-/
import Screenwright.Number.Shortest

namespace Screenwright.Number

/-- The decisions of one written form. -/
structure Form where
  /-- The decimal exponents that are written positionally. -/
  positional : Int → Bool
  /-- Whether a whole number written positionally ends in `.0`. -/
  keepsPoint : Bool
  /-- Whether a positive exponent has a plus sign. -/
  plusSign : Bool
  /-- Which way the last digit goes if the value lies halfway. -/
  tie : Tie

/-- Digits written out with the point where the exponent puts it. -/
def Digits.positional (d : Digits) (keepsPoint : Bool) : List Char :=
  if d.digits.isEmpty then if keepsPoint then ['0', '.', '0'] else ['0']
  else if d.exponent < 0 then
    '0' :: '.' :: List.replicate (-d.exponent - 1).toNat '0' ++ d.digits
  else
    let whole := d.exponent.toNat + 1
    if d.digits.length ≤ whole then
      d.digits ++ List.replicate (whole - d.digits.length) '0' ++
        (if keepsPoint then ['.', '0'] else [])
    else d.digits.take whole ++ '.' :: d.digits.drop whole

/-- Digits written with one digit before the point and an exponent. -/
def Digits.scientific (d : Digits) (plusSign : Bool) : List Char :=
  let mantissa := match d.digits with
    | [] => ['0']
    | [c] => [c]
    | c :: rest => c :: '.' :: rest
  let sign := if d.exponent < 0 then ['-'] else if plusSign then ['+'] else []
  mantissa ++ 'e' :: sign ++ digitsOf d.exponent.natAbs

/-- A finite float in the given form. -/
def Form.write (form : Form) (x : Float) : List Char :=
  let d := shortest form.tie x
  let size :=
    if d.digits.isEmpty || form.positional d.exponent then d.positional form.keepsPoint
    else d.scientific form.plusSign
  if isNegative x then '-' :: size else size

/-- Every digit written out, without a fraction where there is none. -/
def plainForm : Form := ⟨fun _ => true, false, false, .up⟩

/-- One digit before the point and an exponent. -/
def scientificForm : Form := ⟨fun _ => false, false, false, .up⟩

/-- A finite float in `form`, and the usual words for the others. -/
def writeWith (form : Form) (x : Float) : String :=
  if x.isNaN then "NaN"
  else if x.isInf then if 0.0 < x then "inf" else "-inf"
  else String.ofList (form.write x)

/-- A float with all its digits, as messages show it. -/
def plain (x : Float) : String :=
  writeWith plainForm x

/-- A float that always shows a fraction or an exponent, as nested values show it. -/
def debug (x : Float) : String :=
  writeWith ⟨fun e => -5 < e && e < 16, true, false, .up⟩ x

/-! ### Fixed places -/

/-- The whole number nearest to `num / den`, an exact half going to the even neighbour. -/
def roundDiv (num den : Nat) : Nat :=
  let q := num / den
  let r := num % den
  if 2 * r < den then q
  else if den < 2 * r then q + 1
  else Tie.even.settle q

/-- A number in units of `10^-places` with the point put in. -/
def placed (places n : Nat) : List Char :=
  let ds := digitsOf n
  let padded := List.replicate (places + 1 - ds.length) '0' ++ ds
  let whole := padded.length - places
  if places = 0 then padded else padded.take whole ++ '.' :: padded.drop whole

/-- A finite float with the given number of places, halves to even, the sign always kept. -/
def fixedChars (places : Nat) (x : Float) : List Char :=
  let p := parts x
  let n := roundDiv (p.significand * pow10 places * pow2 p.exponent.toNat)
    (pow2 (-p.exponent).toNat)
  let size := placed places n
  if p.negative then '-' :: size else size

/-- A float with the given number of places. -/
def fixed (places : Nat) (x : Float) : String :=
  if x.isNaN then "NaN"
  else if x.isInf then if 0.0 < x then "inf" else "-inf"
  else String.ofList (fixedChars places x)

end Screenwright.Number
