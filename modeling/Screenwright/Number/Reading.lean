/-
Reading a float from its text.

A number is an optional sign followed by digits with at most one point and an
optional exponent, or one of the words `inf`, `infinity` and `nan` in any case.  At
least one digit stands before the exponent.  The text stands for the nearest float.
-/
import Screenwright.Number.Binary

namespace Screenwright.Number

/-- The number whose digits are given, continuing from `start`. -/
def ofDigits (start : Nat) (cs : List Char) : Nat :=
  cs.foldl (fun n c => 10 * n + (c.toNat - '0'.toNat)) start

/-- The float nearest to `mantissa * 10^exponent`.

A float lies strictly between `10^-400` and `10^400`, so beyond those bounds no
power is computed. -/
def ofDecimal (mantissa : Nat) (exponent : Int) : Float :=
  let size := (Nat.toDigits 10 mantissa).length + exponent
  if mantissa = 0 || size < -400 then 0.0
  else if 400 < size then 1.0 / 0.0
  else if exponent < 0 then Float.ofScientific mantissa true exponent.natAbs
  else Float.ofScientific mantissa false exponent.natAbs

/-- A significand of at most 64 bits times a power of ten, computed in floats.

The significand and the power are rounded, and so is their product or quotient, so the
result can be a neighbour of the float nearest to `significand * 10^exponent`.  Powers
up to `10^308` are floats; below `10^-616` every quotient is zero. -/
def scaled (significand : Nat) (exponent : Int) : Float :=
  let x := ofDecimal significand 0
  let power := fun (n : Nat) => ofDecimal 1 n
  let e := exponent.natAbs
  if 0 ≤ exponent then
    if e ≤ 308 then x * power e
    else if significand = 0 then 0.0
    else 1.0 / 0.0
  else if e ≤ 308 then x / power e
  else if e ≤ 616 then x / power 308 / power (e - 308)
  else 0.0

/-- The exponent after an `e`: a sign and at least one digit, and nothing else. -/
def readExponent (cs : List Char) : Option Int :=
  let (negative, ds) := match cs with
    | '-' :: r => (true, r)
    | '+' :: r => (false, r)
    | r => (false, r)
  if ds.isEmpty || !ds.all Char.isDigit then none
  else
    let n : Nat := ofDigits 0 ds
    some (if negative then -(n : Int) else n)

/-- A number without a sign. -/
def readMagnitude (cs : List Char) : Option Float :=
  let whole := cs.takeWhile Char.isDigit
  let rest := cs.dropWhile Char.isDigit
  let (fraction, rest) := match rest with
    | '.' :: r => (r.takeWhile Char.isDigit, r.dropWhile Char.isDigit)
    | r => ([], r)
  if whole.isEmpty && fraction.isEmpty then none
  else
    let mantissa := ofDigits 0 (whole ++ fraction)
    match rest with
    | [] => some (ofDecimal mantissa (-(fraction.length : Int)))
    | c :: r =>
      if c = 'e' || c = 'E' then
        (readExponent r).map fun e => ofDecimal mantissa (e - fraction.length)
      else none

/-- The float a text stands for. -/
def readChars (cs : List Char) : Option Float :=
  let (negative, body) := match cs with
    | '-' :: r => (true, r)
    | '+' :: r => (false, r)
    | r => (false, r)
  let word := String.ofList (body.map Char.toLower)
  let size :=
    if word = "nan" then some (0.0 / 0.0)
    else if word = "inf" || word = "infinity" then some (1.0 / 0.0)
    else readMagnitude body
  size.map fun x => if negative then -x else x

/-- The float a string stands for. -/
def read (s : String) : Option Float :=
  readChars s.toList

end Screenwright.Number
