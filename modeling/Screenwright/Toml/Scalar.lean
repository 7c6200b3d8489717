/-
Words as values: truth values, numbers, dates and times.

Digits may be grouped with single underscores.  A decimal number has no leading zero;
hexadecimal, octal and binary numbers have no sign.
-/
import Screenwright.Json.Basic
import Screenwright.Number.Reading
import Screenwright.Text.Split
import Screenwright.Toml.Token

namespace Screenwright.Toml

/-- Whether digits are grouped with single underscores at most. -/
def isGrouped (isDigit : Char → Bool) (cs : List Char) : Bool :=
  (Text.segmentsOf '_' cs).all fun group => !group.isEmpty && group.all isDigit

/-- Whether the digits form a decimal number without leading zeros. -/
def isDecimal (cs : List Char) : Bool :=
  isGrouped Char.isDigit cs && (cs.head? ≠ some '0' || cs.length = 1)

/-- The sign in front of a number, and the rest. -/
def unsigned : List Char → Bool × List Char
  | '-' :: cs => (true, cs)
  | '+' :: cs => (false, cs)
  | cs => (false, cs)

/-- The value of grouped digits in a base. -/
def valueIn (base : Nat) (cs : List Char) : Option Nat :=
  if isGrouped (fun c => (hexValue? c).any (· < base)) cs then
    some ((cs.filterMap hexValue?).foldl (fun n d => base * n + d) 0)
  else none

/-- A whole number; it has to be a signed 64-bit number. -/
def int? (cs : List Char) : Option Int := do
  let n : Int ← match cs with
    | '0' :: 'x' :: ds => (valueIn 16 ds).map Int.ofNat
    | '0' :: 'o' :: ds => (valueIn 8 ds).map Int.ofNat
    | '0' :: 'b' :: ds => (valueIn 2 ds).map Int.ofNat
    | cs =>
      let (negative, ds) := unsigned cs
      if isDecimal ds then
        (valueIn 10 ds).map fun n => if negative then -(n : Int) else n
      else none
  if Json.inIntRange n then some n else none

/-- Whether an exponent is well formed. -/
def isExponent (cs : List Char) : Bool :=
  isGrouped Char.isDigit (unsigned cs).2

/-- Whether digits with a fraction or an exponent are well formed. -/
def hasFraction (cs : List Char) : Bool :=
  let isMark := fun c => c = 'e' || c = 'E'
  let mantissa := cs.takeWhile (!isMark ·)
  let exponent := cs.dropWhile (!isMark ·)
  let exponentFits := exponent.isEmpty || isExponent exponent.tail
  match Text.cutFirst '.' mantissa with
  | some (whole, fraction) =>
    isDecimal whole && isGrouped Char.isDigit fraction && exponentFits
  | none => isDecimal mantissa && !exponent.isEmpty && exponentFits

/-- Whether a word is a number with a fraction, or one of the words for no finite number.
A number too large for a float is refused. -/
def isFloat (cs : List Char) : Bool :=
  let body := (unsigned cs).2
  body = "inf".toList || body = "nan".toList ||
    (hasFraction body &&
      (Number.readChars (cs.filter (· ≠ '_'))).any (decide <| · < 1.0 / 0.0))

/-- The value of a word. -/
def ofWord (cs : List Char) : Option Toml :=
  if cs = "true".toList then some (.bool true)
  else if cs = "false".toList then some (.bool false)
  else
    match int? cs with
    | some n => some (.int n)
    | none => if isFloat cs || isDateTime cs then some .other else none

end Screenwright.Toml
