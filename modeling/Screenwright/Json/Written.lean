/-
Writing JSON.

Numbers are written with the fewest digits that read back: positionally for decimal
exponents from -5 to 15, else with a signed exponent; a whole float keeps its `.0`, and
a float that is not finite is `null`.  In strings the quote, the backslash and the
controls below 0x20 are escaped, and nothing else.

What is written is a tree that keeps the order of its fields, so that records are
written in the order of their declaration.
-/
import Screenwright.Json.Basic
import Screenwright.Number.Notation
import Screenwright.Text.Split

namespace Screenwright

namespace Json

/-- The form of the floats in JSON texts. -/
def floatForm : Number.Form := ⟨fun e => -5 ≤ e && e < 16, true, true, .even⟩

/-- A float in a JSON text. -/
def writeFloat (x : Float) : String :=
  if x.isNaN || x.isInf then "null" else String.ofList (floatForm.write x)

/-- A hexadecimal digit in lower case. -/
def hexDigit (n : Nat) : Char :=
  if n < 10 then Char.ofNat ('0'.toNat + n) else Char.ofNat ('a'.toNat + (n - 10))

/-- How a character stands in a JSON string. -/
def escapeChar (c : Char) : List Char :=
  match c with
  | '"' => ['\\', '"']
  | '\\' => ['\\', '\\']
  | '\x08' => ['\\', 'b']
  | '\x0c' => ['\\', 'f']
  | '\n' => ['\\', 'n']
  | '\r' => ['\\', 'r']
  | '\t' => ['\\', 't']
  | c =>
    if c.toNat < 0x20 then ['\\', 'u', '0', '0', hexDigit (c.toNat / 16), hexDigit (c.toNat % 16)]
    else [c]

/-- A string with its quotes. -/
def quote (s : String) : String :=
  String.ofList ('"' :: s.toList.flatMap escapeChar ++ ['"'])

mutual

/-- A value on one line without blanks. -/
def compact : Json → String
  | .null => "null"
  | .bool b => if b then "true" else "false"
  | .int n => toString n
  | .float x => writeFloat x
  | .string s => quote s
  | .array items => "[" ++ Text.join "," (compactItems items) ++ "]"
  | .object fields => "\x7b" ++ Text.join "," (compactFields fields) ++ "\x7d"

/-- The items of an array, each on one line. -/
def compactItems : List Json → List String
  | [] => []
  | j :: js => compact j :: compactItems js

/-- The fields of an object, each on one line. -/
def compactFields : List (String × Json) → List String
  | [] => []
  | (name, j) :: js => (quote name ++ ":" ++ compact j) :: compactFields js

end

/-- The blanks at the start of a line. -/
def margin (depth : Nat) : String :=
  String.ofList (List.replicate (2 * depth) ' ')

/-- Parts on lines of their own between brackets; an empty container stays on one line. -/
def bracketed (opening closing : String) (depth : Nat) (parts : List String) : String :=
  if parts.isEmpty then opening ++ closing
  else
    opening ++ "\n" ++ Text.join ",\n" (parts.map (margin (depth + 1) ++ ·)) ++ "\n" ++
      margin depth ++ closing

mutual

/-- A value over several lines with two blanks for each level. -/
def pretty (depth : Nat) : Json → String
  | .array items => bracketed "[" "]" depth (prettyItems (depth + 1) items)
  | .object fields => bracketed "\x7b" "\x7d" depth (prettyFields (depth + 1) fields)
  | .null => "null"
  | .bool b => if b then "true" else "false"
  | .int n => toString n
  | .float x => writeFloat x
  | .string s => quote s

/-- The items of an array over several lines. -/
def prettyItems (depth : Nat) : List Json → List String
  | [] => []
  | j :: js => pretty depth j :: prettyItems depth js

/-- The fields of an object over several lines. -/
def prettyFields (depth : Nat) : List (String × Json) → List String
  | [] => []
  | (name, j) :: js => (quote name ++ ": " ++ pretty depth j) :: prettyFields depth js

end

end Json

end Screenwright
