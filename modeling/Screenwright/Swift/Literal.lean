/-
Values and statements as they are written.

Text that comes from an app stands inside string literals only, and there every
character that could end the literal, start an interpolation or break the line is
escaped.  Numbers are the shortest literals that read back.
-/
import Screenwright.Number.Notation
import Screenwright.Swift.Code

namespace Screenwright.Swift

/-! ### Literals -/

/-- Whether a character is a control. -/
def isControl (c : Char) : Bool :=
  c.toNat < 0x20 || (0x7F ≤ c.toNat && c.toNat < 0xA0)

/-- The hexadecimal digits of a number, in upper case. -/
def hexDigits (n : Nat) : List Char :=
  (Nat.toDigits 16 n).map Char.toUpper

/-- How a character stands in a string literal. -/
def escapeChar (c : Char) : List Char :=
  if c = '\\' then ['\\', '\\']
  else if c = '"' then ['\\', '"']
  else if c = '\n' then ['\\', 'n']
  else if c = '\r' then ['\\', 'r']
  else if c = '\t' then ['\\', 't']
  else if c = '\x00' then ['\\', '0']
  else if isControl c then ['\\', 'u', '\x7b'] ++ hexDigits c.toNat ++ ['\x7d']
  else [c]

/-- The inside of a string literal. -/
def escapeChars (cs : List Char) : List Char :=
  cs.flatMap escapeChar

/-- A string literal. -/
def stringLiteral (s : String) : String :=
  String.ofList ('"' :: escapeChars s.toList ++ ['"'])

/-- The longest number that is written without an exponent. -/
def longestPlain : Nat := 21

/-- A number literal. -/
def number (x : Float) : String :=
  if x.isNaN then "Double.nan"
  else if x.isInf then if 0.0 < x then ".infinity" else "-.infinity"
  else if x == 0.0 then "0"
  else
    let plain := Number.plain x
    if plain.length ≤ longestPlain then plain
    else String.ofList (Number.scientificForm.write x)

/-- A boolean literal. -/
def boolLiteral (b : Bool) : String :=
  if b then "true" else "false"

/-- A color; a full opacity is left out. -/
def colorText (c : Rgba) : String :=
  "Color(red: " ++ Number.fixed 3 c.r ++ ", green: " ++ Number.fixed 3 c.g ++ ", blue: " ++
    Number.fixed 3 c.b ++
    (if c.a < 1.0 then ", opacity: " ++ Number.fixed 3 c.a else "") ++ ")"

/-! ### Values -/

mutual

/-- A value as it is written. -/
def Value.text : Value → String
  | .string s => stringLiteral s
  | .interpolation path => "\"\\(" ++ path ++ ")\""
  | .int n => toString n
  | .number x => number x
  | .bool b => boolLiteral b
  | .member name => "." ++ name
  | .ident name => name
  | .binding path => "$" ++ path
  | .constant value => ".constant(" ++ value.text ++ ")"
  | .color c => colorText c
  | .font size weight design =>
    ".system(size: " ++ number size ++ ", weight: " ++ weight ++ ", design: " ++ design ++ ")"
  | .call callee args => callee ++ "(" ++ Text.join ", " (argTexts args) ++ ")"
  | .method receiver name args =>
    receiver.text ++ "." ++ name ++ "(" ++ Text.join ", " (argTexts args) ++ ")"
  | .array items => "[" ++ Text.join ", " (valueTexts items) ++ "]"
  | .range low high => low.text ++ "..." ++ high.text
  | .action body =>
    if body.isEmpty then "\x7b\x7d" else "\x7b " ++ Text.join "; " (statementTexts body) ++ " \x7d"
  | .nil => "nil"

/-- A statement as it is written. -/
def Statement.text : Statement → String
  | .navigate route => "router.navigate(to: ." ++ route ++ ")"
  | .present flag => flag ++ " = true"
  | .dismiss => "dismiss()"
  | .invoke name args => name ++ "(" ++ Text.join ", " (argTexts args) ++ ")"

/-- Arguments as they are written. -/
def argTexts : List (Option String × Value) → List String
  | [] => []
  | (none, value) :: rest => value.text :: argTexts rest
  | (some label, value) :: rest => (label ++ ": " ++ value.text) :: argTexts rest

/-- Values as they are written. -/
def valueTexts : List Value → List String
  | [] => []
  | value :: rest => value.text :: valueTexts rest

/-- Statements as they are written. -/
def statementTexts : List Statement → List String
  | [] => []
  | statement :: rest => statement.text :: statementTexts rest

end

/-- The arguments of a call as they are written. -/
def argsText (args : List Arg) : String :=
  Text.join ", " (argTexts args)

end Screenwright.Swift
