/-
The tokens of a settings file.

The reader looks at one character at a time, so it is a fold over the characters.
Strings and comments are resolved here; what is left are words, marks and line ends.
Names and numbers are both words, because only their place tells them apart.
-/
import Screenwright.Toml.Basic
import Screenwright.Toml.Moment

namespace Screenwright.Toml

/-- A token. -/
inductive Token where
  /-- Letters, digits and what holds a name, a number or a date together. -/
  | word (cs : List Char)
  /-- A string on one line, which may be a name. -/
  | quoted (s : String)
  /-- A string over several lines. -/
  | block (s : String)
  /-- One of `=`, `,`, brackets and braces. -/
  | mark (c : Char)
  | newline
deriving DecidableEq, Repr

/-- Whether a character can stand in a word. -/
def isWordChar (c : Char) : Bool :=
  c.isAlphanum || c = '_' || c = '-' || c = '+' || c = '.' || c = ':'

/-- Whether a character can stand in a comment or a string. -/
def isTextChar (c : Char) : Bool :=
  c = '\t' || (' ' ≤ c && c ≠ '\x7f')

/-- A string that is open: its quote, whether it goes over lines, and its text backwards. -/
structure Quoting where
  quote : Char
  block : Bool
  text : List Char

/-- The token of a string that ends. -/
def Quoting.token (q : Quoting) : Token :=
  if q.block then .block (String.ofList q.text.reverse)
  else .quoted (String.ofList q.text.reverse)

/-- A string with one more character. -/
def Quoting.push (q : Quoting) (c : Char) : Quoting :=
  { q with text := c :: q.text }

/-- Where the reader is. -/
inductive Place where
  | between
  | comment
  /-- In a word, kept backwards. -/
  | inWord (cs : List Char)
  /-- After a date and a blank, where the word goes on if a time of day follows. -/
  | afterDate (date : List Char)
  /-- After the first quote of a string. -/
  | opened (quote : Char)
  /-- After two quotes: an empty string, or the start of a block. -/
  | twice (quote : Char)
  /-- In a block whose first line may still be empty. -/
  | blockStart (quote : Char)
  /-- In a string, after some quotes that may end it. -/
  | inString (q : Quoting) (quotes : Nat)
  /-- After a backslash. -/
  | escape (q : Quoting)
  /-- In a code point of which some digits are missing. -/
  | codePoint (q : Quoting) (missing value : Nat)
  /-- After a backslash at the end of a line. -/
  | gap (q : Quoting) (newline : Bool)

/-- A character outside of all tokens. -/
def stepBetween (c : Char) : Option (List Token × Place) :=
  if c = ' ' || c = '\t' then some ([], .between)
  else if c = '\n' then some ([.newline], .between)
  else if c = '#' then some ([], .comment)
  else if c = '"' || c = '\'' then some ([], .opened c)
  else if isWordChar c then some ([], .inWord [c])
  else if "=,[]\x7b\x7d".toList.contains c then some ([.mark c], .between)
  else none

/-- A character after a finished token. -/
def stepAfter (token : Token) (c : Char) : Option (List Token × Place) :=
  (stepBetween c).map fun (tokens, place) => (token :: tokens, place)

/-- A character of a string that is no quote. -/
def stepText (q : Quoting) (c : Char) : Option (List Token × Place) :=
  if c = '\\' && q.quote = '"' then some ([], .escape q)
  else if isTextChar c || (q.block && c = '\n') then some ([], .inString (q.push c) 0)
  else none

/-- A character of a string. -/
def stepString (q : Quoting) (quotes : Nat) (c : Char) : Option (List Token × Place) :=
  if !q.block then
    if c = q.quote then some ([q.token], .between) else stepText q c
  else if c = q.quote then
    if quotes < 5 then some ([], .inString q (quotes + 1)) else none
  else if 3 ≤ quotes then
    stepAfter { q with text := List.replicate (quotes - 3) q.quote ++ q.text }.token c
  else stepText { q with text := List.replicate quotes q.quote ++ q.text } c

/-- What a letter after a backslash stands for. -/
def escapes : List (Char × Char) :=
  [('"', '"'), ('\\', '\\'), ('b', '\x08'), ('t', '\t'), ('n', '\n'), ('f', '\x0c'),
    ('r', '\r')]

/-- A character after a backslash. -/
def stepEscape (q : Quoting) (c : Char) : Option (List Token × Place) :=
  match escapes.lookup c with
  | some meant => some ([], .inString (q.push meant) 0)
  | none =>
    if c = 'u' then some ([], .codePoint q 4 0)
    else if c = 'U' then some ([], .codePoint q 8 0)
    else if q.block && (c = ' ' || c = '\t') then some ([], .gap q false)
    else if q.block && c = '\n' then some ([], .gap q true)
    else none

/-- The value of a hexadecimal digit. -/
def hexValue? (c : Char) : Option Nat :=
  if c.isDigit then some (c.toNat - '0'.toNat)
  else if 'a' ≤ c && c ≤ 'f' then some (c.toNat - 'a'.toNat + 10)
  else if 'A' ≤ c && c ≤ 'F' then some (c.toNat - 'A'.toNat + 10)
  else none

/-- A digit of a code point. -/
def stepCodePoint (q : Quoting) (missing value : Nat) (c : Char) :
    Option (List Token × Place) := do
  let value := 16 * value + (← hexValue? c)
  if 1 < missing then return ([], .codePoint q (missing - 1) value)
  else if value.isValidChar then return ([], .inString (q.push (Char.ofNat value)) 0)
  else none

/-- A character in the gap after a backslash at the end of a line. -/
def stepGap (q : Quoting) (newline : Bool) (c : Char) : Option (List Token × Place) :=
  if c = ' ' || c = '\t' then some ([], .gap q newline)
  else if c = '\n' then some ([], .gap q true)
  else if newline then stepString q 0 c
  else none

/-- Reads one character. -/
def step (place : Place) (c : Char) : Option (List Token × Place) :=
  match place with
  | .between => stepBetween c
  | .comment =>
    if c = '\n' then some ([.newline], .between)
    else if isTextChar c then some ([], .comment)
    else none
  | .inWord cs =>
    if isWordChar c then some ([], .inWord (c :: cs))
    else if c = ' ' && isDate cs.reverse then some ([], .afterDate cs)
    else stepAfter (.word cs.reverse) c
  | .afterDate date =>
    if c.isDigit then some ([], .inWord (c :: ' ' :: date))
    else stepAfter (.word date.reverse) c
  | .opened quote =>
    if c = quote then some ([], .twice quote) else stepText ⟨quote, false, []⟩ c
  | .twice quote =>
    if c = quote then some ([], .blockStart quote) else stepAfter (.quoted "") c
  | .blockStart quote =>
    if c = '\n' then some ([], .inString ⟨quote, true, []⟩ 0)
    else stepString ⟨quote, true, []⟩ 0 c
  | .inString q quotes => stepString q quotes c
  | .escape q => stepEscape q c
  | .codePoint q missing value => stepCodePoint q missing value c
  | .gap q newline => stepGap q newline c

/-- The last token, when the text ends. -/
def finish : Place → Option (List Token)
  | .between => some []
  | .comment => some []
  | .inWord cs => some [.word cs.reverse]
  | .afterDate date => some [.word date.reverse]
  | .twice _ => some [.quoted ""]
  | .inString q quotes =>
    if q.block && 3 ≤ quotes then
      some [{ q with text := List.replicate (quotes - 3) q.quote ++ q.text }.token]
    else none
  | _ => none

/-- The tokens of a text from a place on. -/
def tokensFrom (place : Place) : List Char → Option (List Token)
  | [] => finish place
  | c :: cs => do
    let (tokens, place) ← step place c
    return tokens ++ (← tokensFrom place cs)

/-- The text with every line ended by a line feed alone. -/
def plainLines : List Char → List Char
  | '\r' :: '\n' :: cs => '\n' :: plainLines cs
  | c :: cs => c :: plainLines cs
  | [] => []

/-- The tokens of a text; a byte order mark in front of it is skipped. -/
def tokens (cs : List Char) : Option (List Token) :=
  tokensFrom .between (plainLines (if cs.head? = some '\ufeff' then cs.tail else cs))

end Screenwright.Toml
