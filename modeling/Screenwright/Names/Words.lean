/-
Type names and member names made from free text.

A text falls into words: runs of letters and digits of ASCII, cut further where the kind
of character changes and before a capital that begins a word after other capitals.  A
type name writes every word with a capital, a member name every word but the first.
-/
import Screenwright.Text.Blank

namespace Screenwright.Names

/-- Whether a word ends between `c` and `d`; `e` follows them. -/
def breaksBetween (c d : Char) (e : Option Char) : Bool :=
  (c.isLower && d.isUpper) || (c.isUpper && d.isDigit) || (c.isDigit && d.isUpper) ||
    (c.isDigit && d.isLower) || (c.isLower && d.isDigit) ||
    (c.isUpper && d.isUpper && e.any Char.isLower)

/-- The words of a run of letters and digits. -/
def cutWords : List Char → List (List Char)
  | [] => []
  | [c] => [[c]]
  | c :: d :: cs =>
    match cutWords (d :: cs) with
    | [] => [[c]]
    | word :: rest =>
      if breaksBetween c d cs.head? then [c] :: word :: rest else (c :: word) :: rest

/-- The words of a text. -/
def words (cs : List Char) : List (List Char) :=
  (Text.runs (fun c => !c.isAlphanum) cs).flatMap cutWords

/-- A word with a capital. -/
def capitalize : List Char → List Char
  | [] => []
  | c :: cs => c.toUpper :: cs.map Char.toLower

/-- The words with a capital each. -/
def upperCamel (cs : List Char) : List Char :=
  (words cs).flatMap capitalize

/-- The words with a capital each, except the first. -/
def lowerCamel (cs : List Char) : List Char :=
  match words cs with
  | [] => []
  | word :: rest => word.map Char.toLower ++ rest.flatMap capitalize

/-- The type name made from a text; none if the text has no letter and no digit. -/
def typeNameChars (cs : List Char) : Option (List Char) :=
  match upperCamel cs with
  | [] => none
  | c :: rest => some (if c.isDigit then 'N' :: c :: rest else c :: rest)

/-- The type name made from a string. -/
def typeName? (raw : String) : Option String :=
  (typeNameChars raw.toList).map String.ofList

/-- The member name made from a text. -/
def memberNameChars (cs : List Char) : List Char :=
  match lowerCamel cs with
  | [] => "value".toList
  | c :: rest => if c.isDigit then 'n' :: c :: rest else c :: rest

/-- The member name made from a string. -/
def memberName (raw : String) : String :=
  String.ofList (memberNameChars raw.toList)

/-- The folder of an app's sources, which is also what its type is named after. -/
def appFolder (appName : String) : String :=
  (typeName? appName).getD "Generated"

/-- The type of an app. -/
def appTypeName (appName : String) : String :=
  appFolder appName ++ "App"

end Screenwright.Names
