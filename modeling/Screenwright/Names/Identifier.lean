/-
The forms of names and settings.

An identifier is a letter or an underscore followed by letters, digits and underscores,
all of ASCII.  The other forms are pieces of a fixed class with separators between
them.
-/
import Screenwright.Text.DecimalDigit
import Screenwright.Text.Split

namespace Screenwright.Names

/-- The first characters of an identifier. -/
def startsIdentifier (c : Char) : Bool :=
  c.isAlpha || c = '_'

/-- The further characters of an identifier. -/
def continuesIdentifier (c : Char) : Bool :=
  c.isAlphanum || c = '_'

/-- Whether the characters are an identifier. -/
def areIdentifier : List Char → Bool
  | [] => false
  | c :: cs => startsIdentifier c && cs.all continuesIdentifier

/-- Whether a name is an identifier. -/
def isIdentifier (name : String) : Bool :=
  areIdentifier name.toList

/-- The reserved words of Swift. -/
def keywords : List String :=
  ["as", "associatedtype", "break", "case", "catch", "class", "continue", "default", "defer",
    "deinit", "do", "else", "enum", "extension", "fallthrough", "false", "for", "func", "guard",
    "if", "import", "in", "init", "inout", "internal", "is", "let", "nil", "operator", "private",
    "protocol", "public", "repeat", "return", "self", "Self", "static", "struct", "subscript",
    "super", "switch", "throw", "throws", "true", "try", "typealias", "var", "where", "while"]

/-- Whether a name is a reserved word. -/
def isKeyword (name : String) : Bool :=
  keywords.contains name

/-- Whether a name can be given to something that generated code declares. -/
def isUsable (name : String) : Bool :=
  isIdentifier name && !isKeyword name

/-- One part of a bundle identifier: a letter, then letters, digits and hyphens. -/
def isBundlePart : List Char → Bool
  | [] => false
  | c :: cs => c.isAlpha && cs.all fun d => d.isAlphanum || d = '-'

/-- Whether a text is a bundle identifier: at least two parts with dots between them. -/
def isBundleId (s : String) : Bool :=
  let parts := Text.segmentsOf '.' s.toList
  2 ≤ parts.length && parts.all isBundlePart

/-- Whether a text is a number of at most `most` parts with dots between them, each a run
of decimal digits. -/
def isDotted (most : Nat) (s : String) : Bool :=
  let parts := Text.segmentsOf '.' s.toList
  parts.length ≤ most && parts.all fun part => !part.isEmpty && part.all Text.isDecimalDigit

/-- Whether a text is a version of an app. -/
def isVersion (s : String) : Bool :=
  isDotted 3 s

/-- Whether a text is a version of an operating system. -/
def isOsVersion (s : String) : Bool :=
  isDotted 2 s

/-- One part of a deep link. -/
def isLinkPart (part : List Char) : Bool :=
  !part.isEmpty && part.all fun c => c.isAlphanum || c = '_' || c = '-'

/-- Whether a text is a deep link: parts with a slash before each of them. -/
def isDeepLink (s : String) : Bool :=
  match Text.segmentsOf '/' s.toList with
  | [] :: part :: parts => (part :: parts).all isLinkPart
  | _ => false

/-- A name as a member is written: between backticks if it is a reserved word. -/
def escapeMember (name : String) : String :=
  if isKeyword name then "\x60" ++ name ++ "\x60" else name

end Screenwright.Names
