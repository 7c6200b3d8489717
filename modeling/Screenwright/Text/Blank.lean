/-
Blank space and the words between it.

The blank characters are those with the White_Space property of Unicode.  Trimming
and splitting into words work on lists of characters, so that each is a plain
recursion; `trim` is the form for strings.
-/

namespace Screenwright.Text

/-- The characters with the White_Space property. -/
def isBlank (c : Char) : Bool :=
  let n := c.toNat
  (9 ≤ n && n ≤ 13) || n == 0x20 || n == 0x85 || n == 0xA0 || n == 0x1680 ||
    (0x2000 ≤ n && n ≤ 0x200A) || n == 0x2028 || n == 0x2029 || n == 0x202F ||
    n == 0x205F || n == 0x3000

/-- The blank characters of the core library are blank here too. -/
theorem isBlank_of_isWhitespace {c : Char} (h : c.isWhitespace = true) : isBlank c = true := by
  simp only [Char.isWhitespace, Bool.or_eq_true, decide_eq_true_eq] at h
  rcases h with ((h | h) | h) | h <;> subst h <;> decide

/-- The characters without those at the end for which `p` holds. -/
def dropEndWhile (p : Char → Bool) (cs : List Char) : List Char :=
  (cs.reverse.dropWhile p).reverse

/-- The characters without blanks at either end. -/
def trimChars (cs : List Char) : List Char :=
  dropEndWhile isBlank (cs.dropWhile isBlank)

/-- The text without blanks at either end. -/
def trim (s : String) : String :=
  String.ofList (trimChars s.toList)

/-- The maximal runs of characters for which `p` does not hold. -/
def runs (p : Char → Bool) : List Char → List (List Char)
  | [] => []
  | c :: cs =>
    if p c then runs p cs
    else
      match cs, runs p cs with
      | [], rest => [c] :: rest
      | d :: _, word :: rest => if p d then [c] :: word :: rest else (c :: word) :: rest
      | _ :: _, [] => [[c]]

/-- The words of a text: what stands between blanks. -/
def blankWords (cs : List Char) : List (List Char) :=
  runs isBlank cs

end Screenwright.Text
