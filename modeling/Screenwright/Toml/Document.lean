/-
Reading a settings file.

A file is a list of lines.  A line gives a value to a name or opens the table that the
names below it belong to.  A file that names anything twice, that goes on after a value,
or that is nested too deeply is no settings file.
-/
import Screenwright.Toml.Scalar

namespace Screenwright.Toml

/-! ### Names -/

/-- Whether a name can stand without quotes. -/
def isBareName (cs : List Char) : Bool :=
  !cs.isEmpty && cs.all fun c => c.isAlphanum || c = '_' || c = '-'

/-- The names in a word, with nothing for every dot. -/
def nameParts (word : List Char) : List (Option (List Char)) :=
  (((Text.segmentsOf '.' word).map some).intersperse none).filter (· ≠ some [])

/-- Names with a dot between every two of them. -/
def alternating : List (Option (Option String)) → Option (List String)
  | [some name] => name.map ([·])
  | some name :: none :: rest => do return (← name) :: (← alternating rest)
  | _ => none

/-- The number of steps into a value, or of parts of a name, from which on a file is
nested too deeply. -/
def nestingLimit : Nat := 80

/-- A dotted name in front of other tokens. -/
def readName (tokens : List Token) : Option (List String × List Token) :=
  let isPart := fun t => match t with
    | .word _ => true
    | .quoted _ => true
    | _ => false
  let parts := (tokens.takeWhile isPart).flatMap fun t => match t with
    | .word cs => (nameParts cs).map fun part => part.map fun cs =>
        if isBareName cs then some (String.ofList cs) else none
    | .quoted s => [some (some s)]
    | _ => []
  match alternating parts with
  | some path =>
    if path.length < nestingLimit then some (path, tokens.dropWhile isPart) else none
  | none => none

/-- A dotted name and the equals sign behind it. -/
def readAssigned (tokens : List Token) : Option (List String × List Token) :=
  match readName tokens with
  | some (path, .mark '=' :: rest) => some (path, rest)
  | _ => none

/-! ### Values -/

/-- What is left behind line ends. -/
def skipLines (tokens : List Token) : List Token :=
  tokens.dropWhile (· = .newline)

mutual

/-- A value; every call takes from `fuel`, of which two for each token suffice. -/
def readValue (fuel : Nat) (tokens : List Token) : Option (Toml × List Token) :=
  match fuel, tokens with
  | fuel + 1, .mark '[' :: rest =>
    match skipLines rest with
    | .mark ']' :: rest => some (.array [], rest)
    | rest => (readItems fuel rest).map fun (items, rest) => (.array items, rest)
  | _ + 1, .mark '\x7b' :: .mark '\x7d' :: rest => some (.table .braces [], rest)
  | fuel + 1, .mark '\x7b' :: rest =>
    (readEntries fuel [] rest).map fun (entries, rest) => (.table .braces entries, rest)
  | _ + 1, .word cs :: rest => (ofWord cs).map (·, rest)
  | _ + 1, .quoted s :: rest => some (.string s, rest)
  | _ + 1, .block s :: rest => some (.string s, rest)
  | _, _ => none

/-- The items of an array up to its end; a comma may stand behind the last one. -/
def readItems (fuel : Nat) (tokens : List Token) : Option (List Toml × List Token) :=
  match fuel with
  | 0 => none
  | fuel + 1 => do
    let (item, rest) ← readValue fuel tokens
    match skipLines rest with
    | .mark ']' :: rest => return ([item], rest)
    | .mark ',' :: rest =>
      match skipLines rest with
      | .mark ']' :: rest => return ([item], rest)
      | rest => return (← readItems fuel rest).map (item :: ·) id
    | _ => none

/-- The entries of a table between braces up to its end. -/
def readEntries (fuel : Nat) (entries : Entries Toml) (tokens : List Token) :
    Option (Entries Toml × List Token) :=
  match fuel with
  | 0 => none
  | fuel + 1 => do
    let (path, rest) ← readAssigned tokens
    let (value, rest) ← readValue fuel rest
    let entries ← add value path entries
    match rest with
    | .mark '\x7d' :: rest => return (entries, rest)
    | .mark ',' :: rest => readEntries fuel entries rest
    | _ => none

end

/-! ### Lines -/

/-- Reads the lines of a file; `header` leads to the table that they belong to. -/
def readLines (fuel : Nat) (header : List String) (root : Entries Toml) (tokens : List Token) :
    Option (Entries Toml) :=
  match fuel, skipLines tokens with
  | _, [] => some root
  | 0, _ => none
  | fuel + 1, .mark '[' :: rest =>
    match readName rest with
    | some (path, .mark ']' :: rest) => do
      let root ← openTable path root
      match rest with
      | [] => return root
      | .newline :: rest => readLines fuel path root rest
      | _ => none
    | _ => none
  | fuel + 1, line => do
    let (path, rest) ← readAssigned line
    let (value, rest) ← readValue (2 * rest.length) rest
    let root ← within (add value path) header root
    match rest with
    | [] => return root
    | .newline :: rest => readLines fuel header root rest
    | _ => none

/-- Whether so few brackets and braces are open at a time that values are not nested too
deeply; `depth` of them are open already. -/
def nestingFits (depth : Nat) : List Token → Bool
  | [] => true
  | .mark c :: rest =>
    if c = '[' || c = '\x7b' then
      decide (depth + 1 < nestingLimit) && nestingFits (depth + 1) rest
    else if c = ']' || c = '\x7d' then nestingFits (depth - 1) rest
    else nestingFits depth rest
  | _ :: rest => nestingFits depth rest

/-- The entries of a settings file. -/
def read (s : String) : Option (Entries Toml) := do
  let tokens ← tokens s.toList
  if nestingFits 0 tokens then readLines tokens.length [] [] tokens else none

end Screenwright.Toml
