/-
Reading a JSON text.

The reader looks at one character at a time and keeps the containers that are still
open on a stack, so it is a fold over the characters.  Its result is a tree in the order
of the text, with marks where the text is at fault: a reader that expects something of a
certain shape meets the faults in text order, and may well object to an earlier value
before it comes to a later fault.

Three kinds of fault are told apart.  After `cut` the text is no JSON.  A value marked
`unreadable` is well formed but stands for nothing (a number out of range, half of a
surrogate pair), and a container marked `buried` lies too deep; whoever skips those
values does not notice.
-/
import Screenwright.Json.Basic
import Screenwright.Number.Reading

namespace Screenwright

/-- A JSON text as far as it can be read. -/
inductive JsonText where
  | null
  | bool (b : Bool)
  | int (n : Int)
  | float (x : Float)
  | string (s : String)
  | array (items : List JsonText)
  /-- The members in text order; a name that cannot be read is missing. -/
  | object (members : List (Option String × JsonText))
  /-- A container nested deeper than a reader follows. -/
  | buried (inner : JsonText)
  /-- A well-formed scalar that stands for no value. -/
  | unreadable
  /-- The place from where on the text is no JSON. -/
  | cut

namespace JsonText

/-! ### Numbers -/

/-- The places inside a number where the reader can be. -/
inductive NumberPlace where
  | sign
  | zero
  | whole
  | point
  | fraction
  | mark
  | markSign
  | exponent
deriving DecidableEq

/-- A number read so far.

A significand holds the digits as long as it fits 64 bits.  Once it is full, a digit in
front of the point counts as a factor of ten only, and a digit behind it does not count. -/
structure NumberDraft where
  place : NumberPlace
  negative : Bool
  significand : Nat
  /-- Whether a digit of this side of the point did not fit. -/
  full : Bool
  /-- The power of ten that the digits so far leave to the significand. -/
  shift : Int
  exponentNegative : Bool
  exponent : Nat
  /-- Whether there was a point or an exponent. -/
  isFloat : Bool

namespace NumberDraft

/-- A number of which nothing but its sign is read. -/
def empty (negative : Bool) : NumberDraft :=
  ⟨.sign, negative, 0, false, 0, false, 0, false⟩

/-- The significand with one more digit, if it still fits. -/
def extended? (d : NumberDraft) (digit : Nat) : Option Nat :=
  let n := 10 * d.significand + digit
  if !d.full && n < 0x10000000000000000 then some n else none

/-- A significand never outgrows 64 bits. -/
theorem lt_of_extended? {d : NumberDraft} {digit n : Nat} (h : d.extended? digit = some n) :
    n < 0x10000000000000000 := by
  simp only [extended?, Option.ite_none_right_eq_some, Option.some.injEq, Bool.and_eq_true,
    decide_eq_true_eq] at h
  obtain ⟨⟨-, hlt⟩, rfl⟩ := h
  exact hlt

/-- The draft after a digit in front of the point. -/
def pushWhole (d : NumberDraft) (digit : Nat) : NumberDraft :=
  match d.extended? digit with
  | some n => { d with place := .whole, significand := n }
  | none => { d with place := .whole, full := true, shift := d.shift + 1 }

/-- The draft after a digit behind the point. -/
def pushFraction (d : NumberDraft) (digit : Nat) : NumberDraft :=
  match d.extended? digit with
  | some n => { d with place := .fraction, significand := n, shift := d.shift - 1 }
  | none => { d with place := .fraction, full := true }

/-- The draft after the point. -/
def pushPoint (d : NumberDraft) : NumberDraft :=
  { d with place := .point, full := false, isFloat := true }

/-- The draft after the mark in front of an exponent. -/
def pushMark (d : NumberDraft) : NumberDraft :=
  { d with place := .mark, isFloat := true }

/-- The draft after the minus sign or the first digit of a number. -/
def start? (c : Char) : Option NumberDraft :=
  if c = '-' then some (empty true)
  else if c = '0' then some { empty false with place := .zero }
  else if c.isDigit then some ((empty false).pushWhole (c.toNat - '0'.toNat))
  else none

/-- What a further character does to a number. -/
inductive Step where
  | more (d : NumberDraft)
  /-- The number was complete before this character. -/
  | complete
  | fault

/-- Reads one more character of a number. -/
def step (d : NumberDraft) (c : Char) : Step :=
  let digit := c.toNat - '0'.toNat
  let isMark := c = 'e' || c = 'E'
  match d.place with
  | .sign =>
    if c = '0' then .more { d with place := .zero }
    else if c.isDigit then .more (d.pushWhole digit)
    else .fault
  | .zero =>
    if c = '.' then .more d.pushPoint
    else if isMark then .more d.pushMark
    else if c.isDigit then .fault
    else .complete
  | .whole =>
    if c = '.' then .more d.pushPoint
    else if isMark then .more d.pushMark
    else if c.isDigit then .more (d.pushWhole digit)
    else .complete
  | .point => if c.isDigit then .more (d.pushFraction digit) else .fault
  | .fraction =>
    if c.isDigit then .more (d.pushFraction digit)
    else if isMark then .more d.pushMark
    else .complete
  | .mark =>
    if c = '+' then .more { d with place := .markSign }
    else if c = '-' then .more { d with place := .markSign, exponentNegative := true }
    else if c.isDigit then .more { d with place := .exponent, exponent := digit }
    else .fault
  | .markSign =>
    if c.isDigit then .more { d with place := .exponent, exponent := digit } else .fault
  | .exponent =>
    if c.isDigit then .more { d with exponent := 10 * d.exponent + digit } else .complete

/-- Whether a complete number is kept exact: it is whole and fits 64 bits. -/
def isExact (d : NumberDraft) : Bool :=
  !d.isFloat && !d.full &&
    (!d.negative || (d.significand ≠ 0 && d.significand ≤ 0x8000000000000000))

/-- The value of a complete number. -/
def value (d : NumberDraft) : JsonText :=
  if d.isExact then
    .int (if d.negative then -(d.significand : Int) else d.significand)
  else
    let e : Int := if d.exponentNegative then -(d.exponent : Int) else d.exponent
    let x := Number.scaled d.significand (d.shift + e)
    if x.isInf then .unreadable else .float (if d.negative then -x else x)

/-- Whether a number may end here. -/
def canEnd (d : NumberDraft) : Bool :=
  d.place = .zero || d.place = .whole || d.place = .fraction || d.place = .exponent

end NumberDraft

/-! ### Strings -/

/-- The places inside a string where the reader can be. -/
inductive StringPlace where
  | plain
  | escape
  /-- After `\u`: the digits still to come and the value so far. -/
  | hex (left : Nat) (value : Nat)

/-- A string read so far, last character first. -/
structure StringDraft where
  place : StringPlace
  reversed : List Char
  /-- The first half of a surrogate pair that waits for the second. -/
  pending : Option Nat
  /-- Whether every escape so far stands for a character. -/
  sound : Bool

namespace StringDraft

/-- The draft after the opening quote. -/
def start : StringDraft := ⟨.plain, [], none, true⟩

/-- The value of a hexadecimal digit. -/
def hexValue? (c : Char) : Option Nat :=
  if c.isDigit then some (c.toNat - '0'.toNat)
  else if 'a' ≤ c && c ≤ 'f' then some (c.toNat - 'a'.toNat + 10)
  else if 'A' ≤ c && c ≤ 'F' then some (c.toNat - 'A'.toNat + 10)
  else none

/-- Takes in a character that is not the second half of a pair. -/
def push (d : StringDraft) (c : Char) : StringDraft :=
  { place := .plain, reversed := c :: d.reversed, pending := none
    sound := d.sound && d.pending.isNone }

/-- Takes in the code of a `\u` escape. -/
def pushCode (d : StringDraft) (code : Nat) : StringDraft :=
  match d.pending with
  | some high =>
    if 0xDC00 ≤ code && code ≤ 0xDFFF then
      let c := Char.ofNat (0x10000 + (high - 0xD800) * 0x400 + (code - 0xDC00))
      { place := .plain, reversed := c :: d.reversed, pending := none, sound := d.sound }
    else { d with place := .plain, pending := none, sound := false }
  | none =>
    if 0xD800 ≤ code && code ≤ 0xDBFF then { d with place := .plain, pending := some code }
    else if 0xDC00 ≤ code && code ≤ 0xDFFF then { d with place := .plain, sound := false }
    else d.push (Char.ofNat code)

/-- The character a one-letter escape stands for. -/
def escaped? (c : Char) : Option Char :=
  match c with
  | '"' => some '"'
  | '\\' => some '\\'
  | '/' => some '/'
  | 'b' => some '\x08'
  | 'f' => some '\x0c'
  | 'n' => some '\n'
  | 'r' => some '\r'
  | 't' => some '\t'
  | _ => none

/-- What a further character does to a string. -/
inductive Step where
  | more (d : StringDraft)
  /-- The closing quote; no text if some escape stands for no character. -/
  | complete (s : Option String)
  | fault

/-- Reads one more character of a string. -/
def step (d : StringDraft) (c : Char) : Step :=
  match d.place with
  | .plain =>
    if c = '"' then
      .complete
        (if d.sound && d.pending.isNone then some (String.ofList d.reversed.reverse) else none)
    else if c = '\\' then .more { d with place := .escape }
    else if c.toNat < 0x20 then .fault
    else .more (d.push c)
  | .escape =>
    if c = 'u' then .more { d with place := .hex 4 0 }
    else
      match escaped? c with
      | some e => .more (d.push e)
      | none => .fault
  | .hex left value =>
    match hexValue? c with
    | none => .fault
    | some v =>
      if left ≤ 1 then .more (d.pushCode (16 * value + v))
      else .more { d with place := .hex (left - 1) (16 * value + v) }

end StringDraft

/-! ### Containers -/

/-- A container that is still open, with what it holds so far, last first. -/
inductive Frame where
  | array (reversed : List JsonText)
  | object (reversed : List (Option String × JsonText)) (name : Option String)

/-- What the reader expects next. -/
inductive Place where
  | value
  /-- After `[`: a value or the end. -/
  | firstItem
  /-- After `{`: a name or the end. -/
  | firstName
  | name
  | colon
  /-- After a value in a container: a comma or the end. -/
  | comma
  | inNumber (d : NumberDraft)
  | inString (isName : Bool) (d : StringDraft)
  /-- In one of the words, with the letters still to come. -/
  | inWord (left : List Char) (value : JsonText)
  /-- The whole text is read, with or without something behind it. -/
  | finished (root : JsonText) (clean : Bool)
  | broken

/-- Where the reader is. -/
structure Reader where
  frames : List Frame
  place : Place

namespace Reader

/-- The reader at the start of a text. -/
def start : Reader := ⟨[], .value⟩

/-- The reader after a complete value. -/
def deliver (frames : List Frame) (v : JsonText) : Reader :=
  match frames with
  | [] => ⟨[], .finished v true⟩
  | .array items :: rest => ⟨.array (v :: items) :: rest, .comma⟩
  | .object members name :: rest => ⟨.object ((name, v) :: members) none :: rest, .comma⟩

/-- The reader after the text has turned out to be no JSON. -/
def fail (r : Reader) : Reader := ⟨r.frames, .broken⟩

/-- The blanks between the parts of a JSON text. -/
def isGap (c : Char) : Bool :=
  c = ' ' || c = '\n' || c = '\t' || c = '\r'

/-- The reader after the first character of a value. -/
def beginValue (frames : List Frame) (c : Char) : Reader :=
  if c = '"' then ⟨frames, .inString false .start⟩
  else if c = '[' then ⟨.array [] :: frames, .firstItem⟩
  else if c = '{' then ⟨.object [] none :: frames, .firstName⟩
  else if c = 't' then ⟨frames, .inWord ['r', 'u', 'e'] (.bool true)⟩
  else if c = 'f' then ⟨frames, .inWord ['a', 'l', 's', 'e'] (.bool false)⟩
  else if c = 'n' then ⟨frames, .inWord ['u', 'l', 'l'] .null⟩
  else
    match NumberDraft.start? c with
    | some d => ⟨frames, .inNumber d⟩
    | none => ⟨frames, .broken⟩

/-- The reader after a character that stands between values. -/
def between (r : Reader) (c : Char) : Reader :=
  if isGap c then r
  else
    match r.place, r.frames with
    | .value, frames => beginValue frames c
    | .firstItem, .array items :: rest =>
      if c = ']' then deliver rest (.array items.reverse)
      else beginValue (.array items :: rest) c
    | .firstName, .object members name :: rest =>
      if c = '}' then deliver rest (.object members.reverse)
      else if c = '"' then ⟨.object members name :: rest, .inString true .start⟩
      else r.fail
    | .name, frames => if c = '"' then ⟨frames, .inString true .start⟩ else r.fail
    | .colon, frames => if c = ':' then ⟨frames, .value⟩ else ⟨frames, .broken⟩
    | .comma, .array items :: rest =>
      if c = ',' then ⟨.array items :: rest, .value⟩
      else if c = ']' then deliver rest (.array items.reverse)
      else r.fail
    | .comma, .object members name :: rest =>
      if c = ',' then ⟨.object members name :: rest, .name⟩
      else if c = '}' then deliver rest (.object members.reverse)
      else r.fail
    | .finished root _, frames => ⟨frames, .finished root false⟩
    | _, _ => r.fail

/-- Reads one character. -/
def step (r : Reader) (c : Char) : Reader :=
  match r.place with
  | .broken => r
  | .inNumber d =>
    match d.step c with
    | .more d => ⟨r.frames, .inNumber d⟩
    | .complete => (deliver r.frames d.value).between c
    | .fault => r.fail
  | .inString isName d =>
    match d.step c with
    | .more d => ⟨r.frames, .inString isName d⟩
    | .fault => r.fail
    | .complete s =>
      if isName then
        match r.frames with
        | .object members _ :: rest => ⟨.object members s :: rest, .colon⟩
        | _ => r.fail
      else
        deliver r.frames (match s with
          | some s => .string s
          | none => .unreadable)
  | .inWord left v =>
    match left with
    | [] => r.fail
    | [d] => if c = d then deliver r.frames v else r.fail
    | d :: rest => if c = d then ⟨r.frames, .inWord rest v⟩ else r.fail
  | _ => r.between c

/-- Closes the open containers, innermost first, around the place of the fault. -/
def closeAll (inner : Option JsonText) : List Frame → JsonText
  | [] => inner.getD .cut
  | .array items :: rest =>
    closeAll (some (.array ((inner.getD .cut :: items).reverse))) rest
  | .object members name :: rest =>
    closeAll (some (.object (((name, inner.getD .cut) :: members).reverse))) rest

/-- What has been read when the text ends. -/
def finish (r : Reader) : JsonText × Bool :=
  match r.place with
  | .finished root clean => (root, clean)
  | .inNumber d =>
    if d.canEnd then
      match (deliver r.frames d.value).place with
      | .finished root clean => (root, clean)
      | _ => (closeAll none (deliver r.frames d.value).frames, false)
    else (closeAll none r.frames, false)
  | _ => (closeAll none r.frames, false)

end Reader

/-- Reads a text: its tree, and whether nothing but blanks follows it. -/
def readChars (cs : List Char) : JsonText × Bool :=
  (cs.foldl Reader.step Reader.start).finish

/-- Reads a string. -/
def ofString (s : String) : JsonText × Bool :=
  readChars s.toList

/-! ### Depth -/

mutual

/-- Marks the containers inside which more than `depth` containers would be open. -/
def limitDepth (depth : Nat) : JsonText → JsonText
  | .array items =>
    if depth = 0 then .buried (.array items) else .array (limitItems (depth - 1) items)
  | .object members =>
    if depth = 0 then .buried (.object members) else .object (limitMembers (depth - 1) members)
  | t => t

/-- `limitDepth` for the items of an array. -/
def limitItems (depth : Nat) : List JsonText → List JsonText
  | [] => []
  | t :: ts => limitDepth depth t :: limitItems depth ts

/-- `limitDepth` for the members of an object. -/
def limitMembers (depth : Nat) :
    List (Option String × JsonText) → List (Option String × JsonText)
  | [] => []
  | (name, t) :: ts => (name, limitDepth depth t) :: limitMembers depth ts

end

/-- How many containers may be open around each other. -/
def maxDepth : Nat := 127

mutual

/-- Whether the text can be skipped: it is JSON to its end. -/
def isSkippable : JsonText → Bool
  | .cut => false
  | .array items => areSkippable items
  | .object members => membersSkippable members
  | .buried inner => isSkippable inner
  | _ => true

/-- `isSkippable` for the items of an array. -/
def areSkippable : List JsonText → Bool
  | [] => true
  | t :: ts => isSkippable t && areSkippable ts

/-- `isSkippable` for the members of an object. -/
def membersSkippable : List (Option String × JsonText) → Bool
  | [] => true
  | (_, t) :: ts => isSkippable t && membersSkippable ts

end

mutual

/-- A value as the text that would be read back to it. -/
def ofJson : Json → JsonText
  | .null => .null
  | .bool b => .bool b
  | .int n => .int n
  | .float x => .float x
  | .string s => .string s
  | .array items => .array (ofItems items)
  | .object fields => .object (ofFields fields)

/-- `ofJson` for the items of an array. -/
def ofItems : List Json → List JsonText
  | [] => []
  | j :: js => ofJson j :: ofItems js

/-- `ofJson` for the fields of an object. -/
def ofFields : List (String × Json) → List (Option String × JsonText)
  | [] => []
  | (name, j) :: js => (some name, ofJson j) :: ofFields js

end

end JsonText

end Screenwright
