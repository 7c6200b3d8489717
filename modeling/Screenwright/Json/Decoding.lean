/-
Decoding JSON into typed data.

A decoder goes through a text in its order and stops at the first thing it cannot use.
What went wrong is a `DecodeError`; its wording depends on whether the data came as a
text of its own or inside another value, because a fault of form is a fault of the text
in the one case and of the value in the other.

Records are written as objects or as arrays of their fields in the order of
declaration.  In an object, fields may come in any order, a field must not come twice,
and fields that the record does not have are skipped; in an array, fields that may be
left out may be missing from the end.
-/
import Screenwright.Json.Text
import Screenwright.Number.Notation
import Screenwright.Json.Written
import Screenwright.Text.Quoted

namespace Screenwright

/-- What a decoder met in place of what it expects. -/
inductive Found where
  | null
  | bool (b : Bool)
  | int (n : Int)
  | float (x : Float)
  | string (s : String)
  | sequence
  | map
  | unitVariant

/-- Why data could not be decoded. -/
inductive DecodeError where
  /-- The text is no JSON. -/
  | badText
  | missingField (name : String)
  | duplicateField (name : String)
  | unknownField (name : String) (known : List String)
  | unknownVariant (name : String) (known : List String)
  | wrongType (found : Found) (expected : String)
  | wrongValue (found : Found) (expected : String)
  | wrongLength (length : Nat) (expected : String)
  /-- An array goes on after the last field of a record. -/
  | extraItems (length : Nat)
  /-- The content of a variant goes on after its last field. -/
  | extraContent (length expected : Nat)
  /-- A variant is written as neither a string nor an object. -/
  | notVariant (found : Found)
  /-- A variant is written as an object of no field or of several. -/
  | notSingleField
  | badColor (text : String)

/-- Where the data came from. -/
inductive Origin where
  /-- A text of its own. -/
  | text
  /-- A value that had been read before. -/
  | value

namespace Found

/-- What was met, in words. -/
def describe : Found → String
  | .null => "null"
  | .bool b => "boolean `" ++ (if b then "true" else "false") ++ "`"
  | .int n => "integer `" ++ toString n ++ "`"
  | .float x => "floating point `" ++ Json.writeFloat x ++ "`"
  | .string s => "string " ++ Text.quoted s
  | .sequence => "sequence"
  | .map => "map"
  | .unitVariant => "unit variant"

end Found

namespace DecodeError

/-- A choice of names, in words. -/
def choices (names : List String) : String :=
  match names.map fun n => "`" ++ n ++ "`" with
  | [a] => a
  | [a, b] => a ++ " or " ++ b
  | quoted => "one of " ++ Text.join ", " quoted

/-- A count of elements, in words. -/
def elements (n : Nat) : String :=
  toString n ++ (if n = 1 then " element" else " elements")

/-- The message of an error. -/
def message (origin : Origin) : DecodeError → String
  | badText => "syntax"
  | missingField name => "missing field `" ++ name ++ "`"
  | duplicateField name => "duplicate field `" ++ name ++ "`"
  | unknownField name known => "unknown field `" ++ name ++ "`, expected " ++ choices known
  | unknownVariant name known => "unknown variant `" ++ name ++ "`, expected " ++ choices known
  | wrongType found expected =>
    "invalid type: " ++ found.describe ++ ", expected " ++ expected
  | wrongValue found expected =>
    "invalid value: " ++ found.describe ++ ", expected " ++ expected
  | wrongLength length expected =>
    "invalid length " ++ toString length ++ ", expected " ++ expected
  | extraItems length =>
    match origin with
    | .text => "syntax"
    | .value => "invalid length " ++ toString length ++ ", expected fewer elements in array"
  | extraContent length expected =>
    "invalid length " ++ toString length ++ ", expected " ++ elements expected ++ " in sequence"
  | notVariant found =>
    match origin with
    | .text => "syntax"
    | .value => "invalid type: " ++ found.describe ++ ", expected string or map"
  | notSingleField =>
    match origin with
    | .text => "syntax"
    | .value => "invalid value: map, expected map with a single key"
  | badColor text => "invalid color `" ++ text ++ "`"

end DecodeError

/-- The result of decoding. -/
abbrev Decoded := Except DecodeError

namespace JsonText

/-- What a decoder meets that cannot use this text; nothing if the text is no JSON. -/
def found? : JsonText → Option Found
  | .null => some .null
  | .bool b => some (.bool b)
  | .int n => some (.int n)
  | .float x => some (.float x)
  | .string s => some (.string s)
  | .array _ => some .sequence
  | .object _ => some .map
  | .buried (.array _) => some .sequence
  | .buried (.object _) => some .map
  | .buried _ => none
  | .unreadable => none
  | .cut => none

/-- The error of a decoder that cannot use this text. -/
def mismatch (t : JsonText) (expected : String) : DecodeError :=
  match t.found? with
  | some found => .wrongType found expected
  | none => .badText

/-- A string. -/
def readString : JsonText → Decoded String
  | .string s => .ok s
  | t => .error (t.mismatch "a string")

/-- A boolean. -/
def readBool : JsonText → Decoded Bool
  | .bool b => .ok b
  | t => .error (t.mismatch "a boolean")

/-- A number as a float. -/
def readFloat : JsonText → Decoded Float
  | .int n => .ok (Float.ofInt n)
  | .float x => .ok x
  | t => .error (t.mismatch "f64")

/-- A count. -/
def readCount : JsonText → Decoded Nat
  | .int n => if 0 ≤ n then .ok n.toNat else .error (.wrongValue (.int n) "usize")
  | t => .error (t.mismatch "usize")

/-- A list of items that `read` decodes. -/
def readList {α : Type} (read : JsonText → Decoded α) : JsonText → Decoded (List α)
  | .array items => items.mapM read
  | .buried (.array _) => .error .badText
  | t => .error (t.mismatch "a sequence")

/-- Something that may be left out by writing `null`. -/
def readOption {α : Type} (read : JsonText → Decoded α) : JsonText → Decoded (Option α)
  | .null => .ok none
  | t => (read t).map some

mutual

/-- A value; all of it has to be readable. -/
def readValue : JsonText → Decoded Json
  | .null => .ok .null
  | .bool b => .ok (.bool b)
  | .int n => .ok (.int n)
  | .float x => .ok (.float x)
  | .string s => .ok (.string s)
  | .array items => (readValues items).map .array
  | .object members => (readFields members).map fun fields =>
      .object (fields.foldl (fun sorted (name, v) => Json.putField name v sorted) [])
  | .buried _ => .error .badText
  | .unreadable => .error .badText
  | .cut => .error .badText

/-- The items of an array of values. -/
def readValues : List JsonText → Decoded (List Json)
  | [] => .ok []
  | t :: ts => do
    let j ← readValue t
    let js ← readValues ts
    return j :: js

/-- The fields of an object of values, in text order. -/
def readFields : List (Option String × JsonText) → Decoded (Entries Json)
  | [] => .ok []
  | (name, t) :: ts => do
    let some name := name | throw .badText
    let j ← readValue t
    let js ← readFields ts
    return (name, j) :: js

end

/-- A table of values in text order; a repeated name keeps its place and takes the last
value. -/
def readTable : JsonText → Decoded (Entries Json)
  | .object members => (readFields members).map fun fields =>
      fields.foldl (fun table (name, v) => Entries.put name v table) []
  | .buried (.object _) => .error .badText
  | t => .error (t.mismatch "a map")

/-- Nothing: what a variant without content holds. -/
def readUnit : JsonText → Decoded Unit
  | .null => .ok ()
  | t => .error (t.mismatch "unit")

/-- The error of a decoder of variants that meets neither a string nor an object. -/
def variantMismatch (t : JsonText) : DecodeError :=
  match t.found? with
  | some found => .notVariant found
  | none => .badText

/-- A variant without content from a table of names: a string, or an object whose only
field holds nothing.  In a value the number of fields is seen before their content, in a
text after it. -/
def readName {α : Type} (origin : Origin) (table : List (String × α)) : JsonText → Decoded α
  | .string s =>
    match table.lookup s with
    | some a => .ok a
    | none => .error (.unknownVariant s (table.map Prod.fst))
  | .object [] => .error .notSingleField
  | .object ((name, content) :: rest) => do
    if let (.value, false) := (origin, rest.isEmpty) then throw .notSingleField
    let some name := name | throw .badText
    let some a := table.lookup name | throw (.unknownVariant name (table.map Prod.fst))
    readUnit content
    unless rest.isEmpty do throw .notSingleField
    return a
  | .buried (.object _) => .error .badText
  | t => .error t.variantMismatch

end JsonText

/-! ### Records -/

/-- A field of a record: how its text changes a record that is being filled. -/
structure Field (ρ : Type) where
  name : String
  required : Bool
  read : JsonText → ρ → Decoded ρ

/-- A record form: the name messages give it, and its fields in order. -/
structure RecordForm (ρ : Type) where
  name : String
  fields : List (Field ρ)
  /-- Whether a field that the record does not have is an error. -/
  strict : Bool

/-- A field that must be there. -/
def Field.need {ρ α : Type} (name : String) (read : JsonText → Decoded α)
    (store : α → ρ → ρ) : Field ρ :=
  ⟨name, true, fun t r => (read t).map fun a => store a r⟩

/-- A field that may be left out. -/
def Field.may {ρ α : Type} (name : String) (read : JsonText → Decoded α)
    (store : α → ρ → ρ) : Field ρ :=
  ⟨name, false, fun t r => (read t).map fun a => store a r⟩

namespace RecordForm

variable {ρ : Type}

/-- What a message calls the record. -/
def describe (form : RecordForm ρ) : String :=
  "struct " ++ form.name

/-- Reads members in text order; `seen` names the fields that are filled already. -/
def readMembers (form : RecordForm ρ) (seen : List String) (r : ρ) :
    List (Option String × JsonText) → Decoded (List String × ρ)
  | [] => .ok (seen, r)
  | (none, _) :: _ => .error .badText
  | (some name, t) :: rest =>
    match form.fields.find? (·.name = name) with
    | some field => do
      if seen.contains name then throw (.duplicateField name)
      let r ← field.read t r
      readMembers form (name :: seen) r rest
    | none => do
      if form.strict then throw (.unknownField name (form.fields.map (·.name)))
      unless t.isSkippable do throw .badText
      readMembers form seen r rest

/-- The first field in the order of declaration that is missing. -/
def missing? (form : RecordForm ρ) (seen : List String) : Option String :=
  (form.fields.find? fun f => f.required && !seen.contains f.name).map (·.name)

/-- Reads the fields of a record written as an array. -/
def readItems (form : RecordForm ρ) (length : Nat) : List (Field ρ) → Nat → ρ →
    List JsonText → Decoded ρ
  | [], _, r, [] => .ok r
  | [], _, _, _ :: _ => .error (.extraItems length)
  | field :: fields, index, r, [] =>
    if field.required then
      .error (.wrongLength index
        (form.describe ++ " with " ++ DecodeError.elements form.fields.length))
    else readItems form length fields (index + 1) r []
  | field :: fields, index, r, t :: ts => do
    let r ← field.read t r
    readItems form length fields (index + 1) r ts

/-- Reads a record, filling in what `initial` leaves open. -/
def read (form : RecordForm ρ) (initial : ρ) : JsonText → Decoded ρ
  | .object members => do
    let (seen, r) ← form.readMembers [] initial members
    match form.missing? seen with
    | some name => throw (.missingField name)
    | none => return r
  | .array items => form.readItems items.length form.fields 0 initial items
  | .buried _ => .error .badText
  | t => .error (t.mismatch form.describe)

end RecordForm

end Screenwright
