/-
Values of a settings file, and how its tables are put together.

A table is written under a header, on one line, or piece by piece through dotted names.
How it was written decides what may still be added to it, so a table remembers its
origin.  Nothing is ever defined twice.
-/
import Screenwright.Entries

namespace Screenwright

/-- How a table came to be. -/
inductive TableOrigin where
  /-- A header names it. -/
  | header
  /-- It lies on the way to a table that a header names. -/
  | passage
  /-- A dotted name leads through it. -/
  | dotted
  /-- It is written between braces. -/
  | braces
deriving DecidableEq, Repr

/-- A value of a settings file. -/
inductive Toml where
  | bool (b : Bool)
  | int (n : Int)
  | string (s : String)
  /-- A number with a fraction, a date or a time: no setting takes one. -/
  | other
  | array (items : List Toml)
  | table (origin : TableOrigin) (entries : List (String × Toml))

namespace Toml

/-- Adds a value under a dotted name. -/
def add (value : Toml) : List String → Entries Toml → Option (Entries Toml)
  | [], _ => none
  | [name], entries => if entries.has name then none else some (entries.put name value)
  | name :: path, entries =>
    match entries.lookup name with
    | none => (add value path []).map fun inner => entries.put name (.table .dotted inner)
    | some (.table .dotted inner) =>
      (add value path inner).map fun inner => entries.put name (.table .dotted inner)
    | some _ => none

/-- Opens the table that a header names. -/
def openTable : List String → Entries Toml → Option (Entries Toml)
  | [], _ => none
  | [name], entries =>
    match entries.lookup name with
    | none => some (entries.put name (.table .header []))
    | some (.table .passage inner) => some (entries.put name (.table .header inner))
    | some _ => none
  | name :: path, entries =>
    match entries.lookup name with
    | none => (openTable path []).map fun inner => entries.put name (.table .passage inner)
    | some (.table .braces _) => none
    | some (.table origin inner) =>
      (openTable path inner).map fun inner => entries.put name (.table origin inner)
    | some _ => none

/-- Changes the entries of the table at a path. -/
def within (change : Entries Toml → Option (Entries Toml)) :
    List String → Entries Toml → Option (Entries Toml)
  | [], entries => change entries
  | name :: path, entries =>
    match entries.lookup name with
    | some (.table origin inner) =>
      (within change path inner).map fun inner => entries.put name (.table origin inner)
    | _ => none

end Toml

end Screenwright
