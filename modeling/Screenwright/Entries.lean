/-
Ordered tables of named values.

The order of the entries is the order in which the names were first put, and that
order is visible wherever a table is written out or searched.
-/

namespace Screenwright

/-- Named values in the order of their first insertion. -/
abbrev Entries (α : Type u) := List (String × α)

namespace Entries

variable {α : Type u}

/-- Gives a name a value: in place if the name is there, at the end if not. -/
def put (name : String) (value : α) : Entries α → Entries α
  | [] => [(name, value)]
  | (n, v) :: rest => if n = name then (n, value) :: rest else (n, v) :: put name value rest

/-- Gives a name a value unless it has one. -/
def putNew (name : String) (value : α) (table : Entries α) : Entries α :=
  if (table.lookup name).isSome then table else table ++ [(name, value)]

/-- Whether the table holds the name. -/
def has (name : String) (table : Entries α) : Bool :=
  (table.lookup name).isSome

/-- The names in order. -/
def names (table : Entries α) : List String :=
  table.map Prod.fst

/-- A table holds exactly the names of its entries. -/
theorem has_iff_mem_names (name : String) (table : Entries α) :
    table.has name = true ↔ name ∈ names table := by
  simp only [has, names]
  induction table with
  | nil => simp
  | cons entry rest ih =>
    obtain ⟨n, v⟩ := entry
    by_cases h : name = n
    · subst h; simp
    · have hne : (name == n) = false := by simpa using h
      simp [List.lookup_cons, hne, h, ih]

theorem lookup_put_self (name : String) (value : α) (table : Entries α) :
    (put name value table).lookup name = some value := by
  induction table with
  | nil => simp [put]
  | cons entry rest ih =>
    obtain ⟨n, v⟩ := entry
    by_cases h : n = name
    · simp [put, h]
    · have hne : (name == n) = false := by simpa using fun e => h e.symm
      simp [put, h, List.lookup_cons, hne, ih]

/-- Putting changes the order of no name that is there already. -/
theorem names_put (name : String) (value : α) (table : Entries α) :
    names (put name value table) =
      if name ∈ names table then names table else names table ++ [name] := by
  induction table with
  | nil => simp [put, names]
  | cons entry rest ih =>
    obtain ⟨n, v⟩ := entry
    by_cases h : n = name
    · simp [put, h, names]
    · have hne : ¬ name = n := fun e => h e.symm
      simp only [names] at ih
      simp only [put, h, if_false, names, List.map_cons, List.mem_cons, hne, false_or, ih]
      split <;> rename_i hmem <;> simp [hmem]

end Entries

end Screenwright
