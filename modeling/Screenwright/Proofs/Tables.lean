/-
Looking up names in tables.

A table is searched from the front, so what a lookup gives is an entry of the table, and
where no name is there twice every entry is what a lookup of its name gives.
-/
import Mathlib.Data.List.Nodup
import Mathlib.Tactic.Common
import Screenwright.Entries

namespace Screenwright

/-- Keys stay distinct, and new, if each is new where it comes after those that are seen. -/
theorem nodup_keys_cons {α β : Type} {key : α → β} {x : α} {xs : List α} {seen : List β}
    (hx : key x ∉ seen)
    (h : (xs.map key).Nodup ∧ ∀ y ∈ xs, key y ∉ key x :: seen) :
    ((x :: xs).map key).Nodup ∧ ∀ y ∈ x :: xs, key y ∉ seen := by
  obtain ⟨hnodup, hnew⟩ := h
  rw [List.map_cons, List.nodup_cons, List.forall_mem_cons]
  refine ⟨⟨fun hmem => ?_, hnodup⟩, hx, fun y hy hseen => ?_⟩
  · obtain ⟨y, hy, heq⟩ := List.mem_map.mp hmem
    exact hnew y hy (heq ▸ List.mem_cons_self)
  · exact hnew y hy (List.mem_cons_of_mem _ hseen)

/-- Where no two items have the same key, looking for the key of an item finds it. -/
theorem find?_key_eq_some {α β : Type} [DecidableEq β] (key : α → β) {x : α} {xs : List α}
    (hnd : (xs.map key).Nodup) (hx : x ∈ xs) :
    xs.find? (fun y => decide (key y = key x)) = some x := by
  induction xs with
  | nil => simp at hx
  | cons y rest ih =>
      rw [List.map_cons, List.nodup_cons] at hnd
      rcases List.mem_cons.mp hx with rfl | hx
      · simp
      · have hne : ¬ key y = key x := fun e => hnd.1 (e ▸ List.mem_map.mpr ⟨x, hx, rfl⟩)
        rw [List.find?_cons_of_neg (by simpa using hne)]
        exact ih hnd.2 hx

/-- Where no two items have the same key, only the item itself has its key.  Items may have no
key at all. -/
theorem filter_key_eq_singleton {α β : Type} [DecidableEq β] {key : α → Option β} {x : α}
    {xs : List α} {k : β} (hnd : (xs.filterMap key).Nodup) (hx : x ∈ xs) (hk : key x = some k) :
    xs.filter (fun y => key y = some k) = [x] := by
  induction xs with
  | nil => cases hx
  | cons y rest ih =>
      by_cases hy : key y = some k
      · rw [List.filterMap_cons_some hy, List.nodup_cons] at hnd
        -- The key does not come again, so the item is the first one.
        have hnone : ∀ z ∈ rest, key z ≠ some k :=
          fun z hz hkey => hnd.1 (List.mem_filterMap.mpr ⟨z, hz, hkey⟩)
        have hrest : rest.filter (fun z => key z = some k) = [] :=
          List.filter_eq_nil_iff.mpr fun z hz => by simpa using hnone z hz
        rcases List.mem_cons.mp hx with rfl | hx
        · rw [List.filter_cons_of_pos (by simpa using hy), hrest]
        · exact absurd hk (hnone x hx)
      · have hrest : (rest.filterMap key).Nodup :=
          hnd.sublist ((List.sublist_cons_self y rest).filterMap key)
        have hmem : x ∈ rest := by
          rcases List.mem_cons.mp hx with rfl | hx
          · exact absurd hk hy
          · exact hx
        rw [List.filter_cons_of_neg (by simpa using hy)]
        exact ih hrest hmem

namespace Entries

variable {α : Type}

/-! ### What a lookup gives -/

theorem mem_of_lookup {name : String} {value : α} {table : Entries α}
    (h : table.lookup name = some value) : (name, value) ∈ table := by
  induction table with
  | nil => simp at h
  | cons entry rest ih =>
      obtain ⟨n, v⟩ := entry
      by_cases hn : name = n
      · subst hn
        simp only [List.lookup_cons, beq_self_eq_true, Option.some.injEq] at h
        rw [h]
        exact List.mem_cons_self
      · have hne : (name == n) = false := by simpa using hn
        simp only [List.lookup_cons, hne] at h
        exact List.mem_cons_of_mem _ (ih h)

theorem mem_names_of_lookup {name : String} {value : α} {table : Entries α}
    (h : table.lookup name = some value) : name ∈ names table :=
  List.mem_map.mpr ⟨_, mem_of_lookup h, rfl⟩

/-- A name of a table has a value in it. -/
theorem exists_lookup {name : String} {table : Entries α} (h : name ∈ names table) :
    ∃ value, table.lookup name = some value :=
  Option.isSome_iff_exists.mp ((has_iff_mem_names name table).mpr h)

/-- Where only one name contributes, a walk over the table is a lookup of that name. -/
theorem flatMap_eq_lookup {β : Type} {name : String} {table : Entries α} {f : α → List β}
    (hnd : (names table).Nodup)
    (hother : ∀ entry ∈ table, entry.1 ≠ name → f entry.2 = []) :
    table.flatMap (fun entry => f entry.2) = (table.lookup name).elim [] f := by
  induction table with
  | nil => rfl
  | cons entry rest ih =>
      obtain ⟨n, v⟩ := entry
      have hnd' : n ∉ names rest ∧ (names rest).Nodup := by simpa [names] using hnd
      have hrest := ih hnd'.2 fun entry hmem => hother entry (List.mem_cons_of_mem _ hmem)
      rw [List.flatMap_cons, hrest]
      by_cases hn : n = name
      · subst hn
        -- The name does not come again, so nothing else contributes.
        have hnone : rest.lookup n = none := by
          cases hl : rest.lookup n with
          | none => rfl
          | some w => exact absurd (mem_names_of_lookup hl) hnd'.1
        simp [hnone]
      · have hne : (name == n) = false := by simpa using fun e : name = n => hn e.symm
        rw [hother _ List.mem_cons_self hn, List.nil_append, List.lookup_cons, hne]

/-- What is looked up is not changed by taking out entries of other names. -/
theorem lookup_filter {p : String → Bool} {name : String} (table : Entries α)
    (h : p name = true) : (table.filter fun entry => p entry.1).lookup name = table.lookup name := by
  induction table with
  | nil => rfl
  | cons entry rest ih =>
      obtain ⟨n, v⟩ := entry
      by_cases hn : name = n
      · subst hn
        rw [List.filter_cons_of_pos (by simpa using h), List.lookup_cons_self,
          List.lookup_cons_self]
      · have hne : (name == n) = false := by simpa using hn
        rw [List.lookup_cons, hne, List.filter_cons]
        split
        · rw [List.lookup_cons, hne]
          exact ih
        · exact ih

/-- Where no name is there twice, the entries of a name are what a lookup gives. -/
theorem filter_name_eq {table : Entries α} (hnodup : (names table).Nodup) (name : String) :
    table.filter (fun entry => entry.1 = name) =
      ((table.lookup name).map fun value => (name, value)).toList := by
  cases hlookup : table.lookup name with
  | none =>
      refine List.filter_eq_nil_iff.mpr fun entry hentry => ?_
      rw [decide_eq_true_eq]
      rintro rfl
      obtain ⟨value, hvalue⟩ := exists_lookup (List.mem_map_of_mem hentry)
      rw [hlookup] at hvalue
      cases hvalue
  | some value =>
      have hkeys : (table.filterMap fun entry => some entry.1).Nodup := by
        rw [List.filterMap_eq_map']
        exact hnodup
      have honly := filter_key_eq_singleton hkeys (mem_of_lookup hlookup) rfl
      simp only [Option.some.injEq] at honly
      exact honly

theorem lookup_of_mem {table : Entries α} {name : String} {value : α}
    (hnodup : (names table).Nodup) (hmem : (name, value) ∈ table) :
    table.lookup name = some value := by
  have honly : (name, value) ∈ table.filter fun entry => entry.1 = name :=
    List.mem_filter.mpr ⟨hmem, decide_eq_true rfl⟩
  rw [filter_name_eq hnodup, Option.mem_toList, Option.map_eq_some_iff] at honly
  obtain ⟨_, hlookup, heq⟩ := honly
  cases heq
  exact hlookup

/-! ### Putting a name -/

theorem put_of_not_mem {name : String} {table : Entries α} (value : α)
    (h : name ∉ names table) : put name value table = table ++ [(name, value)] := by
  induction table with
  | nil => rfl
  | cons entry rest ih =>
      obtain ⟨n, v⟩ := entry
      have hne : n ≠ name := fun e => h (by simp [names, e])
      have hrest : name ∉ names rest := fun hmem => h (by simpa [names] using Or.inr hmem)
      rw [put, if_neg hne, ih hrest]
      rfl

/-- Putting and taking out the entries of some names can be done in either order. -/
theorem filter_put {p : String → Bool} (name : String) (value : α) (table : Entries α) :
    (put name value table).filter (fun entry => p entry.1) =
      if p name = true then put name value (table.filter fun entry => p entry.1)
      else table.filter fun entry => p entry.1 := by
  induction table with
  | nil => simp [put, List.filter_cons]
  | cons entry rest ih =>
      obtain ⟨n, v⟩ := entry
      by_cases hn : n = name
      · subst hn
        by_cases hp : p n = true
        · simp [put, hp]
        · simp [put, hp]
      · rw [put, if_neg hn, List.filter_cons, List.filter_cons, ih]
        by_cases hp : p n = true
        · by_cases hname : p name = true
          · simp [hp, hname, put, hn]
          · simp [hp, hname]
        · simp [hp]

theorem putNew_of_some {name : String} {value first : α} {table : Entries α}
    (h : table.lookup name = some first) : putNew name value table = table := by
  rw [putNew, if_pos (by simp [h])]

theorem putNew_of_none {name : String} {value : α} {table : Entries α}
    (h : table.lookup name = none) : putNew name value table = table ++ [(name, value)] := by
  rw [putNew, if_neg (by simp [h])]

theorem mem_names_putNew {name other : String} {value : α} {table : Entries α} :
    other ∈ names (putNew name value table) ↔ other ∈ names table ∨ other = name := by
  cases h : table.lookup name with
  | some first =>
      rw [putNew_of_some h]
      have hmem : name ∈ names table := (has_iff_mem_names _ _).mp (by simp [has, h])
      constructor
      · exact Or.inl
      · rintro (h | rfl)
        · exact h
        · exact hmem
  | none => simp [putNew_of_none h, names]

theorem mem_putNew {name : String} {value : α} {table : Entries α} {entry : String × α}
    (h : entry ∈ putNew name value table) : entry ∈ table ∨ entry = (name, value) := by
  cases hl : table.lookup name with
  | some first =>
      rw [putNew_of_some hl] at h
      exact Or.inl h
  | none =>
      rw [putNew_of_none hl, List.mem_append, List.mem_singleton] at h
      exact h

theorem nodup_putNew {name : String} {value : α} {table : Entries α}
    (h : (names table).Nodup) : (names (putNew name value table)).Nodup := by
  cases hl : table.lookup name with
  | some first =>
      rw [putNew_of_some hl]
      exact h
  | none =>
      have hnew : name ∉ names table := by
        intro hmem
        have hhas := (has_iff_mem_names name table).mpr hmem
        rw [has, hl] at hhas
        cases hhas
      rw [putNew_of_none hl, names, List.map_append]
      refine List.nodup_append.mpr ⟨h, List.nodup_singleton _, ?_⟩
      intro a ha b hb heq
      rw [List.map_cons, List.map_nil, List.mem_singleton] at hb
      rw [heq, hb] at ha
      exact hnew ha

theorem lookup_putNew {name other : String} {value : α} {table : Entries α} :
    (putNew name value table).lookup other =
      (table.lookup other).orElse fun _ => if other = name then some value else none := by
  cases h : table.lookup name with
  | some first =>
      rw [putNew_of_some h]
      cases hother : table.lookup other with
      | some found => rfl
      | none =>
          have hne : other ≠ name := by rintro rfl; rw [h] at hother; cases hother
          simp [hne]
  | none =>
      rw [putNew_of_none h, List.lookup_append, Option.or_eq_orElse]
      by_cases hne : other = name
      · simp [hne]
      · have hbeq : (other == name) = false := by simpa using hne
        simp [List.lookup_cons, hne, hbeq]

/-! ### Tables that keep the first of each name -/

section Fold

variable {β : Type} {key : β → String} {val : β → α}

theorem mem_names_foldl_putNew {name : String} {xs : List β} :
    ∀ {table : Entries α}, name ∈ names (xs.foldl (fun t x => putNew (key x) (val x) t) table) ↔
      name ∈ names table ∨ ∃ x ∈ xs, key x = name := by
  induction xs with
  | nil => simp
  | cons x xs ih =>
      intro table
      rw [List.foldl_cons, ih, mem_names_putNew]
      constructor
      · rintro ((h | rfl) | ⟨y, hy, rfl⟩)
        · exact Or.inl h
        · exact Or.inr ⟨x, List.mem_cons_self, rfl⟩
        · exact Or.inr ⟨y, List.mem_cons_of_mem _ hy, rfl⟩
      · rintro (h | ⟨y, hy, rfl⟩)
        · exact Or.inl (Or.inl h)
        · rcases List.mem_cons.mp hy with rfl | hy
          · exact Or.inl (Or.inr rfl)
          · exact Or.inr ⟨y, hy, rfl⟩

/-- Names that are all new, and not repeated, are put one behind the other. -/
theorem names_foldl_putNew {xs : List β} :
    ∀ {table : Entries α}, (xs.map key).Nodup → (∀ x ∈ xs, key x ∉ names table) →
      names (xs.foldl (fun t x => putNew (key x) (val x) t) table) =
        names table ++ xs.map key := by
  induction xs with
  | nil => exact fun _ _ => (List.append_nil _).symm
  | cons x xs ih =>
      intro table hnodup hnew
      rw [List.map_cons, List.nodup_cons] at hnodup
      rw [List.forall_mem_cons] at hnew
      have hnames : names (putNew (key x) (val x) table) = names table ++ [key x] := by
        have hnone : table.lookup (key x) = none := by
          by_contra hsome
          obtain ⟨value, hvalue⟩ := Option.ne_none_iff_exists'.mp hsome
          exact hnew.1 (mem_names_of_lookup hvalue)
        rw [putNew_of_none hnone, names, names, List.map_append, List.map_singleton]
      rw [List.foldl_cons, ih hnodup.2, hnames, List.append_assoc, List.map_cons,
        List.singleton_append]
      intro y hy hmem
      rw [hnames, List.mem_append, List.mem_singleton] at hmem
      rcases hmem with hmem | heq
      · exact hnew.2 y hy hmem
      · exact hnodup.1 (heq ▸ List.mem_map_of_mem hy)

theorem nodup_foldl_putNew {xs : List β} :
    ∀ {table : Entries α}, (names table).Nodup →
      (names (xs.foldl (fun t x => putNew (key x) (val x) t) table)).Nodup := by
  induction xs with
  | nil => exact fun h => h
  | cons x xs ih =>
      intro table h
      rw [List.foldl_cons]
      exact ih (nodup_putNew h)

theorem mem_foldl_putNew {entry : String × α} {xs : List β} :
    ∀ {table : Entries α}, entry ∈ xs.foldl (fun t x => putNew (key x) (val x) t) table →
      entry ∈ table ∨ ∃ x ∈ xs, (key x, val x) = entry := by
  induction xs with
  | nil => simp
  | cons x xs ih =>
      intro table h
      rw [List.foldl_cons] at h
      rcases ih h with h | ⟨y, hy, rfl⟩
      · rcases mem_putNew h with h | rfl
        · exact Or.inl h
        · exact Or.inr ⟨x, List.mem_cons_self, rfl⟩
      · exact Or.inr ⟨y, List.mem_cons_of_mem _ hy, rfl⟩

end Fold

end Entries

end Screenwright
