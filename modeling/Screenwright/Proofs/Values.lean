/-
JSON values, and the values that written data stand for.

A value has the fields of its objects in the order of their names, no number out of range, and no
float that is not finite.  Data are written in the order of declaration; as a value they are sorted.
A value that is read is the value that was written, whole or as a table of its fields.
-/
import Screenwright.Json.Decoding
import Screenwright.Proofs.Steps
import Screenwright.Proofs.Tables

namespace Screenwright

open Steps

namespace Json

/-- The largest unsigned 64-bit number. -/
def maxCount : Int := 0xFFFFFFFFFFFFFFFF

/-- What a JSON value can be. -/
inductive IsValue : Json → Prop
  | null : IsValue .null
  | bool (b : Bool) : IsValue (.bool b)
  | int {n : Int} (h : minInt ≤ n ∧ n ≤ maxCount) : IsValue (.int n)
  | float {x : Float} (h : x.isFinite = true) : IsValue (.float x)
  | string (s : String) : IsValue (.string s)
  | array {items : List Json} (h : ∀ item ∈ items, IsValue item) : IsValue (.array items)
  | object {fields : Entries Json} (hsorted : fields.Pairwise fun f g => f.1 < g.1)
    (h : ∀ field ∈ fields, IsValue field.2) : IsValue (.object fields)

/-- Fields in the order of their names. -/
def sortFields {α : Type} (fields : Entries α) : Entries α :=
  fields.foldl (fun sorted (name, v) => putField name v sorted) []

mutual

/-- The value that written data stand for. -/
def toValue : Json → Json
  | .null => .null
  | .bool b => .bool b
  | .int n => .int n
  | .float x => if x.isFinite then .float x else .null
  | .string s => .string s
  | .array items => .array (itemValues items)
  | .object fields => .object (sortFields (fieldValues fields))

/-- `toValue` for the items of an array. -/
def itemValues : List Json → List Json
  | [] => []
  | j :: js => toValue j :: itemValues js

/-- `toValue` for the fields of an object, in their order. -/
def fieldValues : Entries Json → Entries Json
  | [] => []
  | (name, j) :: rest => (name, toValue j) :: fieldValues rest

end

theorem itemValues_eq_map (items : List Json) : itemValues items = items.map toValue := by
  induction items with
  | nil => rfl
  | cons j js ih => rw [itemValues, ih, List.map_cons]

theorem fieldValues_eq_map (fields : Entries Json) :
    fieldValues fields = fields.map fun f => (f.1, f.2.toValue) := by
  induction fields with
  | nil => rfl
  | cons f fs ih => rw [fieldValues, ih, List.map_cons]

/-! ### Sorting -/

section Sorting

variable {α : Type}

/-- A name that is not there comes in somewhere. -/
theorem putField_perm {name : String} {value : α} {fields : Entries α}
    (h : name ∉ fields.map Prod.fst) :
    (putField name value fields).Perm ((name, value) :: fields) := by
  induction fields with
  | nil => exact List.Perm.refl _
  | cons f fs ih =>
      obtain ⟨n, v⟩ := f
      rw [List.map_cons, List.mem_cons, not_or] at h
      rw [putField, if_neg h.1]
      split
      · exact List.Perm.refl _
      · exact ((ih h.2).cons _).trans (List.Perm.swap _ _ _)

theorem sortFields_perm {fields : Entries α} (h : (fields.map Prod.fst).Nodup) :
    (sortFields fields).Perm fields := by
  have hfold : ∀ (fields sorted : Entries α), ((fields ++ sorted).map Prod.fst).Nodup →
      (fields.foldl (fun sorted (name, v) => putField name v sorted) sorted).Perm
        (fields ++ sorted) := by
    intro fields
    induction fields with
    | nil => exact fun sorted _ => List.Perm.refl sorted
    | cons f fs ih =>
        intro sorted hnodup
        rw [List.cons_append, List.map_cons, List.nodup_cons] at hnodup
        have hput : (putField f.1 f.2 sorted).Perm (f :: sorted) := by
          refine putField_perm fun hmem => hnodup.1 ?_
          rw [List.map_append]
          exact List.mem_append_right _ hmem
        have hnext : (fs ++ putField f.1 f.2 sorted).Perm (f :: (fs ++ sorted)) :=
          (hput.append_left fs).trans List.perm_middle
        refine (ih _ ?_).trans hnext
        exact ((hnext.map Prod.fst).nodup_iff).mpr (List.nodup_cons.mpr hnodup)
  have hall := hfold fields []
  rw [List.append_nil] at hall
  exact hall h

/-- Sorting does not change what is under a name. -/
theorem lookup_sortFields {fields : Entries α} (h : (fields.map Prod.fst).Nodup) (name : String) :
    (sortFields fields).lookup name = fields.lookup name := by
  have hperm := sortFields_perm h
  have hsorted : ((sortFields fields).map Prod.fst).Nodup :=
    (hperm.map Prod.fst).nodup_iff.mpr h
  refine Option.ext fun v => ⟨fun hv => ?_, fun hv => ?_⟩
  · exact Entries.lookup_of_mem h (hperm.mem_iff.mp (Entries.mem_of_lookup hv))
  · exact Entries.lookup_of_mem hsorted (hperm.mem_iff.mpr (Entries.mem_of_lookup hv))

/-- A name after all others comes in at the end. -/
theorem putField_of_forall_lt {name : String} {value : α} {fields : Entries α}
    (h : ∀ f ∈ fields, f.1 < name) : putField name value fields = fields ++ [(name, value)] := by
  induction fields with
  | nil => rfl
  | cons f fs ih =>
      obtain ⟨n, v⟩ := f
      rw [List.forall_mem_cons] at h
      have hne : name ≠ n := fun heq => String.lt_irrefl n (heq ▸ h.1)
      rw [putField, if_neg hne, if_neg (String.lt_asymm h.1), ih h.2, List.cons_append]

/-- Fields that are in order have distinct names. -/
theorem nodup_of_sorted {fields : Entries α} (h : fields.Pairwise fun f g => f.1 < g.1) :
    (fields.map Prod.fst).Nodup := by
  refine List.pairwise_map.mpr (h.imp fun {f g} hlt heq => ?_)
  rw [heq] at hlt
  exact String.lt_irrefl g.1 hlt

/-- Fields that are in order stay as they are. -/
theorem sortFields_of_sorted {fields : Entries α} (h : fields.Pairwise fun f g => f.1 < g.1) :
    sortFields fields = fields := by
  have hfold : ∀ (fields sorted : Entries α), (sorted ++ fields).Pairwise (fun f g => f.1 < g.1) →
      fields.foldl (fun sorted (name, v) => putField name v sorted) sorted = sorted ++ fields := by
    intro fields
    induction fields with
    | nil => exact fun sorted _ => (List.append_nil sorted).symm
    | cons f fs ih =>
        intro sorted hsorted
        have hlast : ∀ g ∈ sorted, g.1 < f.1 :=
          fun g hg => (List.pairwise_append.mp hsorted).2.2 g hg f List.mem_cons_self
        rw [List.foldl_cons]
        show List.foldl _ (putField f.1 f.2 sorted) fs = _
        rw [putField_of_forall_lt hlast, ih, List.append_assoc, List.singleton_append]
        rwa [List.append_assoc, List.singleton_append]
  exact hfold fields [] h

end Sorting

/-! ### Values that are written -/

/-- What a written object has under a name. -/
theorem lookup_toValue {fields : Entries Json} (h : (fields.map Prod.fst).Nodup) (name : String) :
    (sortFields (fieldValues fields)).lookup name = (fields.lookup name).map toValue := by
  have hnames : (fieldValues fields).map Prod.fst = fields.map Prod.fst := by
    rw [fieldValues_eq_map, List.map_map]
    rfl
  rw [lookup_sortFields (hnames ▸ h)]
  clear h hnames
  induction fields with
  | nil => rfl
  | cons f fs ih =>
      obtain ⟨n, v⟩ := f
      rw [fieldValues, List.lookup_cons, List.lookup_cons, ih]
      cases name == n <;> rfl

theorem IsValue.toValue_eq {j : Json} (h : j.IsValue) : j.toValue = j := by
  induction h with
  | float h => exact if_pos h
  | array _ ih =>
      rw [toValue, itemValues_eq_map]
      rw [List.map_congr_left ih, List.map_id']
  | @object fields hsorted _ ih =>
      have hfields : ∀ f ∈ fields, (f.1, f.2.toValue) = f := fun f hf => by rw [ih f hf]
      rw [toValue, fieldValues_eq_map, List.map_congr_left hfields, List.map_id',
        sortFields_of_sorted hsorted]
  | _ => rfl

end Json

/-! ### Values that are read -/

namespace JsonText

open Json

theorem ofItems_eq_map (items : List Json) : ofItems items = items.map ofJson := by
  induction items with
  | nil => rfl
  | cons j js ih => rw [ofItems, ih, List.map_cons]

theorem ofFields_eq_map (fields : Entries Json) :
    ofFields fields = fields.map fun f => (some f.1, ofJson f.2) := by
  induction fields with
  | nil => rfl
  | cons f fs ih => rw [ofFields, ih, List.map_cons]

theorem readValues_ofItems {items : List Json} (h : ∀ j ∈ items, (ofJson j).readValue = .ok j) :
    readValues (ofItems items) = .ok items := by
  induction items with
  | nil => rfl
  | cons j js ih =>
      rw [List.forall_mem_cons] at h
      rw [ofItems, readValues, h.1, ih h.2]
      rfl

theorem readFields_ofFields {fields : Entries Json}
    (h : ∀ f ∈ fields, (ofJson f.2).readValue = .ok f.2) :
    readFields (ofFields fields) = .ok fields := by
  induction fields with
  | nil => rfl
  | cons f fs ih =>
      rw [List.forall_mem_cons] at h
      show (do
        let j ← (ofJson f.2).readValue
        let js ← readFields (ofFields fs)
        return (f.1, j) :: js) = _
      rw [h.1, ih h.2]
      rfl

/-- A value is read as itself. -/
theorem readValue_ofJson {j : Json} (h : j.IsValue) : (ofJson j).readValue = .ok j := by
  induction h with
  | array _ ih =>
      rw [ofJson, readValue, readValues_ofItems ih]
      rfl
  | object hsorted _ ih =>
      rw [ofJson, readValue, readFields_ofFields ih]
      exact congrArg (Except.ok ∘ Json.object) (sortFields_of_sorted hsorted)
  | _ => rfl

/-- Fields with distinct names make a table in their order. -/
theorem foldl_put_of_nodup : ∀ (fields table : Entries Json),
    ((table ++ fields).map Prod.fst).Nodup →
      fields.foldl (fun table (name, v) => Entries.put name v table) table = table ++ fields := by
  intro fields
  induction fields with
  | nil => exact fun table _ => (List.append_nil table).symm
  | cons f fs ih =>
      intro table hnodup
      have hnew : f.1 ∉ Entries.names table := by
        rw [List.map_append, List.nodup_append] at hnodup
        exact fun hmem => hnodup.2.2 _ hmem _ List.mem_cons_self rfl
      rw [List.foldl_cons]
      show List.foldl _ (Entries.put f.1 f.2 table) fs = _
      rw [Entries.put_of_not_mem _ hnew, ih, List.append_assoc, List.singleton_append]
      rwa [List.append_assoc, List.singleton_append]

theorem readTable_ofJson {fields : Entries Json} (h : (Json.object fields).IsValue) :
    (ofJson (.object fields)).readTable = .ok fields := by
  cases h with
  | object hsorted h =>
      rw [ofJson, readTable, readFields_ofFields fun f hf => readValue_ofJson (h f hf)]
      refine congrArg Except.ok (foldl_put_of_nodup fields [] ?_)
      rw [List.nil_append]
      exact nodup_of_sorted hsorted

end JsonText

end Screenwright
