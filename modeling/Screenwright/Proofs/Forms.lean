/-
Records that are written are read again.

A record is written with its fields in the order of declaration, and some of them are left out.  As
a value its fields are sorted, so they are read in another order than they were written in.  Where
each field sets a part of the record that is its own, the order does not matter: what counts is
that every field that is written is read, and that what is left out is what the record begins with.
-/
import Mathlib.Data.List.Basic
import Screenwright.App.Component
import Screenwright.Proofs.Values

namespace Screenwright

open Json JsonText Steps

variable {α ρ : Type}

/-! ### What is read from values -/

namespace JsonText

/-- Whatever is read from a value has the property. -/
def Ensures (read : JsonText → Decoded α) (p : α → Prop) : Prop :=
  ∀ ⦃v : Json⦄ ⦃a : α⦄, v.IsValue → read (.ofJson v) = .ok a → p a

/-- What is written is read again. -/
def Rereads (read : JsonText → Decoded α) (toJson : α → Json) (a : α) : Prop :=
  read (.ofJson (toJson a).toValue) = .ok a

/-- What is read from a value is written as a value from which it is read again. -/
def RoundTrips (read : JsonText → Decoded α) (toJson : α → Json) : Prop :=
  Ensures read (Rereads read toJson)

variable {read : JsonText → Decoded α} {p : α → Prop} {toJson : α → Json}

theorem Ensures.list (h : Ensures read p) : Ensures (readList read) fun xs => ∀ a ∈ xs, p a := by
  intro v xs hv hread
  cases hv with
  | array hitems =>
      rw [ofJson, readList, ofItems_eq_map] at hread
      refine forall_of_mapM_eq_ok hread fun t ht a ha => ?_
      obtain ⟨item, hitem, rfl⟩ := List.mem_map.mp ht
      exact h (hitems item hitem) ha
  | _ => cases hread

theorem readOption_of_ne_null {v : Json} (hne : v ≠ .null) :
    readOption read (.ofJson v) = (read (.ofJson v)).map some := by
  cases v with
  | null => exact absurd rfl hne
  | _ => rfl

theorem Ensures.option (h : Ensures read p) : Ensures (readOption read) fun x => ∀ a ∈ x, p a := by
  intro v x hv hread
  by_cases hnull : v = .null
  · subst hnull
    cases hread
    exact fun a ha => nomatch ha
  · rw [readOption_of_ne_null hnull, map_eq_ok] at hread
    obtain ⟨a, ha, rfl⟩ := hread
    rintro _ ⟨⟩
    exact h hv ha

theorem readList_ofJson {xs : List α} (h : ∀ a ∈ xs, Rereads read toJson a) :
    readList read (.ofJson (Json.array (xs.map toJson)).toValue) = .ok xs := by
  rw [toValue, itemValues_eq_map, ofJson, ofItems_eq_map, readList, mapM_eq_ok,
    List.forall₂_map_left_iff, List.forall₂_map_left_iff, List.forall₂_map_left_iff]
  exact List.forall₂_same.mpr h

end JsonText

/-! ### Fields -/

/-- One field does not notice whether another has been read before it. -/
def Field.Commutes (f g : Field ρ) : Prop :=
  ∀ ⦃t u : JsonText⦄ ⦃r s x : ρ⦄, f.read t r = .ok s → g.read u s = .ok x →
    ∃ s', g.read u r = .ok s' ∧ f.read t s' = .ok x

/-- Two fields can be read in either order. -/
structure Field.Independent (f g : Field ρ) : Prop where
  forth : f.Commutes g
  back : g.Commutes f

/-- Any two of the fields can be read in either order. -/
def Apart : List (Field ρ) → Prop
  | [] => True
  | f :: fs => fs.Forall f.Independent ∧ Apart fs

/-- A field that keeps a property of the record whatever value it reads. -/
def Field.Keeps (q : ρ → Prop) (f : Field ρ) : Prop :=
  ∀ ⦃v : Json⦄ ⦃r s : ρ⦄, v.IsValue → f.read (.ofJson v) r = .ok s → q r → q s

/-- All of the fields keep a property of the record. -/
def Keep (q : ρ → Prop) (fields : List (Field ρ)) : Prop :=
  ∀ f ∈ fields, f.Keeps q

section Fields

variable {β : Type} {name name' : String} {required required' : Bool} {read : JsonText → Decoded α}
  {read' : JsonText → Decoded β} {store : α → ρ → ρ} {store' : β → ρ → ρ} {p : α → Prop}
  {q : ρ → Prop} {fields : List (Field ρ)}

theorem Field.commutes (h : ∀ a b r, store' b (store a r) = store a (store' b r)) :
    Field.Commutes ⟨name, required, fun t r => (read t).map fun a => store a r⟩
      ⟨name', required', fun t r => (read' t).map fun b => store' b r⟩ := by
  intro t u r s x hs hx
  obtain ⟨a, ha, rfl⟩ := map_eq_ok.mp hs
  obtain ⟨b, hb, rfl⟩ := map_eq_ok.mp hx
  exact ⟨store' b r, map_eq_ok.mpr ⟨b, hb, rfl⟩, map_eq_ok.mpr ⟨a, ha, (h a b r).symm⟩⟩

/-- Fields that set different parts of the record. -/
theorem Field.independent (h : ∀ a b r, store' b (store a r) = store a (store' b r)) :
    Field.Independent ⟨name, required, fun t r => (read t).map fun a => store a r⟩
      ⟨name', required', fun t r => (read' t).map fun b => store' b r⟩ :=
  ⟨Field.commutes h, Field.commutes fun b a r => (h a b r).symm⟩

theorem Apart.independent (h : Apart fields) {f g : Field ρ} (hf : f ∈ fields) (hg : g ∈ fields)
    (hne : f.name ≠ g.name) : f.Independent g := by
  induction fields with
  | nil => cases hf
  | cons first rest ih =>
      have hfirst := List.forall_iff_forall_mem.mp h.1
      rcases List.mem_cons.mp hf with rfl | hf' <;> rcases List.mem_cons.mp hg with rfl | hg'
      · exact absurd rfl hne
      · exact hfirst g hg'
      · exact ⟨(hfirst f hf').back, (hfirst f hf').forth⟩
      · exact ih h.2 hf' hg'

theorem Keep.nil : Keep q [] :=
  fun _ hf => nomatch hf

/-- A field whose value is not restricted. -/
theorem Keep.any (h : ∀ a r, q r → q (store a r)) (hrest : Keep q fields) :
    Keep q (⟨name, required, fun t r => (read t).map fun a => store a r⟩ :: fields) := by
  refine List.forall_mem_cons.mpr ⟨fun v r s _ hs hr => ?_, hrest⟩
  obtain ⟨a, -, rfl⟩ := map_eq_ok.mp hs
  exact h a r hr

/-- A field whose value has a property of its own. -/
theorem Keep.part (hread : Ensures read p) (h : ∀ a r, p a → q r → q (store a r))
    (hrest : Keep q fields) :
    Keep q (⟨name, required, fun t r => (read t).map fun a => store a r⟩ :: fields) := by
  refine List.forall_mem_cons.mpr ⟨fun v r s hv hs hr => ?_, hrest⟩
  obtain ⟨a, ha, rfl⟩ := map_eq_ok.mp hs
  exact h a r (hread hv ha) hr

end Fields

namespace RecordForm

variable {form : RecordForm ρ}

/-! ### What every record that is read has -/

theorem readMembers_keeps {q : ρ → Prop} (hfields : Keep q form.fields)
    {fields : Entries Json} (hvalues : ∀ f ∈ fields, IsValue f.2) :
    ∀ {seen seen' : List String} {r s : ρ},
      form.readMembers seen r (ofFields fields) = .ok (seen', s) → q r → q s := by
  induction fields with
  | nil =>
      intro seen seen' r s h hr
      cases h
      exact hr
  | cons entry rest ih =>
      intro seen seen' r s h hr
      obtain ⟨name, v⟩ := entry
      rw [List.forall_mem_cons] at hvalues
      rw [ofFields, readMembers] at h
      split at h
      next f hfind =>
        dsimp only at h
        split at h
        · cases h
        obtain ⟨r', hread, h⟩ := bind_eq_ok.mp h
        exact ih hvalues.2 h (hfields f (List.mem_of_find?_eq_some hfind) hvalues.1 hread hr)
      next hfind =>
        dsimp only at h
        split at h
        · cases h
        split at h
        · exact ih hvalues.2 h hr
        · cases h

theorem readItems_keeps {q : ρ → Prop} {fields : List (Field ρ)} (hfields : Keep q fields)
    {length : Nat} : ∀ {items : List Json} {index : Nat} {r s : ρ}, (∀ v ∈ items, IsValue v) →
      form.readItems length fields index r (ofItems items) = .ok s → q r → q s := by
  induction fields with
  | nil =>
      intro items index r s _ h hr
      cases items with
      | nil =>
          cases h
          exact hr
      | cons v vs => cases h
  | cons f fs ih =>
      intro items index r s hvalues h hr
      obtain ⟨hfirst, hfields⟩ := List.forall_mem_cons.mp hfields
      cases items with
      | nil =>
          rw [ofItems, readItems] at h
          split at h
          · cases h
          · exact ih hfields (List.forall_mem_nil _) h hr
      | cons v vs =>
          rw [List.forall_mem_cons] at hvalues
          rw [ofItems, readItems] at h
          obtain ⟨r', hread, h⟩ := bind_eq_ok.mp h
          exact ih hfields hvalues.2 h (hfirst hvalues.1 hread hr)

/-- What a record begins with and what every field keeps is true of every record that is read. -/
theorem ensures_read {q : ρ → Prop} {initial : ρ} (hinitial : q initial)
    (hfields : Keep q form.fields) : Ensures (form.read initial) q := by
  intro v x hv h
  cases hv with
  | array hitems => exact readItems_keeps hfields hitems h hinitial
  | object hsorted hvalues =>
      obtain ⟨⟨seen, r⟩, hread, h⟩ := bind_eq_ok.mp h
      dsimp only at h
      split at h
      · cases h
      · cases h
        exact readMembers_keeps hfields hvalues hread hinitial
  | _ => cases h

/-! ### Fields in any order -/

/-- The fields of a record have names of their own and set parts of their own. -/
structure Regular (form : RecordForm ρ) : Prop where
  nodup : (form.fields.map Field.name).Nodup
  apart : Apart form.fields

/-- What members make of a record, one after the other. -/
inductive Fills (form : RecordForm ρ) : Entries JsonText → ρ → ρ → Prop
  | nil (r : ρ) : Fills form [] r r
  | cons {f : Field ρ} {t : JsonText} {ms : Entries JsonText} {r s x : ρ} (hf : f ∈ form.fields)
    (hread : f.read t r = .ok s) (hrest : Fills form ms s x) : Fills form ((f.name, t) :: ms) r x

/-- The order of members with different names does not matter. -/
theorem Fills.perm (hform : form.Regular) {ms ms' : Entries JsonText} (hperm : ms.Perm ms') :
    ∀ {r x : ρ}, (ms.map Prod.fst).Nodup → form.Fills ms r x → form.Fills ms' r x := by
  induction hperm with
  | nil => exact fun _ h => h
  | cons m _ ih =>
      intro r x hnodup h
      cases h with
      | cons hf hread hrest => exact .cons hf hread (ih (List.nodup_cons.mp hnodup).2 hrest)
  | swap m m' ms =>
      intro r x hnodup h
      cases h with
      | cons hf hread hrest =>
          cases hrest with
          | cons hg hread' hrest =>
              have hne := (List.nodup_cons.mp hnodup).1
              rw [List.map_cons, List.mem_cons, not_or] at hne
              have hindependent := hform.apart.independent hf hg hne.1
              obtain ⟨s', hfirst, hsecond⟩ := hindependent.forth hread hread'
              exact .cons hg hfirst (.cons hf hsecond hrest)
  | trans hfirst _ ih ih' =>
      intro r x hnodup h
      exact ih' ((hfirst.map Prod.fst).nodup_iff.mp hnodup) (ih hnodup h)

theorem find?_name (hform : form.Regular) {f : Field ρ} (hf : f ∈ form.fields) :
    form.fields.find? (·.name = f.name) = some f :=
  find?_key_eq_some Field.name hform.nodup hf

theorem readMembers_of_fills (hform : form.Regular) {ms : Entries JsonText} {r x : ρ}
    (h : form.Fills ms r x) : ∀ {seen : List String}, (ms.map Prod.fst).Nodup →
      (∀ name ∈ ms.map Prod.fst, name ∉ seen) →
      form.readMembers seen r (ms.map fun m => (some m.1, m.2)) =
        .ok ((ms.map Prod.fst).reverse ++ seen, x) := by
  induction h with
  | nil r => exact fun _ _ => rfl
  | @cons f t ms r s x hf hread _ ih =>
      intro seen hnodup hseen
      rw [List.map_cons, List.nodup_cons] at hnodup
      rw [List.map_cons, List.forall_mem_cons] at hseen
      rw [List.map_cons, readMembers, find?_name hform hf]
      have hnew : seen.contains f.name = false := by simpa using hseen.1
      have hrest : ∀ name ∈ ms.map Prod.fst, name ∉ f.name :: seen := by
        intro name hname
        rw [List.mem_cons, not_or]
        exact ⟨fun heq => hnodup.1 (heq ▸ hname), hseen.2 name hname⟩
      dsimp only
      rw [hnew, hread]
      refine (ih hnodup.2 hrest).trans ?_
      rw [List.map_cons, List.reverse_cons, List.append_assoc, List.singleton_append]

/-! ### Fields in the order of declaration -/

/-- Fields of a record as they are written: every field in its order or, if it may be, left out. -/
inductive Emits : List (Field ρ) → ρ → Entries Json → ρ → Prop
  | nil (r : ρ) : Emits [] r [] r
  | keep {f : Field ρ} {fs : List (Field ρ)} {v : Json} {entries : Entries Json} {r s x : ρ}
    (hread : f.read (.ofJson v.toValue) r = .ok s) (hrest : Emits fs s entries x) :
    Emits (f :: fs) r ((f.name, v) :: entries) x
  | skip {f : Field ρ} {fs : List (Field ρ)} {entries : Entries Json} {r x : ρ}
    (hmay : f.required = false) (hrest : Emits fs r entries x) : Emits (f :: fs) r entries x

namespace Emits

variable {fs : List (Field ρ)} {entries : Entries Json} {r x : ρ}

theorem names_sublist (h : Emits fs r entries x) :
    (entries.map Prod.fst).Sublist (fs.map Field.name) := by
  induction h with
  | nil => exact List.Sublist.refl _
  | keep _ _ ih => exact ih.cons_cons _
  | skip _ _ ih => exact ih.cons _

theorem mem_of_required (h : Emits fs r entries x) :
    ∀ f ∈ fs, f.required = true → f.name ∈ entries.map Prod.fst := by
  induction h with
  | nil => simp
  | keep _ _ ih =>
      rw [List.forall_mem_cons]
      exact ⟨fun _ => List.mem_cons_self,
        fun f hf hrequired => List.mem_cons_of_mem _ (ih f hf hrequired)⟩
  | skip hmay _ ih =>
      rw [List.forall_mem_cons]
      exact ⟨fun hrequired => absurd hrequired (by simp [hmay]), ih⟩

theorem fills (h : Emits fs r entries x) (hfs : ∀ f ∈ fs, f ∈ form.fields) :
    form.Fills (entries.map fun e => (e.1, ofJson e.2.toValue)) r x := by
  induction h with
  | nil r => exact .nil r
  | keep hread _ ih =>
      rw [List.forall_mem_cons] at hfs
      exact .cons hfs.1 hread (ih hfs.2)
  | skip _ _ ih =>
      rw [List.forall_mem_cons] at hfs
      exact ih hfs.2

theorem of_append_nil (h : Emits fs r (entries ++ []) x) : Emits fs r entries x := by
  rwa [List.append_nil] at h

section Kinds

variable {α : Type} {name : String} {required : Bool} {read : JsonText → Decoded α}
  {toJson : α → Json} {store : α → ρ → ρ}

/-- A field that is always written. -/
theorem field {a : α} {v : Json} (hread : read (.ofJson v.toValue) = .ok a)
    (hrest : Emits fs (store a r) entries x) :
    Emits (⟨name, required, fun t r => (read t).map fun a => store a r⟩ :: fs) r
      ((name, v) :: entries) x :=
  .keep (map_eq_ok.mpr ⟨a, hread, rfl⟩) hrest

/-- A table that is written unless it is empty, as it is to begin with. -/
theorem table {store : Entries Json → ρ → ρ} {values : Entries Json} (hinitial : store [] r = r)
    (hvalues : (Json.object values).IsValue) (hrest : Emits fs (store values r) entries x) :
    Emits (.may name readTable store :: fs) r
      ((if values.isEmpty then [] else [(name, .object values)]) ++ entries) x := by
  cases values with
  | nil =>
      rw [hinitial] at hrest
      exact .skip rfl hrest
  | cons value rest =>
      refine .field ?_ hrest
      rw [hvalues.toValue_eq]
      exact readTable_ofJson hvalues

/-- A list that is written unless it is empty, as it is to begin with. -/
theorem list {store : List α → ρ → ρ} {items : List α} (hinitial : store [] r = r)
    (hitems : ∀ a ∈ items, Rereads read toJson a) (hrest : Emits fs (store items r) entries x) :
    Emits (.may name (readList read) store :: fs) r
      (Json.listField name toJson items ++ entries) x := by
  cases items with
  | nil =>
      rw [hinitial] at hrest
      exact .skip rfl hrest
  | cons a as => exact .field (readList_ofJson hitems) hrest

/-- A value that is written unless there is none, as there is to begin with. -/
theorem optionTo {β : Type} {toJson : β → Json} {store : Option α → ρ → ρ} {source : Option β}
    {value : Option α} (hinitial : store none r = r)
    (hvalue : Option.Rel (fun b a => (toJson b).toValue ≠ .null ∧
      read (.ofJson (toJson b).toValue) = .ok a) source value)
    (hrest : Emits fs (store value r) entries x) :
    Emits (.may name (readOption read) store :: fs) r
      (Json.optionField name toJson source ++ entries) x := by
  cases hvalue with
  | none =>
      rw [hinitial] at hrest
      exact .skip rfl hrest
  | some hread =>
      refine .field ?_ hrest
      rw [readOption_of_ne_null hread.1, hread.2]
      rfl

/-- `optionTo` for a value that is read again. -/
theorem option {store : Option α → ρ → ρ} {value : Option α} (hinitial : store none r = r)
    (hvalue : ∀ a ∈ value, (toJson a).toValue ≠ .null ∧ Rereads read toJson a)
    (hrest : Emits fs (store value r) entries x) :
    Emits (.may name (readOption read) store :: fs) r
      (Json.optionField name toJson value ++ entries) x := by
  refine .optionTo hinitial ?_ hrest
  cases value with
  | none => exact .none
  | some a => exact .some (hvalue a rfl)

end Kinds

end Emits

/-- **A record that is written is read again.** -/
theorem read_of_emits (hform : form.Regular) {initial x : ρ} {entries : Entries Json}
    (h : Emits form.fields initial entries x) :
    form.read initial (.ofJson (Json.object entries).toValue) = .ok x := by
  have hnodup : (entries.map Prod.fst).Nodup := hform.nodup.sublist h.names_sublist
  let values := entries.map fun e => (e.1, e.2.toValue)
  let texts := (sortFields values).map fun e => (e.1, ofJson e.2)
  have hvalues : values.map Prod.fst = entries.map Prod.fst := List.map_map
  have hperm : (sortFields values).Perm values := sortFields_perm (hvalues ▸ hnodup)
  have hnames : (texts.map Prod.fst).Perm (entries.map Prod.fst) := by
    rw [← hvalues, List.map_map]
    exact hperm.map Prod.fst
  have hfills : form.Fills texts initial x := by
    refine Fills.perm hform (List.Perm.symm ?_) ?_ (h.fills fun f hf => hf)
    · have htexts := hperm.map fun e : String × Json => (e.1, ofJson e.2)
      rwa [List.map_map (l := entries)] at htexts
    · rw [List.map_map]
      exact hnodup
  have hmissing : form.missing? ((texts.map Prod.fst).reverse ++ []) = none := by
    rw [missing?, Option.map_eq_none_iff, List.find?_eq_none]
    intro f hf hlacks
    rw [List.append_nil, Bool.and_eq_true, Bool.not_eq_true', List.contains_eq_mem,
      decide_eq_false_iff_not, List.mem_reverse, hnames.mem_iff] at hlacks
    exact hlacks.2 (h.mem_of_required f hf hlacks.1)
  have hmembers : ofFields (sortFields values) = texts.map fun m => (some m.1, m.2) := by
    rw [ofFields_eq_map, List.map_map]
    rfl
  have hread := readMembers_of_fills hform hfills (hnames.nodup_iff.mpr hnodup)
    fun _ _ => List.not_mem_nil
  rw [toValue, fieldValues_eq_map, ofJson, hmembers, read, hread, ok_bind]
  dsimp only
  rw [hmissing]
  rfl

end RecordForm

end Screenwright
