/-
Component trees and screens are read again.

A tree is read level by level, and every level of components is an object inside an array inside
the object above it.  So a written tree is deeper than each of the trees below it, and the depth of
the text is enough to read it.
-/
import Screenwright.Proofs.RoundTrips.Parts

namespace Screenwright

open Json JsonText Steps

/-! ### Depth -/

namespace JsonText

theorem depth_le_itemsDepth {items : List JsonText} {t : JsonText} (h : t ∈ items) :
    t.depth ≤ itemsDepth items := by
  induction items with
  | nil => cases h
  | cons u us ih =>
      rw [itemsDepth]
      rcases List.mem_cons.mp h with rfl | h
      · exact Nat.le_max_left _ _
      · exact Nat.le_trans (ih h) (Nat.le_max_right _ _)

theorem depth_le_membersDepth {members : List (Option String × JsonText)}
    {m : Option String × JsonText} (h : m ∈ members) : m.2.depth ≤ membersDepth members := by
  induction members with
  | nil => cases h
  | cons u us ih =>
      rw [membersDepth]
      rcases List.mem_cons.mp h with rfl | h
      · exact Nat.le_max_left _ _
      · exact Nat.le_trans (ih h) (Nat.le_max_right _ _)

/-- An item of an array inside a written object is less deep than the object. -/
theorem depth_item_lt {fields : Entries Json} {name : String} {items : List Json} {j : Json}
    (hnodup : (fields.map Prod.fst).Nodup) (hfield : (name, Json.array items) ∈ fields)
    (hitem : j ∈ items) :
    (ofJson j.toValue).depth + 1 < (ofJson (Json.object fields).toValue).depth := by
  have hnames : (fieldValues fields).map Prod.fst = fields.map Prod.fst := by
    rw [fieldValues_eq_map, List.map_map]
    rfl
  have hvalue : (name, (Json.array items).toValue) ∈ sortFields (fieldValues fields) := by
    rw [(sortFields_perm (hnames ▸ hnodup)).mem_iff, fieldValues_eq_map]
    exact List.mem_map_of_mem hfield
  have hmember := depth_le_membersDepth (List.mem_map_of_mem
    (f := fun f : String × Json => (some f.1, ofJson f.2)) hvalue)
  have hdepth : (ofJson j.toValue).depth ≤ itemsDepth (ofItems (itemValues items)) := by
    rw [ofItems_eq_map, itemValues_eq_map]
    exact depth_le_itemsDepth (List.mem_map_of_mem (List.mem_map_of_mem hitem))
  rw [toValue, ofJson, depth] at hmember
  rw [toValue, ofJson, depth, ofFields_eq_map]
  omega

end JsonText

/-! ### Component trees -/

namespace Component

/-- The properties and the modifiers of every component of a tree are read again. -/
inductive HasValues : ComponentTree → Prop
  | node {c : Component} {ts : List ComponentTree} (hprops : (Json.object c.props).IsValue)
    (hmodifiers : ∀ m ∈ c.modifiers, Rereads Modifier.read Modifier.toJson m)
    (hts : ∀ t ∈ ts, HasValues t) : HasValues (.node c ts)

theorem ensures_readLevels (levels : Nat) : Ensures (readLevels levels) HasValues := by
  induction levels with
  | zero => exact fun _ _ _ h => nomatch h
  | succ levels ih =>
      intro v t hv h
      obtain ⟨⟨c, ts⟩, hread, rfl⟩ := map_eq_ok.mp h
      have hdraft : Ensures ((form (readLevels levels)).read (⟨"", "", [], [], []⟩, [])) fun d =>
          (Json.object d.1.props).IsValue ∧
            (∀ m ∈ d.1.modifiers, Rereads Modifier.read Modifier.toJson m) ∧
              ∀ t ∈ d.2, HasValues t :=
        RecordForm.ensures_read
          ⟨.object .nil (List.forall_mem_nil _), List.forall_mem_nil _, List.forall_mem_nil _⟩
          (.any (fun _ _ h => h) (.any (fun _ _ h => h)
            (.part ensures_readTable (fun _ _ hprops h => ⟨hprops, h.2⟩)
              (.part ih.list (fun _ _ hts h => ⟨h.1, h.2.1, hts⟩) (.any (fun _ _ h => h)
                (.part Modifier.roundTrips.list (fun _ _ hmods h => ⟨h.1, hmods, h.2.2⟩) .nil))))))
      obtain ⟨hprops, hmodifiers, hts⟩ := hdraft hv hread
      exact .node hprops hmodifiers hts

theorem treesJson_eq_map (ts : List ComponentTree) : treesJson ts = ts.map treeJson := by
  induction ts with
  | nil => rfl
  | cons t ts ih => rw [treesJson, ih, List.map_cons]

theorem names_listField {α : Type} (name : String) (toJson : α → Json) (items : List α) :
    ((Json.listField name toJson items).map Prod.fst).Sublist [name] := by
  cases items with
  | nil => exact List.nil_sublist _
  | cons a as => exact List.Sublist.refl _

/-- The fields of a component as they are written. -/
def written (c : Component) (ts : List ComponentTree) : Entries Json :=
  ("id", .string c.id) :: ("type", .string c.type) ::
    ((if c.props.isEmpty then [] else [("props", .object c.props)]) ++
      (Json.listField "children" treeJson ts ++
        (Json.listField "bindings" DataBinding.toJson c.bindings ++
          Json.listField "modifiers" Modifier.toJson c.modifiers)))

theorem treeJson_node (c : Component) (ts : List ComponentTree) :
    treeJson (.node c ts) = .object (written c ts) := by
  rw [treeJson, treesJson_eq_map]
  simp only [List.append_assoc]
  rfl

theorem nodup_written (c : Component) (ts : List ComponentTree) :
    ((written c ts).map Prod.fst).Nodup := by
  have hprops : ((if c.props.isEmpty then [] else [("props", Json.object c.props)]).map
      Prod.fst).Sublist ["props"] := by
    cases c.props with
    | nil => exact List.nil_sublist _
    | cons p ps => exact List.Sublist.refl _
  have hnames : ((written c ts).map Prod.fst).Sublist
      ["id", "type", "props", "children", "bindings", "modifiers"] := by
    rw [written, List.map_cons, List.map_cons, List.map_append, List.map_append, List.map_append]
    exact (hprops.append ((names_listField _ _ _).append
      ((names_listField _ _ _).append (names_listField _ _ _)))).cons_cons _ |>.cons_cons _
  exact List.Nodup.sublist hnames (by decide)

theorem regular_form (readChild : JsonText → Decoded ComponentTree) :
    (form readChild).Regular where
  nodup := by
    show ["id", "type", "props", "children", "bindings", "modifiers"].Nodup
    decide
  apart := by
    and_intros <;> first | trivial | exact Field.independent fun _ _ _ => rfl

theorem readLevels_treeJson {t : ComponentTree} (h : HasValues t) : ∀ {levels : Nat},
    (ofJson (treeJson t).toValue).depth < levels → Rereads (readLevels levels) treeJson t := by
  induction h with
  | @node c ts hprops hmodifiers _ ih =>
      intro levels hlevels
      cases levels with
      | zero => omega
      | succ levels =>
          have hchildren : ∀ t ∈ ts, Rereads (readLevels levels) treeJson t := by
            intro t ht
            have hitem : ("children", Json.array (ts.map treeJson)) ∈ written c ts := by
              cases ts with
              | nil => cases ht
              | cons u us => simp [written, Json.listField]
            have hlt := depth_item_lt (nodup_written c ts) hitem (List.mem_map_of_mem ht)
            rw [treeJson_node] at hlevels
            exact ih t ht (by omega)
          rw [Rereads, treeJson_node, readLevels, map_eq_ok]
          refine ⟨(c, ts), RecordForm.read_of_emits (regular_form _) (.field rfl (.field rfl ?_)),
            rfl⟩
          exact .table rfl hprops (.list rfl hchildren
            (.list rfl (fun b _ => DataBinding.rereads b)
              (.of_append_nil (.list rfl hmodifiers (.nil _)))))

theorem ensures_readTree : Ensures readTree HasValues :=
  fun _ _ hv h => ensures_readLevels _ hv h

theorem rereads_tree {t : ComponentTree} (h : HasValues t) : Rereads readTree treeJson t :=
  readLevels_treeJson h (Nat.lt_succ_self _)

theorem roundTrips : RoundTrips readTree treeJson :=
  fun _ _ hv h => rereads_tree (ensures_readTree hv h)

end Component

/-! ### Screens -/

namespace Screen

theorem regular_form : form.Regular where
  nodup := by decide
  apart := by
    and_intros <;> first | trivial | exact Field.independent fun _ _ _ => rfl

theorem roundTrips : RoundTrips read toJson := by
  have hvariables : Ensures read fun s =>
      (∀ var ∈ s.parameters, Rereads Variable.read Variable.toJson var) ∧
        (∀ var ∈ s.state, Rereads Variable.read Variable.toJson var) ∧
          Component.HasValues s.root :=
    RecordForm.ensures_read
      ⟨List.forall_mem_nil _, List.forall_mem_nil _, .node (.object .nil (List.forall_mem_nil _))
        (List.forall_mem_nil _) (List.forall_mem_nil _)⟩
      (.any (fun _ _ h => h) (.any (fun _ _ h => h) (.any (fun _ _ h => h)
        (.part Variable.roundTrips.list (fun _ _ hvars h => ⟨hvars, h.2⟩)
          (.part Variable.roundTrips.list (fun _ _ hvars h => ⟨h.1, hvars, h.2.2⟩)
            (.part Component.ensures_readTree (fun _ _ hroot h => ⟨h.1, h.2.1, hroot⟩)
              .nil))))))
  intro v s hv h
  obtain ⟨hparameters, hstate, hroot⟩ := hvariables hv h
  rw [Rereads, toJson]
  simp only [List.append_assoc]
  exact RecordForm.read_of_emits regular_form (.field rfl (.field rfl
    (.option rfl (fun _ _ => ⟨(by intro h; cases h), rfl⟩) (.list rfl hparameters (.list rfl hstate
      (.field (Component.rereads_tree hroot) (.nil _)))))))

end Screen

end Screenwright
