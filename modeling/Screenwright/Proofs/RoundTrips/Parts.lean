/-
The parts of an app are read again.

Each part has a regular form, and what is read into it is what is left out or written for it.
-/
import Screenwright.App.Action
import Screenwright.App.DataModel
import Screenwright.App.Screen
import Screenwright.Proofs.Forms

namespace Screenwright

open Json JsonText Steps

/-! ### Values as they are -/

namespace JsonText

theorem ensures_readValue : Ensures readValue IsValue := by
  intro v j hv h
  rw [readValue_ofJson hv] at h
  cases h
  exact hv

theorem ensures_readTable : Ensures readTable fun table => (Json.object table).IsValue := by
  intro v table hv h
  cases v with
  | object fields =>
      rw [readTable_ofJson hv] at h
      cases h
      exact hv
  | _ => cases h

theorem rereads_value {j : Json} (h : j.IsValue) : Rereads readValue id j := by
  rw [Rereads, id, h.toValue_eq]
  exact readValue_ofJson h

/-- A default, if there is one, is read again, and as something other than `null`. -/
def IsDefault (value : Option Json) : Prop :=
  ∀ j ∈ value, (id j).toValue ≠ .null ∧ Rereads readValue id j

theorem ensures_readDefault : Ensures (readOption readValue) IsDefault := by
  intro v value hv h
  by_cases hnull : v = .null
  · subst hnull
    cases h
    exact fun j hj => nomatch hj
  · rw [readOption_of_ne_null hnull, readValue_ofJson hv] at h
    cases h
    rintro _ ⟨⟩
    exact ⟨hv.toValue_eq.symm ▸ hnull, rereads_value hv⟩

theorem readName_ofJson {α : Type} {origin : Origin} {table : List (String × α)} {name : String}
    {a : α} (h : table.lookup name = some a) :
    readName origin table (.ofJson (Json.string name).toValue) = .ok a := by
  rw [toValue, ofJson, readName, h]

end JsonText

/-! ### Bindings and modifiers -/

namespace DataBinding

theorem lookup_source (source : BindingSource) :
    BindingSource.names.lookup source.name = some source := by
  cases source <;> rfl

theorem regular_form : form.Regular where
  nodup := by decide
  apart := by
    and_intros <;> first | trivial | exact Field.independent fun _ _ _ => rfl

theorem rereads (binding : DataBinding) : Rereads read toJson binding :=
  RecordForm.read_of_emits regular_form
    (.field rfl (.field (readName_ofJson (lookup_source _)) (.field rfl (.nil _))))

end DataBinding

namespace Modifier

theorem regular_form : form.Regular where
  nodup := by decide
  apart := by
    and_intros <;> first | trivial | exact Field.independent fun _ _ _ => rfl

theorem roundTrips : RoundTrips read toJson := by
  have hargs : Ensures read fun m => ∀ j ∈ m.args, Rereads readValue id j :=
    RecordForm.ensures_read (fun j hj => nomatch hj)
      (.any (fun _ _ h => h)
        (.part ensures_readValue.list (fun _ _ h _ j hj => rereads_value (h j hj)) .nil))
  intro v m hv h
  exact RecordForm.read_of_emits regular_form
    (.field rfl (.of_append_nil (.list rfl (hargs hv h) (.nil _))))

end Modifier

/-! ### Actions -/

namespace Action

theorem member?_ofFields (name : String) (fields : Entries Json) :
    member? name (JsonText.ofFields fields) = (fields.lookup name).map JsonText.ofJson := by
  induction fields with
  | nil => rfl
  | cons f fs ih =>
      obtain ⟨n, v⟩ := f
      rw [member?] at ih
      rw [ofFields, member?, List.lookup_cons, List.lookup_cons, ih]
      have heq : (some name == some n) = (name == n) := rfl
      rw [heq]
      cases name == n <;> rfl

/-- What a written action has under a name. -/
theorem member?_toValue {fields : Entries Json} (hnodup : (fields.map Prod.fst).Nodup)
    (name : String) : member? name (ofFields (sortFields (fieldValues fields))) =
      (fields.lookup name).map fun j => JsonText.ofJson j.toValue := by
  rw [member?_ofFields, lookup_toValue hnodup, Option.map_map]
  rfl

/-- A written action is read by the fields of its kind. -/
theorem read_toValue {name : String} {kind : Kind} {fields : Entries Json}
    (hkind : kinds.lookup name = some kind)
    (hnodup : ((("type", Json.string name) :: fields).map Prod.fst).Nodup) :
    read (.ofJson (Json.object (("type", .string name) :: fields)).toValue) = ofMembers kind
      (JsonText.ofFields (sortFields (fieldValues (("type", .string name) :: fields)))) := by
  rw [toValue, JsonText.ofJson, read, member?_toValue hnodup, List.lookup_cons_self]
  show (readKind (.string name) >>= _) = _
  rw [readKind, hkind]
  rfl

/-- A custom action, with its name and its parameters read one after the other. -/
theorem ofMembers_custom (members : List (Option String × JsonText)) :
    ofMembers .custom members =
      ((match member? "name" members with
        | some t => t.readString.map some
        | none => .ok none) >>= fun name =>
      (match member? "params" members with
        | some t => t.readTable
        | none => .ok []) >>= fun params =>
      match name with
      | some name => .ok (custom name params)
      | none => .error (.missingField "name")) := by
  rw [ofMembers]
  cases member? "name" members <;> cases member? "params" members <;> rfl

/-- The parameters of an action are values. -/
def HasValues : Action → Prop
  | custom _ params => (Json.object params).IsValue
  | _ => True

theorem hasValues_ofMembers {kind : Kind} {fields : Entries Json} {a : Action}
    (hvalues : ∀ f ∈ fields, IsValue f.2) (h : ofMembers kind (ofFields fields) = .ok a) :
    a.HasValues := by
  cases kind with
  | navigate | presentSheet =>
      obtain ⟨target, -, rfl⟩ := map_eq_ok.mp h
      trivial
  | dismiss =>
      cases h
      trivial
  | custom =>
      rw [ofMembers_custom] at h
      obtain ⟨name, -, h⟩ := bind_eq_ok.mp h
      obtain ⟨params, hparams, h⟩ := bind_eq_ok.mp h
      cases name with
      | none => cases h
      | some name =>
          cases h
          rw [member?_ofFields] at hparams
          cases hlookup : fields.lookup "params" with
          | none =>
              rw [hlookup] at hparams
              cases hparams
              exact .object .nil (List.forall_mem_nil _)
          | some v =>
              rw [hlookup] at hparams
              exact ensures_readTable (hvalues _ (Entries.mem_of_lookup hlookup)) hparams

theorem hasValues_ofItems {kind : Kind} {items : List Json} {a : Action}
    (hvalues : ∀ v ∈ items, v.IsValue) (h : ofItems kind (JsonText.ofItems items) = .ok a) :
    a.HasValues := by
  cases kind with
  | navigate | presentSheet =>
      cases items with
      | nil => cases h
      | cons t rest =>
          obtain ⟨target, -, h⟩ := bind_eq_ok.mp h
          dsimp only at h
          split at h <;> cases h
          trivial
  | dismiss =>
      cases items with
      | nil =>
          cases h
          trivial
      | cons t rest => cases h
  | custom =>
      match items, hvalues, h with
      | [t], _, h =>
          obtain ⟨name, -, rfl⟩ := map_eq_ok.mp h
          exact .object .nil (List.forall_mem_nil _)
      | t :: u :: rest, hvalues, h =>
          obtain ⟨name, -, h⟩ := bind_eq_ok.mp h
          obtain ⟨params, hparams, h⟩ := bind_eq_ok.mp h
          dsimp only at h
          split at h <;> cases h
          exact ensures_readTable (hvalues u (by simp)) hparams

theorem ensures_read : Ensures read HasValues := by
  intro v a hv h
  cases hv with
  | @array items hitems =>
      cases items with
      | nil => cases h
      | cons t rest =>
          obtain ⟨kind, -, h⟩ := bind_eq_ok.mp h
          exact hasValues_ofItems (List.forall_mem_cons.mp hitems).2 h
  | object _ hvalues =>
      rw [JsonText.ofJson, read] at h
      split at h
      · obtain ⟨kind, -, h⟩ := bind_eq_ok.mp h
        exact hasValues_ofMembers hvalues h
      · cases h
  | _ => cases h

theorem roundTrips : RoundTrips read toJson := by
  intro v a hv h
  have hvalues := ensures_read hv h
  cases a with
  | navigate target | presentSheet target =>
      have hnodup : ["type", "target"].Nodup := by decide
      refine Eq.trans (read_toValue rfl hnodup) ?_
      rw [ofMembers, needField, member?_toValue]
      · rfl
      · exact hnodup
  | dismiss => rfl
  | custom name params =>
      cases params with
      | nil =>
          have hnodup : ["type", "name"].Nodup := by decide
          refine Eq.trans (read_toValue rfl hnodup) ?_
          rw [ofMembers, member?_toValue, member?_toValue]
          · rfl
          · exact hnodup
          · exact hnodup
      | cons p ps =>
          have hnodup : ["type", "name", "params"].Nodup := by decide
          refine Eq.trans (read_toValue rfl hnodup) ?_
          rw [ofMembers, member?_toValue, member?_toValue]
          · show ((JsonText.ofJson (Json.object (p :: ps)).toValue).readTable >>= _) = _
            rw [IsValue.toValue_eq hvalues, readTable_ofJson hvalues]
            rfl
          · exact hnodup
          · exact hnodup

end Action

namespace ActionItem

theorem lookup_role (role : ButtonRole) : ButtonRole.names.lookup role.name = some role := by
  cases role <;> rfl

theorem regular_form : form.Regular where
  nodup := by decide
  apart := by
    and_intros <;> first | trivial | exact Field.independent fun _ _ _ => rfl

theorem roundTrips : RoundTrips read toJson := by
  have haction : Ensures read fun item =>
      ∀ a ∈ item.action, Rereads Action.read Action.toJson a :=
    RecordForm.ensures_read (fun a ha => nomatch ha)
      (.any (fun _ _ h => h) (.any (fun _ _ h => h)
        (.part Action.roundTrips.option (fun _ _ h _ => h) .nil)))
  intro v item hv h
  rw [Rereads, toJson]
  simp only [List.append_assoc]
  refine RecordForm.read_of_emits regular_form (.field rfl (.option rfl ?_ (.of_append_nil
    (.option rfl ?_ (.nil _)))))
  · exact fun role _ => ⟨nofun, readName_ofJson (lookup_role role)⟩
  · exact fun a ha => ⟨by cases a <;> nofun, haction hv h a ha⟩

end ActionItem

namespace TabItem

theorem regular_form : form.Regular where
  nodup := by decide
  apart := by
    and_intros <;> first | trivial | exact Field.independent fun _ _ _ => rfl

theorem rereads (item : TabItem) : Rereads read toJson item :=
  RecordForm.read_of_emits regular_form (.field rfl (.field rfl (.field rfl (.nil _))))

end TabItem

/-! ### Data models -/

namespace ValueType

theorem rereads (type : ValueType) : Rereads read toJson type := by
  induction type with
  | array item ih =>
      show ((read (ofJson item.toJson.toValue)).map array >>= _) = _
      rw [ih]
      rfl
  | optional inner ih =>
      show ((read (ofJson inner.toJson.toValue)).map optional >>= _) = _
      rw [ih]
      rfl
  | _ => rfl

end ValueType

namespace Variable

theorem regular_form : form.Regular where
  nodup := by decide
  apart := by
    and_intros <;> first | trivial | exact Field.independent fun _ _ _ => rfl

theorem roundTrips : RoundTrips read toJson := by
  have hdefault : Ensures read fun var => IsDefault var.default :=
    RecordForm.ensures_read (fun j hj => nomatch hj)
      (.any (fun _ _ h => h) (.any (fun _ _ h => h)
        (.part ensures_readDefault (fun _ _ h _ => h) .nil)))
  intro v var hv h
  exact RecordForm.read_of_emits regular_form (.field rfl (.field (ValueType.rereads _)
    (.of_append_nil (.option rfl (hdefault hv h) (.nil _)))))

end Variable

namespace ModelProperty

theorem regular_form : form.Regular where
  nodup := by decide
  apart := by
    and_intros <;> first | trivial | exact Field.independent fun _ _ _ => rfl

theorem roundTrips : RoundTrips read toJson := by
  have hdefault : Ensures read fun p => IsDefault p.default :=
    RecordForm.ensures_read (fun j hj => nomatch hj)
      (.any (fun _ _ h => h) (.any (fun _ _ h => h)
        (.part ensures_readDefault (fun _ _ h _ => h) (.any (fun _ _ h => h) .nil))))
  intro v p hv h
  exact RecordForm.read_of_emits regular_form (.field rfl (.field (ValueType.rereads _)
    (.option rfl (hdefault hv h) (.field rfl (.nil _)))))

end ModelProperty

namespace DataModel

theorem regular_form : form.Regular where
  nodup := by decide
  apart := by
    and_intros <;> first | trivial | exact Field.independent fun _ _ _ => rfl

theorem roundTrips : RoundTrips read toJson := by
  have hproperties : Ensures read fun m =>
      ∀ p ∈ m.properties, Rereads ModelProperty.read ModelProperty.toJson p :=
    RecordForm.ensures_read (fun p hp => nomatch hp)
      (.any (fun _ _ h => h) (.part ModelProperty.roundTrips.list (fun _ _ h _ => h)
        (.any (fun _ _ h => h) .nil)))
  intro v m hv h
  exact RecordForm.read_of_emits regular_form
    (.field rfl (.field (readList_ofJson (hproperties hv h)) (.field rfl (.nil _))))

end DataModel

end Screenwright
