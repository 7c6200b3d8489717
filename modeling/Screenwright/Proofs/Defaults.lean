/-
What declarations begin with.

Every variable and every property begins with a value: its default if it has one, and otherwise the
zero value of its type.  The values of data models have no literals, so wherever one stands it is a
new one, and it is called by the name of its type.  Such calls are found in the value that is
generated, and they can be told from the type and the default alone: a data model always begins with
a new value, an array only with those that its items begin with, and an optional only if it has a
default.
-/
import Screenwright.Proofs.Steps
import Screenwright.Swift.Default

namespace Screenwright

open Steps Swift

/-! ### What values call -/

namespace Swift

mutual

/-- The functions and the types that a value calls. -/
def Value.callees : Value → List String
  | .constant value => value.callees
  | .call callee args => callee :: argCallees args
  | .method receiver _ args => receiver.callees ++ argCallees args
  | .array items => itemCallees items
  | .range low high => low.callees ++ high.callees
  | .action body => bodyCallees body
  | .string _ | .interpolation _ | .int _ | .number _ | .bool _ | .member _ | .ident _
  | .binding _ | .color _ | .font _ _ _ | .nil => []

/-- The functions and the types that the arguments of a statement call. -/
def Statement.callees : Statement → List String
  | .invoke _ args => argCallees args
  | .navigate _ | .present _ | .dismiss => []

/-- The functions and the types that arguments call. -/
def argCallees : List (Option String × Value) → List String
  | [] => []
  | (_, value) :: rest => value.callees ++ argCallees rest

/-- The functions and the types that the items of an array call. -/
def itemCallees : List Value → List String
  | [] => []
  | value :: rest => value.callees ++ itemCallees rest

/-- The functions and the types that the statements of a body call. -/
def bodyCallees : List Statement → List String
  | [] => []
  | statement :: rest => statement.callees ++ bodyCallees rest

end

theorem mem_itemCallees {callee : String} (items : List Value) :
    callee ∈ itemCallees items ↔ ∃ item ∈ items, callee ∈ item.callees := by
  induction items with
  | nil => simp [itemCallees]
  | cons item rest ih => simp [itemCallees, ih]

end Swift

/-! ### What properties begin with -/

/-- A value of the type, declared with the default, begins with a new value of the data model. -/
inductive ValueType.Begins : ValueType → Option Json → String → Prop where
  /-- Data models have no literals, so there is no other default. -/
  | model {default : Option Json} {name : String} : Begins (.model name) default name
  | item {item : ValueType} {items : List Json} {json : Json} {name : String} (hjson : json ∈ items)
      (h : item.Begins (some json) name) : Begins (.array item) (some (.array items)) name
  | inner {inner : ValueType} {json : Json} {name : String} (hjson : json.isNull = false)
      (h : inner.Begins (some json) name) : Begins (.optional inner) (some json) name

namespace ValueType

/-- Without a default, only a data model begins with a new value. -/
theorem begins_none_iff {type : ValueType} {name : String} :
    type.Begins none name ↔ type = .model name := by
  constructor
  · intro h
    cases h
    rfl
  · intro h
    rw [h]
    exact .model

/-- A default that is `null` is none. -/
theorem begins_null_iff {type : ValueType} {json : Json} {name : String}
    (hnull : json.isNull = true) : type.Begins (some json) name ↔ type.Begins none name := by
  rw [begins_none_iff]
  constructor
  · intro h
    cases h with
    | model => rfl
    | item => simp [Json.isNull] at hnull
    | inner hjson => simp [hnull] at hjson
  · intro h
    rw [h]
    exact .model

end ValueType

namespace Swift

theorem mem_callees_zeroValue_iff {type : ValueType} {callee : String} :
    callee ∈ (zeroValue type).callees ↔
      ∃ model, type.Begins none model ∧ typeText (.model model) = callee := by
  simp only [ValueType.begins_none_iff]
  cases type with
  | model name => simp [zeroValue, Value.callees, argCallees, eq_comm]
  | array item => simp [zeroValue, Value.callees, itemCallees]
  | string | int | double | bool | date | optional => simp [zeroValue, Value.callees]

/-- `null` stands for the zero value of every type. -/
theorem mem_callees_null_iff {type : ValueType} {json : Json} {value : Value} {callee : String}
    (hnull : json.isNull = true) (h : literal type json = .ok value) :
    callee ∈ value.callees ↔
      ∃ model, type.Begins (some json) model ∧ typeText (.model model) = callee := by
  unfold literal at h
  rw [if_pos hnull] at h
  cases h
  simp only [ValueType.begins_null_iff hnull, mem_callees_zeroValue_iff]

/-- A literal of a plain type calls nothing. -/
theorem callees_literal_plain {type : ValueType} {json : Json} {value : Value}
    (hplain : type ∈ [ValueType.string, .int, .double, .bool, .date])
    (h : literal type json = .ok value) : value.callees = [] := by
  unfold literal at h
  split at h
  · cases h
    cases type with
    | string | int | double | bool | date => rfl
    | array | optional | model => simp at hplain
  · cases type with
    | string | int | double | bool =>
        dsimp only at h
        split at h
        next found hfound =>
          cases h
          obtain ⟨_, -, rfl⟩ := Option.map_eq_some_iff.mp hfound
          rfl
        · cases h
    | date =>
        dsimp only at h
        split at h
        · cases h
          rfl
        · cases h
    | array | optional | model => simp at hplain

/-- What a literal calls is what the type begins with, item by item. -/
theorem mem_callees_literal_iff {type : ValueType} {callee : String} :
    ∀ {json : Json} {value : Value}, literal type json = .ok value →
      (callee ∈ value.callees ↔
        ∃ model, type.Begins (some json) model ∧ typeText (.model model) = callee) := by
  induction type with
  | array item ih =>
      intro json value h
      by_cases hnull : json.isNull = true
      · exact mem_callees_null_iff hnull h
      unfold literal at h
      rw [if_neg hnull] at h
      cases json with
      | array items =>
          obtain ⟨values, hvalues, rfl⟩ := map_eq_ok.mp h
          have hall := mapM_eq_ok.mp hvalues
          rw [Value.callees, mem_itemCallees]
          constructor
          · intro hcallee
            obtain ⟨made, hmade, hcallee⟩ := hcallee
            obtain ⟨json, hjson, hliteral⟩ := exists_of_forall₂ hall made hmade
            obtain ⟨model, hbegins, htext⟩ := (ih hliteral).mp hcallee
            exact ⟨model, .item hjson hbegins, htext⟩
          · intro hmodel
            obtain ⟨model, hbegins, htext⟩ := hmodel
            cases hbegins with
            | item hjson hbegins =>
                obtain ⟨made, hmade, hliteral⟩ := exists_of_forall₂ hall.flip _ hjson
                exact ⟨made, hmade, (ih hliteral).mpr ⟨model, hbegins, htext⟩⟩
      | _ => cases h
  | optional inner ih =>
      intro json value h
      by_cases hnull : json.isNull = true
      · exact mem_callees_null_iff hnull h
      unfold literal at h
      rw [if_neg hnull] at h
      rw [ih h]
      constructor
      · intro hmodel
        obtain ⟨model, hbegins, htext⟩ := hmodel
        exact ⟨model, .inner (by simpa using hnull) hbegins, htext⟩
      · intro hmodel
        obtain ⟨model, hbegins, htext⟩ := hmodel
        cases hbegins with
        | inner _ hbegins => exact ⟨model, hbegins, htext⟩
  | model name =>
      intro json value h
      by_cases hnull : json.isNull = true
      · exact mem_callees_null_iff hnull h
      unfold literal at h
      rw [if_neg hnull] at h
      cases h
  | string | int | double | bool | date =>
      intro json value h
      rw [callees_literal_plain (by simp) h]
      constructor
      · intro hcallee
        cases hcallee
      · intro hmodel
        obtain ⟨_, hbegins, -⟩ := hmodel
        cases hbegins

/-- **The value of a declaration calls exactly the types of the data models that it begins
with.** -/
theorem mem_callees_defaultValue_iff {type : ValueType} {default : Option Json} {value : Value}
    {callee : String} (h : defaultValue type default = .ok value) :
    callee ∈ value.callees ↔
      ∃ model, type.Begins default model ∧ typeText (.model model) = callee := by
  cases default with
  | none =>
      cases h
      exact mem_callees_zeroValue_iff
  | some json => exact mem_callees_literal_iff h

end Swift

end Screenwright
