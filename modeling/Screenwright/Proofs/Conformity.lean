/-
Defaults that a type takes.

A default conforms to a type or it does not, item by item and below every optional, and `null`
conforms to all of them.  What is generated for it is a literal of the type that denotes the
default.  `Denotes` says what each of them stands for: a run that comes through is one way to
denote (`denotes_of_literal`), and typing and conformity are read off that relation, so that the
recursion of the run is opened only twice, for what it gives and for when it gives anything.
-/
import Screenwright.Proofs.Floats.Nearest
import Screenwright.Proofs.Steps
import Screenwright.Swift.Default

namespace Screenwright

open Steps

/-- The type takes the default. -/
inductive ValueType.Takes : ValueType → Json → Prop
  | null {type : ValueType} : Takes type .null
  | string {s : String} : Takes .string (.string s)
  | int {n : Int} (hrange : Json.inIntRange n = true) : Takes .int (.int n)
  | whole {n : Int} : Takes .double (.int n)
  | double {x : Float} : Takes .double (.float x)
  | bool {b : Bool} : Takes .bool (.bool b)
  | now : Takes .date (.string "now")
  | array {item : ValueType} {items : List Json} (hitems : ∀ json ∈ items, item.Takes json) :
      Takes (.array item) (.array items)
  | optional {inner : ValueType} {json : Json} (hinner : inner.Takes json) :
      Takes (.optional inner) json

namespace Swift

/-- The value is a literal of the type, or a new value of a data model. -/
inductive Value.HasType : Value → ValueType → Prop
  | string {s : String} : HasType (.string s) .string
  | int {n : Int} (hrange : Json.inIntRange n = true) : HasType (.int n) .int
  | number {x : Float} : HasType (.number x) .double
  | bool {b : Bool} : HasType (.bool b) .bool
  | now : HasType (.member "now") .date
  | array {item : ValueType} {items : List Value} (hitems : ∀ v ∈ items, v.HasType item) :
      HasType (.array items) (.array item)
  | nil {inner : ValueType} : HasType .nil (.optional inner)
  | some {inner : ValueType} {v : Value} (hinner : v.HasType inner) : HasType v (.optional inner)
  | model {name : String} : HasType (.call (typeText (.model name)) []) (.model name)

mutual

/-- The value denotes the default, as one of the type. -/
inductive Denotes : ValueType → Json → Value → Prop
  /-- `null` is as good as no default. -/
  | null {type : ValueType} : Denotes type .null (zeroValue type)
  | string {s : String} : Denotes .string (.string s) (.string s)
  | int {n : Int} (hrange : Json.inIntRange n = true) : Denotes .int (.int n) (.int n)
  | double {x : Float} : Denotes .double (.float x) (.number x)
  /-- The whole numbers of JSON texts have at most 64 digits. -/
  | whole {n : Int} {x : Float} (hnearest : n.natAbs < 2 ^ 64 → Number.Nearest n x) :
      Denotes .double (.int n) (.number x)
  | bool {b : Bool} : Denotes .bool (.bool b) (.bool b)
  | now : Denotes .date (.string "now") (.member "now")
  | array {item : ValueType} {items : List Json} {values : List Value}
      (hitems : DenoteAll item items values) :
      Denotes (.array item) (.array items) (.array values)
  | optional {inner : ValueType} {json : Json} {v : Value} (hjson : json.isNull = false)
      (hinner : Denotes inner json v) : Denotes (.optional inner) json v

/-- Each value denotes the default in its place, and there are as many. -/
inductive DenoteAll : ValueType → List Json → List Value → Prop
  | nil {item : ValueType} : DenoteAll item [] []
  | cons {item : ValueType} {json : Json} {v : Value} {items : List Json} {values : List Value}
      (head : Denotes item json v) (tail : DenoteAll item items values) :
      DenoteAll item (json :: items) (v :: values)

end

theorem denoteAll_iff {item : ValueType} {items : List Json} {values : List Value} :
    DenoteAll item items values ↔ List.Forall₂ (Denotes item) items values := by
  constructor
  · intro h
    induction items generalizing values with
    | nil =>
        cases h
        exact .nil
    | cons json items ih =>
        cases h with
        | cons head tail => exact .cons head (ih tail)
  · intro h
    induction h with
    | nil => exact .nil
    | cons head _ ih => exact .cons head ih

/-! ### What denotes a default -/

theorem hasType_zeroValue (type : ValueType) : (zeroValue type).HasType type := by
  cases type with
  | string => exact .string
  | int => exact .int (by decide)
  | double => exact .number
  | bool => exact .bool
  | date => exact .now
  | array item => exact .array (by simp)
  | optional inner => exact .nil
  | model name => exact .model

variable {type : ValueType}

/-- What denotes a default of the type is of the type. -/
theorem Denotes.hasType : ∀ {json : Json} {v : Value}, Denotes type json v → v.HasType type := by
  induction type with
  | array item ih =>
      intro json v h
      cases h with
      | null => exact hasType_zeroValue _
      | array hitems =>
          refine .array fun v hv => ?_
          obtain ⟨json, -, hjson⟩ := exists_of_forall₂ (denoteAll_iff.mp hitems) v hv
          exact ih hjson
  | optional inner ih =>
      intro json v h
      cases h with
      | null => exact .nil
      | optional _ hinner => exact .some (ih hinner)
  | string | int | double | bool | date | model =>
      intro json v h
      cases h <;> constructor <;> first | assumption | decide

/-- What is denoted is taken. -/
theorem Denotes.takes : ∀ {json : Json} {v : Value}, Denotes type json v → type.Takes json := by
  induction type with
  | array item ih =>
      intro json v h
      cases h with
      | null => exact .null
      | array hitems =>
          refine .array fun json hjson => ?_
          obtain ⟨v, -, hv⟩ := exists_of_forall₂ (denoteAll_iff.mp hitems).flip json hjson
          exact ih hv
  | optional inner ih =>
      intro json v h
      cases h with
      | null => exact .null
      | optional _ hinner => exact .optional (ih hinner)
  | string | int | double | bool | date | model =>
      intro json v h
      cases h <;> constructor <;> assumption

/-! ### Literals -/

theorem literal_null : literal type .null = .ok (zeroValue type) := by
  unfold literal
  rfl

theorem literal_optional {inner : ValueType} {json : Json} (hjson : json.isNull = false) :
    literal (.optional inner) json = literal inner json := by
  rw [literal, hjson]
  rfl

/-- A literal denotes what it is made from. -/
theorem denotes_of_literal :
    ∀ {json : Json} {v : Value}, literal type json = .ok v → Denotes type json v := by
  induction type with
  | array item ih =>
      intro json v h
      unfold literal at h
      cases json with
      | null =>
          cases h
          exact .null
      | array items =>
          obtain ⟨values, hvalues, rfl⟩ := map_eq_ok.mp h
          exact .array (denoteAll_iff.mpr ((mapM_eq_ok.mp hvalues).imp fun _ _ => ih))
      | _ => cases h
  | optional inner ih =>
      intro json v h
      cases json with
      | null =>
          rw [literal_null] at h
          cases h
          exact .null
      | _ =>
          rw [literal_optional rfl] at h
          exact .optional rfl (ih h)
  | int =>
      intro json v h
      unfold literal at h
      cases json with
      | null =>
          cases h
          exact .null
      | int n =>
          by_cases hrange : Json.inIntRange n = true
          · rw [Json.int?, if_pos hrange] at h
            cases h
            exact .int hrange
          · rw [Json.int?, if_neg hrange] at h
            cases h
      | _ => cases h
  | date =>
      intro json v h
      unfold literal at h
      cases json with
      | null =>
          cases h
          exact .null
      | string s =>
          by_cases hnow : (Json.string s).string? = some "now"
          · cases hnow
            cases h
            exact .now
          · dsimp only at h
            rw [if_neg (by simp [Json.isNull]), if_neg hnow] at h
            cases h
      | _ => cases h
  | double =>
      intro json v h
      unfold literal at h
      cases json with
      | null =>
          cases h
          exact .null
      | int n =>
          cases h
          exact .whole Number.nearest_ofInt
      | float x =>
          cases h
          exact .double
      | _ => cases h
  | string | bool | model =>
      intro json v h
      unfold literal at h
      cases json <;> cases h <;> constructor

/-- A default that is taken has a literal. -/
theorem exists_literal {json : Json} (h : type.Takes json) : ∃ v, literal type json = .ok v := by
  induction h with
  | null => exact ⟨_, literal_null⟩
  | int hrange =>
      unfold literal
      rw [Json.int?, if_pos hrange]
      exact ⟨_, rfl⟩
  | array hitems ih =>
      unfold literal
      exact exists_map_eq_ok (exists_mapM_eq_ok ih)
  | @optional inner json hinner ih =>
      cases json with
      | null => exact ⟨_, literal_null⟩
      | _ =>
          rw [literal_optional rfl]
          exact ih
  | string | whole | double | bool | now =>
      unfold literal
      exact ⟨_, rfl⟩

/-- **A default is taken iff it conforms to its type, and what is generated for it is a literal of
the type that denotes it.**  No default is as good as `null`. -/
theorem defaults_conform (type : ValueType) (default : Option Json) :
    ((∃ v, defaultValue type default = .ok v) ↔ ∀ json ∈ default, type.Takes json) ∧
      ∀ v, defaultValue type default = .ok v →
        v.HasType type ∧ Denotes type (default.getD .null) v := by
  have hnone : defaultValue type default = literal type (default.getD .null) := by
    cases default with
    | none => exact literal_null.symm
    | some json => rfl
  rw [hnone]
  refine ⟨⟨?_, fun h => exists_literal ?_⟩, fun v h => ?_⟩
  · rintro ⟨v, h⟩ json hjson
    rw [Option.mem_def.mp hjson] at h
    exact (denotes_of_literal h).takes
  · cases default with
    | none => exact .null
    | some json => exact h json rfl
  · exact ⟨(denotes_of_literal h).hasType, denotes_of_literal h⟩

/-- `null` becomes the zero value of the type that it stands at. -/
example : defaultValue (.array (.optional .int)) (some (.array [.null, .int 3])) =
    .ok (.array [.nil, .int 3]) := by
  rfl

end Swift

end Screenwright
