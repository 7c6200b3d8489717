/-
Raw values that a kind of property accepts.

Each kind says which raw values conform to it, and what the typed value is.  Coercion accepts all
of these and nothing else, with one exception.  Whole numbers have 64 bits and their bounds do too,
but the two are compared as floats, and beyond `2^53` a number and its neighbour can be the same
float: a number that is just outside a large bound may slip through.  When that cannot happen is
told by the bounds alone.
-/
import Screenwright.Proofs.Floats.Whole
import Screenwright.Proofs.Validation
import Screenwright.Proofs.Values

namespace Screenwright

open Steps

namespace PropKind

/-! ### Conforming values -/

/-- The raw value conforms to the kind, and this is the typed value that it stands for. -/
inductive Conforms : PropKind → Json → PropValue → Prop
  | string {s : String} : Conforms .string (.string s) (.string s)
  /-- A number is read as a float, which is neither below the lower bound nor above the upper. -/
  | number {low high : Option Float} {value : Json} {x : Float} (hvalue : value.float? = some x)
      (hlow : ∀ bound ∈ low, ¬ x < bound) (hhigh : ∀ bound ∈ high, ¬ bound < x) :
      Conforms (.number low high) value (.number x)
  | integer {low high : Option Int} {n : Int} (hrange : Json.inIntRange n = true)
      (hlow : ∀ bound ∈ low, bound ≤ n) (hhigh : ∀ bound ∈ high, n ≤ bound) :
      Conforms (.integer low high) (.int n) (.integer n)
  | bool {b : Bool} : Conforms .bool (.bool b) (.bool b)
  | choice {words : List String} {s : String} (hlisted : s ∈ words) :
      Conforms (.choice words) (.string s) (.choice s)
  | token {kind : TokenKind} {slot : String} (haccepts : kind.accepts slot = true) :
      Conforms (.token kind) (.string slot) (.token ⟨kind, slot⟩)
  | action {value : Json} {a : Action} (hdecodes : Action.ofJson value = .ok a) :
      Conforms .action value (.action a)
  | actions {values : List Json} {items : List ActionItem}
      (hdecode : List.Forall₂ (fun v item => ActionItem.read (.ofJson v) = .ok item) values items) :
      Conforms .actions (.array values) (.actions items)
  | screen {s : String} (hnonempty : s ≠ "") : Conforms .screen (.string s) (.screen s)
  | tabs {values : List Json} {items : List TabItem} (hnonempty : items ≠ [])
      (hdecode : List.Forall₂ (fun v item => TabItem.read (.ofJson v) = .ok item) values items) :
      Conforms .tabs (.array values) (.tabs items)
  | strings {items : List String} : Conforms .strings (.array (items.map .string)) (.strings items)

/-- A whole number that is outside the bounds, but the same float as every bound that it is
beyond. -/
inductive Slips : PropKind → Json → PropValue → Prop
  | integer {low high : Option Int} {n : Int} (hrange : Json.inIntRange n = true)
      (hbeyond : (∃ bound ∈ low, n < bound) ∨ ∃ bound ∈ high, bound < n)
      (hlow : ∀ bound ∈ low, bound ≤ n ∨ (Float.ofInt n == Float.ofInt bound) = true)
      (hhigh : ∀ bound ∈ high, n ≤ bound ∨ (Float.ofInt bound == Float.ofInt n) = true) :
      Slips (.integer low high) (.int n) (.integer n)

/-! ### Ranges -/

theorem checkRange_eq_ok {x : Float} {low high : Option Float} {u : Unit} :
    checkRange x low high = .ok u ↔
      (∀ bound ∈ low, ¬ x < bound) ∧ ∀ bound ∈ high, ¬ bound < x := by
  cases low with
  | none =>
      cases high with
      | none => simp [checkRange, pure_eq_ok]
      | some h => by_cases hhigh : h < x <;> simp [checkRange, hhigh, throw_eq_error, pure_eq_ok]
  | some l =>
      by_cases hlow : x < l
      · simp [checkRange, hlow, throw_eq_error, error_bind]
      · cases high with
        | none => simp [checkRange, hlow, pure_eq_ok]
        | some h =>
            by_cases hhigh : h < x <;>
              simp [checkRange, hlow, hhigh, throw_eq_error, pure_eq_ok]

/-- A whole number passes a bound as a float if it keeps it, or is the same float. -/
theorem not_ofInt_lt_iff {a b : Int} :
    ¬ Float.ofInt a < Float.ofInt b ↔ b ≤ a ∨ (Float.ofInt a == Float.ofInt b) = true := by
  have ha := (Number.stands_ofInt a).1
  have hb := (Number.stands_ofInt b).1
  rw [Number.beq_iff_not_lt ha hb]
  constructor
  · intro h
    rcases Int.le_total b a with hle | hle
    · exact Or.inl hle
    · exact Or.inr ⟨h, Number.ofInt_not_lt hle⟩
  · rintro (hle | ⟨h, -⟩)
    · exact Number.ofInt_not_lt hle
    · exact h

theorem forall_mem_map {α β : Type} {f : α → β} {p : β → Prop} {bound : Option α} :
    (∀ b ∈ bound.map f, p b) ↔ ∀ a ∈ bound, p (f a) := by
  cases bound <;> simp

/-! ### What is accepted -/

variable {kind : PropKind} {value : Json} {v : PropValue}

theorem readItems_eq_ok {α : Type} {read : JsonText → Decoded α} {items : List α} :
    readItems read value = .ok items ↔ ∃ values, value = .array values ∧
      List.Forall₂ (fun v item => read (.ofJson v) = .ok item) values items := by
  cases value with
  | array values =>
      rw [readItems, JsonText.ofJson, JsonText.ofItems_eq_map, JsonText.readList, mapM_eq_ok,
        List.forall₂_map_left_iff]
      simp
  | _ => simp [readItems, JsonText.ofJson, JsonText.readList]

theorem readString_eq_ok {s : String} : JsonText.readString (.ofJson value) = .ok s ↔
    value = .string s := by
  cases value <;> simp [JsonText.readString, JsonText.ofJson]

/-- Items that are read as texts are texts. -/
theorem eq_map_of_readString {values : List Json} {items : List String}
    (h : List.Forall₂ (fun v item => JsonText.readString (.ofJson v) = .ok item) values items) :
    values = items.map .string := by
  induction h with
  | nil => rfl
  | cons hread _ ih => rw [List.map_cons, readString_eq_ok.mp hread, ih]

theorem nonEmpty_eq_ok {s : String} : nonEmpty value = .ok s ↔ value = .string s ∧ s ≠ "" := by
  cases value with
  | string t =>
      by_cases ht : t = ""
      · simp +contextual [nonEmpty, Json.string?, ht, throw_eq_error]
      · simp only [nonEmpty, Json.string?, if_neg ht, pure_eq_ok, Except.ok.injEq,
          Json.string.injEq]
        exact ⟨fun h => ⟨h, h ▸ ht⟩, And.left⟩
  | _ => simp [nonEmpty, Json.string?, throw_eq_error]

/-- No kind of tokens has a slot without a name. -/
theorem ne_empty_of_accepts {kind : TokenKind} {slot : String} (h : kind.accepts slot = true) :
    slot ≠ "" := by
  rintro rfl
  cases kind <;> revert h <;> decide

/-- A whole number is accepted where none of its bounds is passed as a float. -/
theorem coerce_integer_iff {low high : Option Int} :
    (integer low high).coerce value = .ok v ↔
      ∃ n, value = .int n ∧ v = .integer n ∧ Json.inIntRange n = true ∧
        (∀ bound ∈ low, bound ≤ n ∨ (Float.ofInt n == Float.ofInt bound) = true) ∧
        ∀ bound ∈ high, n ≤ bound ∨ (Float.ofInt bound == Float.ofInt n) = true := by
  simp only [← not_ofInt_lt_iff]
  cases value with
  | int n =>
      by_cases hrange : Json.inIntRange n = true
      · have hsteps : (integer low high).coerce (.int n) =
            (checkRange (.ofInt n) (low.map .ofInt) (high.map .ofInt) >>= fun _ =>
              .ok (.integer n)) := by
          simp only [coerce, Json.int?, if_pos hrange]
          rfl
        rw [hsteps, bind_eq_ok]
        simp only [checkRange_eq_ok, forall_mem_map]
        constructor
        · rintro ⟨_, hbounds, hv⟩
          exact ⟨n, rfl, (Except.ok.inj hv).symm, hrange, hbounds⟩
        · rintro ⟨_, hn, rfl, -, hbounds⟩
          cases hn
          exact ⟨(), hbounds, rfl⟩
      · simp [coerce, Json.int?, hrange, throw_eq_error]
  | _ => simp [coerce, Json.int?, throw_eq_error]

/-- **A conforming value is accepted.** -/
theorem coerce_of_conforms (h : kind.Conforms value v) : kind.coerce value = .ok v := by
  cases h with
  | string => rfl
  | number hvalue hlow hhigh =>
      simp only [coerce, hvalue]
      exact bind_eq_ok.mpr ⟨(), checkRange_eq_ok.mpr ⟨hlow, hhigh⟩, rfl⟩
  | integer hrange hlow hhigh =>
      exact coerce_integer_iff.mpr ⟨_, rfl, rfl, hrange, fun b hb => Or.inl (hlow b hb),
        fun b hb => Or.inl (hhigh b hb)⟩
  | bool => rfl
  | choice hlisted => simp [coerce, Json.string?, hlisted, pure_eq_ok]
  | token haccepts =>
      have hslot := nonEmpty_eq_ok.mpr ⟨rfl, ne_empty_of_accepts haccepts⟩
      simp only [coerce]
      exact bind_eq_ok.mpr ⟨_, hslot, by rw [if_pos haccepts]; rfl⟩
  | action hdecodes => simp only [coerce, hdecodes, pure_eq_ok]
  | actions hdecode =>
      simp only [coerce, readItems_eq_ok.mpr ⟨_, rfl, hdecode⟩, pure_eq_ok]
  | screen hnonempty =>
      exact map_eq_ok.mpr ⟨_, nonEmpty_eq_ok.mpr ⟨rfl, hnonempty⟩, rfl⟩
  | @tabs values items hnonempty hdecode =>
      have hsome : items.isEmpty = false := by simpa using hnonempty
      simp only [coerce, readItems_eq_ok.mpr ⟨values, rfl, hdecode⟩, hsome]
      rfl
  | @strings items =>
      have hread : readItems JsonText.readString (.array (items.map .string)) = .ok items := by
        rw [readItems_eq_ok]
        refine ⟨_, rfl, ?_⟩
        rw [List.forall₂_map_left_iff]
        exact List.forall₂_same.mpr fun _ _ => rfl
      simp only [coerce, hread, pure_eq_ok]

/-- A whole number that slips through is accepted, although it does not conform. -/
theorem Slips.coerce (h : kind.Slips value v) :
    kind.coerce value = .ok v ∧ ¬ kind.Conforms value v := by
  cases h with
  | integer hrange hbeyond hlow hhigh =>
      refine ⟨coerce_integer_iff.mpr ⟨_, rfl, rfl, hrange, hlow, hhigh⟩, fun hconforms => ?_⟩
      cases hconforms with
      | integer _ hlow hhigh =>
          rcases hbeyond with ⟨bound, hbound, hlt⟩ | ⟨bound, hbound, hlt⟩
          · exact Int.not_le.mpr hlt (hlow bound hbound)
          · exact Int.not_le.mpr hlt (hhigh bound hbound)

/-- **What is accepted conforms or slips through.** -/
theorem conforms_or_slips (h : kind.coerce value = .ok v) :
    kind.Conforms value v ∨ kind.Slips value v := by
  cases kind with
  | string =>
      cases value with
      | string s => cases h; exact Or.inl .string
      | _ => cases h
  | number low high =>
      refine Or.inl ?_
      cases hvalue : value.float? with
      | none => simp [PropKind.coerce, hvalue, throw_eq_error] at h
      | some x =>
          simp only [PropKind.coerce, hvalue] at h
          obtain ⟨_, hcheck, h⟩ := bind_eq_ok.mp h
          cases h
          obtain ⟨hlow, hhigh⟩ := checkRange_eq_ok.mp hcheck
          exact .number hvalue hlow hhigh
  | integer low high =>
      obtain ⟨n, rfl, rfl, hrange, hlow, hhigh⟩ := coerce_integer_iff.mp h
      by_cases hbeyond : (∃ bound ∈ low, n < bound) ∨ ∃ bound ∈ high, bound < n
      · exact Or.inr (.integer hrange hbeyond hlow hhigh)
      · rw [not_or] at hbeyond
        refine Or.inl (.integer hrange (fun b hb => ?_) fun b hb => ?_)
        · exact Int.not_lt.mp fun hlt => hbeyond.1 ⟨b, hb, hlt⟩
        · exact Int.not_lt.mp fun hlt => hbeyond.2 ⟨b, hb, hlt⟩
  | bool =>
      cases value with
      | bool b => cases h; exact Or.inl .bool
      | _ => cases h
  | choice words =>
      cases value with
      | string s =>
          simp only [PropKind.coerce, Json.string?] at h
          split at h
          next hlisted =>
            cases h
            exact Or.inl (.choice (List.contains_iff_mem.mp hlisted))
          · cases h
      | _ => cases h
  | token kind =>
      obtain ⟨slot, hslot, hkind⟩ := bind_eq_ok.mp h
      obtain ⟨rfl, -⟩ := nonEmpty_eq_ok.mp hslot
      split at hkind
      next haccepts =>
        cases hkind
        exact Or.inl (.token haccepts)
      · cases hkind
  | action =>
      simp only [PropKind.coerce] at h
      split at h
      next hdecodes =>
        cases h
        exact Or.inl (.action hdecodes)
      · cases h
  | actions =>
      simp only [PropKind.coerce] at h
      split at h
      next hread =>
        cases h
        obtain ⟨values, rfl, hdecode⟩ := readItems_eq_ok.mp hread
        exact Or.inl (.actions hdecode)
      · cases h
  | screen =>
      obtain ⟨s, hs, rfl⟩ := map_eq_ok.mp h
      obtain ⟨rfl, hnonempty⟩ := nonEmpty_eq_ok.mp hs
      exact Or.inl (.screen hnonempty)
  | tabs =>
      simp only [PropKind.coerce] at h
      split at h
      next hread =>
        split at h
        · cases h
        next hsome =>
          cases h
          obtain ⟨values, rfl, hdecode⟩ := readItems_eq_ok.mp hread
          exact Or.inl (.tabs (by simpa using hsome) hdecode)
      · cases h
  | strings =>
      simp only [PropKind.coerce] at h
      split at h
      next items hread =>
        cases h
        obtain ⟨values, rfl, hdecode⟩ := readItems_eq_ok.mp hread
        rw [eq_map_of_readString hdecode]
        exact Or.inl .strings
      · cases h

/-! ### Exactness -/

/-- The whole numbers that bound the values of a kind. -/
def bounds : PropKind → List Int
  | integer low high => low.toList ++ high.toList
  | _ => []

/-- As floats, the bounds are told from the numbers just beyond them.  Where the bounds leave no
number between them, it is enough that they are told from each other. -/
structure SharpBounds (low high : Option Int) : Prop where
  below : ∀ l ∈ low, (∀ h ∈ high, l ≤ h) → Json.minInt < l → Float.ofInt (l - 1) < Float.ofInt l
  above : ∀ h ∈ high, (∀ l ∈ low, l ≤ h) → h < Json.maxInt → Float.ofInt h < Float.ofInt (h + 1)
  crossed : ∀ l ∈ low, ∀ h ∈ high, h < l → Float.ofInt h < Float.ofInt l

/-- The kind has no bounds that a number beyond them can pass. -/
def Sharp : PropKind → Prop
  | integer low high => SharpBounds low high
  | _ => True

theorem inIntRange_iff {n : Int} :
    Json.inIntRange n = true ↔ Json.minInt ≤ n ∧ n ≤ Json.maxInt := by
  simp [Json.inIntRange]

/-- Numbers that pass sharp bounds as floats keep them. -/
theorem SharpBounds.keeps {low high : Option Int} {n : Int} (hsharp : SharpBounds low high)
    (hrange : Json.inIntRange n = true) (hlow : ∀ l ∈ low, ¬ Float.ofInt n < Float.ofInt l)
    (hhigh : ∀ h ∈ high, ¬ Float.ofInt h < Float.ofInt n) :
    (∀ l ∈ low, l ≤ n) ∧ ∀ h ∈ high, n ≤ h := by
  obtain ⟨hleast, hgreatest⟩ := inIntRange_iff.mp hrange
  have hnumber (m : Int) := (Number.stands_ofInt m).1
  constructor
  · intro l hl
    by_contra hbeyond
    refine hlow l hl ?_
    by_cases hopen : ∀ h ∈ high, l ≤ h
    · have hnext : ¬ Float.ofInt (l - 1) < Float.ofInt n := Number.ofInt_not_lt (by omega)
      exact Number.lt_of_not_lt_of_lt (hnumber _) (hnumber _) (hnumber _) hnext
        (hsharp.below l hl hopen (by omega))
    · simp only [not_forall, Int.not_le] at hopen
      obtain ⟨h, hh, hcrossed⟩ := hopen
      exact Number.lt_of_not_lt_of_lt (hnumber _) (hnumber _) (hnumber _) (hhigh h hh)
        (hsharp.crossed l hl h hh hcrossed)
  · intro h hh
    by_contra hbeyond
    refine hhigh h hh ?_
    by_cases hopen : ∀ l ∈ low, l ≤ h
    · have hnext : ¬ Float.ofInt n < Float.ofInt (h + 1) := Number.ofInt_not_lt (by omega)
      exact Number.lt_of_lt_of_not_lt (hnumber _) (hnumber _) (hnumber _)
        (hsharp.above h hh hopen (by omega)) hnext
    · simp only [not_forall, Int.not_le] at hopen
      obtain ⟨l, hl, hcrossed⟩ := hopen
      exact Number.lt_of_lt_of_not_lt (hnumber _) (hnumber _) (hnumber _)
        (hsharp.crossed l hl h hh hcrossed) (hlow l hl)

/-- **Nothing slips through sharp bounds.** -/
theorem Sharp.not_slips (hsharp : kind.Sharp) : ¬ kind.Slips value v := by
  rintro ⟨hrange, hbeyond, hlow, hhigh⟩
  obtain ⟨hleast, hgreatest⟩ := SharpBounds.keeps hsharp hrange
    (fun l hl => not_ofInt_lt_iff.mpr (hlow l hl)) (fun h hh => not_ofInt_lt_iff.mpr (hhigh h hh))
  rcases hbeyond with ⟨l, hl, hlt⟩ | ⟨h, hh, hlt⟩
  · exact Int.not_le.mpr hlt (hleast l hl)
  · exact Int.not_le.mpr hlt (hgreatest h hh)

/-- **Where nothing slips through, the bounds are sharp.**  The number that would slip through is
the neighbour of a bound or, where the bounds are crossed, the upper one. -/
theorem sharp_of_not_slips (hbounds : ∀ b ∈ kind.bounds, Json.inIntRange b = true)
    (h : ∀ value v, ¬ kind.Slips value v) : kind.Sharp := by
  cases kind with
  | integer low high =>
      have hrange {b : Int} (hb : b ∈ low ∨ b ∈ high) : Json.minInt ≤ b ∧ b ≤ Json.maxInt :=
        inIntRange_iff.mp (hbounds b (by simpa [bounds] using hb))
      constructor
      · intro l hl hopen hleast
        by_contra hsame
        have hl' := hrange (Or.inl hl)
        refine h (.int (l - 1)) _ (.integer (inIntRange_iff.mpr (by omega))
          (Or.inl ⟨l, hl, by omega⟩) (fun b hb => ?_) fun b hb => Or.inl ?_)
        · rw [Option.mem_unique hb hl]
          exact not_ofInt_lt_iff.mp hsame
        · have := hopen b hb
          omega
      · intro u hu hopen hgreatest
        by_contra hsame
        have hu' := hrange (Or.inr hu)
        refine h (.int (u + 1)) _ (.integer (inIntRange_iff.mpr (by omega))
          (Or.inr ⟨u, hu, by omega⟩) (fun b hb => Or.inl ?_) fun b hb => ?_)
        · have := hopen b hb
          omega
        · rw [Option.mem_unique hb hu]
          exact not_ofInt_lt_iff.mp hsame
      · intro l hl u hu hcrossed
        by_contra hsame
        refine h (.int u) _ (.integer (inIntRange_iff.mpr (hrange (Or.inr hu)))
          (Or.inl ⟨l, hl, hcrossed⟩) (fun b hb => ?_) fun b hb => Or.inl ?_)
        · rw [Option.mem_unique hb hl]
          exact not_ofInt_lt_iff.mp hsame
        · exact Int.le_of_eq (Option.mem_unique hu hb)
  | _ => trivial

/-- Bounds below `2^53` are sharp. -/
theorem sharp_of_small (hsmall : ∀ b ∈ kind.bounds, b.natAbs < 2 ^ 53) : kind.Sharp := by
  cases kind with
  | integer low high =>
      have hsmall {b : Int} (hb : b ∈ low ∨ b ∈ high) : b.natAbs < 2 ^ 53 :=
        hsmall b (by simpa [bounds] using hb)
      exact {
        below := fun l hl _ _ => Number.ofInt_lt (by omega) (Or.inr (hsmall (Or.inl hl)))
        above := fun h hh _ _ => Number.ofInt_lt (by omega) (Or.inl (hsmall (Or.inr hh)))
        crossed := fun l hl h _ hlt => Number.ofInt_lt hlt (Or.inr (hsmall (Or.inl hl))) }
  | _ => trivial

theorem Sharp.coerce_eq_ok_iff (hsharp : kind.Sharp) :
    kind.coerce value = .ok v ↔ kind.Conforms value v :=
  ⟨fun h => (conforms_or_slips h).resolve_right hsharp.not_slips, coerce_of_conforms⟩

/-- **Every property of the standard catalog takes the values that conform to its kind, and no
others.** -/
theorem coerce_standard_iff {schema : ComponentSchema} (hschema : schema ∈ Catalog.standardSchemas)
    {p : PropSchema} (hp : p ∈ schema.info.props) :
    p.kind.coerce value = .ok v ↔ p.kind.Conforms value v := by
  have hsmall : ∀ schema ∈ Catalog.standardSchemas, ∀ p ∈ schema.info.props,
      ∀ b ∈ p.kind.bounds, b.natAbs < 2 ^ 53 := by decide
  exact (sharp_of_small (hsmall schema hschema p hp)).coerce_eq_ok_iff

/-- **What a kind of property accepts.**  Coercion accepts the conforming values, each as the typed
value that it stands for, and the whole numbers that slip through, which do not conform.  Nothing
slips through iff the bounds are sharp, and bounds below `2^53` are. -/
theorem coerce_is_exact_iff (kind : PropKind)
    (hbounds : ∀ b ∈ kind.bounds, Json.inIntRange b = true) :
    (∀ value v, kind.coerce value = .ok v ↔ kind.Conforms value v ∨ kind.Slips value v) ∧
    (∀ value v, kind.Slips value v → ¬ kind.Conforms value v) ∧
    ((∀ value v, kind.coerce value = .ok v ↔ kind.Conforms value v) ↔ kind.Sharp) ∧
    ((∀ b ∈ kind.bounds, b.natAbs < 2 ^ 53) → kind.Sharp) := by
  refine ⟨fun value v => ⟨conforms_or_slips, ?_⟩, fun value v h => h.coerce.2, ⟨fun hexact => ?_, ?_⟩,
    sharp_of_small⟩
  · rintro (hconforms | hslips)
    · exact coerce_of_conforms hconforms
    · exact hslips.coerce.1
  · exact sharp_of_not_slips hbounds fun value v hslips =>
      hslips.coerce.2 ((hexact value v).mp hslips.coerce.1)
  · exact fun hsharp value v => hsharp.coerce_eq_ok_iff

/-- The number of a month has sharp bounds and is coerced exactly. -/
theorem month_is_exact : (integer (some 1) (some 12)).Sharp ∧
    ∀ value v, (integer (some 1) (some 12)).coerce value = .ok v ↔
      (integer (some 1) (some 12)).Conforms value v :=
  have hmonth := coerce_is_exact_iff (integer (some 1) (some 12)) (by decide)
  have hsharp := hmonth.2.2.2 (by decide)
  ⟨hsharp, hmonth.2.2.1.mpr hsharp⟩

/-- `2^53 + 1` passes the upper bound `2^53`. -/
theorem coerce_of_neighbour :
    ¬ ∀ (kind : PropKind) (value : Json) (v : PropValue),
      kind.coerce value = .ok v ↔ kind.Conforms value v := by
  intro hexact
  have hslips : (integer none (some (2 ^ 53))).Slips (.int (2 ^ 53 + 1)) (.integer (2 ^ 53 + 1)) :=
    .integer (by decide) (Or.inr ⟨_, rfl, by decide⟩) (by simp)
      (fun b hb => Or.inr (by cases hb; decide +kernel))
  exact hslips.coerce.2 ((hexact _ _ _).mp hslips.coerce.1)

end PropKind

end Screenwright
