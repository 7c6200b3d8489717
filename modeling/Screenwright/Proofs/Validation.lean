/-
What a schema makes of raw properties.

A schema looks twice at what it is given: at the names in the order in which they come, and then at
the values in its own order.  The two orders do not mix.  A name counts only as long as none is
unknown, and a value only under its name, so a table of raw properties acts by whether its names are
known and by what it gives for each schema.  `validate_congr` says so; that neither the order of the
names nor the way in which an absent value is written plays a part follows from it.
-/
import Screenwright.Proofs.First
import Screenwright.Proofs.Typing

namespace Screenwright

open Steps

/-! ### Given values -/

/-- A raw table gives the value for the name.  A `null` gives nothing. -/
structure Entries.Gives (raw : Entries Json) (name : String) (value : Json) : Prop where
  mem : (name, value) ∈ raw
  present : value.isNull = false

namespace PropSchema

/-- What a property comes to: the value it is given, coerced, and else its default. -/
inductive Yields (raw : Entries Json) (schema : PropSchema) : PropValue → Prop
  | given {value : Json} {v : PropValue} (hgives : raw.Gives schema.name value)
      (hcoerce : schema.kind.coerce value = .ok v) : Yields raw schema v
  | default {v : PropValue} (habsent : ∀ value, ¬ raw.Gives schema.name value)
      (hdefault : schema.default = some v) : Yields raw schema v

/-- Why a property fails: its value is refused, or it has none and needs one. -/
inductive Fails (raw : Entries Json) (schema : PropSchema) : PropFault → Prop
  | refused {value : Json} {fault : PropFault} (hgives : raw.Gives schema.name value)
      (hcoerce : schema.kind.coerce value = .error fault) : Fails raw schema fault
  | missing (habsent : ∀ value, ¬ raw.Gives schema.name value) (hdefault : schema.default = none)
      (hrequired : schema.required = true) : Fails raw schema .missing

end PropSchema

namespace ComponentMeta

variable {info : ComponentMeta} {raw raw' : Entries Json}

/-- Where no name is there twice, a look-up finds what is given. -/
theorem given?_eq_some_iff (hraw : raw.names.Nodup) {name : String} {value : Json} :
    given? raw name = some value ↔ raw.Gives name value := by
  rw [given?, Option.filter_eq_some_iff, Bool.not_eq_true']
  constructor
  · rintro ⟨hlookup, hpresent⟩
    exact ⟨Entries.mem_of_lookup hlookup, hpresent⟩
  · rintro ⟨hmem, hpresent⟩
    exact ⟨Entries.lookup_of_mem hraw hmem, hpresent⟩

theorem given?_eq_none_iff (hraw : raw.names.Nodup) {name : String} :
    given? raw name = none ↔ ∀ value, ¬ raw.Gives name value := by
  simp only [← given?_eq_some_iff hraw, Option.eq_none_iff_forall_ne_some]

/-! ### The value of one property -/

theorem valueOf_of_given {schema : PropSchema} {value : Json}
    (h : given? raw schema.name = some value) :
    valueOf raw schema = (schema.kind.coerce value).map some := by
  rw [valueOf, h]

theorem valueOf_of_default {schema : PropSchema} {v : PropValue}
    (h : given? raw schema.name = none) (hdefault : schema.default = some v) :
    valueOf raw schema = .ok (some v) := by
  rw [valueOf, h, hdefault]
  rfl

theorem valueOf_of_absent {schema : PropSchema} (h : given? raw schema.name = none)
    (hdefault : schema.default = none) :
    valueOf raw schema = if schema.required then .error .missing else .ok none := by
  rw [valueOf, h, hdefault]
  rfl

theorem valueOf_eq_some_iff (hraw : raw.names.Nodup) {schema : PropSchema} {v : PropValue} :
    valueOf raw schema = .ok (some v) ↔ schema.Yields raw v := by
  constructor
  · intro h
    cases hgiven : given? raw schema.name with
    | some value =>
        rw [valueOf_of_given hgiven] at h
        obtain ⟨_, hcoerce, hv⟩ := map_eq_ok.mp h
        cases hv
        exact .given ((given?_eq_some_iff hraw).mp hgiven) hcoerce
    | none =>
        cases hdefault : schema.default with
        | some d =>
            rw [valueOf_of_default hgiven hdefault] at h
            cases h
            exact .default ((given?_eq_none_iff hraw).mp hgiven) hdefault
        | none =>
            rw [valueOf_of_absent hgiven hdefault] at h
            split at h <;> cases h
  · rintro (⟨hgives, hcoerce⟩ | ⟨habsent, hdefault⟩)
    · rw [valueOf_of_given ((given?_eq_some_iff hraw).mpr hgives), hcoerce]
      rfl
    · exact valueOf_of_default ((given?_eq_none_iff hraw).mpr habsent) hdefault

theorem valueOf_eq_error_iff (hraw : raw.names.Nodup) {schema : PropSchema} {fault : PropFault} :
    valueOf raw schema = .error fault ↔ schema.Fails raw fault := by
  constructor
  · intro h
    cases hgiven : given? raw schema.name with
    | some value =>
        rw [valueOf_of_given hgiven] at h
        cases hcoerce : schema.kind.coerce value with
        | error fault' =>
            rw [hcoerce] at h
            cases h
            exact .refused ((given?_eq_some_iff hraw).mp hgiven) hcoerce
        | ok v =>
            rw [hcoerce] at h
            cases h
    | none =>
        have habsent := (given?_eq_none_iff hraw).mp hgiven
        cases hdefault : schema.default with
        | some d =>
            rw [valueOf_of_default hgiven hdefault] at h
            cases h
        | none =>
            rw [valueOf_of_absent hgiven hdefault] at h
            split at h
            next hrequired =>
              cases h
              exact .missing habsent hdefault hrequired
            · cases h
  · rintro (⟨hgives, hcoerce⟩ | ⟨habsent, hdefault, hrequired⟩)
    · rw [valueOf_of_given ((given?_eq_some_iff hraw).mpr hgives), hcoerce]
      rfl
    · rw [valueOf_of_absent ((given?_eq_none_iff hraw).mpr habsent) hdefault, if_pos hrequired]

/-! ### The first unknown name -/

/-- The component has a property of the name. -/
def Declares (info : ComponentMeta) (name : String) : Prop :=
  ∃ schema ∈ info.props, schema.name = name

theorem isNone_prop?_iff {name : String} :
    (info.prop? name).isNone = true ↔ ¬ info.Declares name := by
  simp [prop?, Declares]

theorem firstUnknown?_eq_none_iff :
    info.firstUnknown? raw = none ↔ ∀ name ∈ raw.names, info.Declares name := by
  simp only [firstUnknown?, List.find?_eq_none, isNone_prop?_iff, not_not]

/-- The unknown name that is reported is the first one. -/
theorem firstUnknown?_eq_some_iff {name : String} :
    info.firstUnknown? raw = some name ↔
      ∃ before, FirstIn (fun _ name => ¬ info.Declares name) raw.names before name := by
  rw [firstUnknown?, List.find?_eq_some_iff_append, isNone_prop?_iff]
  constructor
  · rintro ⟨hname, before, after, hsplit, hbefore⟩
    refine ⟨before, ⟨after, hsplit⟩, hname, ?_⟩
    rintro ⟨_, other, _, rfl, hother⟩
    have hknown := hbefore other (by simp)
    rw [Bool.not_eq_true', ← Bool.not_eq_true, isNone_prop?_iff] at hknown
    exact hknown hother
  · rintro ⟨before, ⟨after, hsplit⟩, hname, hnone⟩
    refine ⟨hname, before, after, hsplit, fun other hother => ?_⟩
    obtain ⟨l, r, rfl⟩ := List.append_of_mem hother
    rw [Bool.not_eq_true', ← Bool.not_eq_true, isNone_prop?_iff]
    exact fun hunknown => hnone ⟨l, other, r, rfl, hunknown⟩

/-- A known name makes no difference to which unknown one is the first. -/
theorem firstUnknown?_insert {name : String} {value : Json} {before after : Entries Json}
    (hname : info.Declares name) :
    info.firstUnknown? (before ++ (name, value) :: after) =
      info.firstUnknown? (before ++ after) := by
  have hknown : (info.prop? name).isNone = false := by
    rw [← Bool.not_eq_true, isNone_prop?_iff, not_not]
    exact hname
  simp [firstUnknown?, Entries.names, List.find?_append, hknown]

/-! ### Filling a schema -/

/-- Filling a schema fails with the error of the first property that fails. -/
theorem fill_eq_error_iff {type : String} {schemas : List PropSchema} (props : Props)
    {e : CatalogError} : fill type raw schemas props = .error e ↔
      ∃ before schema, FirstIn (fun _ s => ∃ fault, valueOf raw s = .error fault) schemas before
        schema ∧ ∃ fault, valueOf raw schema = .error fault ∧
          e = .invalidProp type schema.name fault := by
  have hfails : ∀ schema : PropSchema, (∃ e fault, valueOf raw schema = .error fault ∧
      e = CatalogError.invalidProp type schema.name fault) ↔
        ∃ fault, valueOf raw schema = .error fault :=
    fun schema => ⟨fun ⟨_, fault, h, _⟩ => ⟨fault, h⟩, fun ⟨fault, h⟩ => ⟨_, fault, h, rfl⟩⟩
  simp only [← hfails]
  refine errs_iff_firstIn (fun (props : Props) schemas e => fill type raw schemas props = .error e)
    (fun _ _ => True) (fun _ schema e => ∃ fault, valueOf raw schema = .error fault ∧
      e = .invalidProp type schema.name fault) (fun _ _ h => nomatch h) ?_ [] props trivial
  intro _ props schema rest _
  cases hval : valueOf raw schema with
  | error fault =>
      refine Or.inl ⟨⟨_, fault, rfl, rfl⟩, fun e => ?_⟩
      simp only [fill, hval, Except.error.injEq, exists_eq_left', eq_comm]
  | ok value =>
      refine Or.inr ⟨by simp, ?_⟩
      cases value with
      | none => exact ⟨props, trivial, fun e => by simp only [fill, hval]⟩
      | some value =>
          exact ⟨Entries.put schema.name value props, trivial, fun e => by simp only [fill, hval]⟩

/-- Filling a schema depends only on what each property comes to. -/
theorem fill_congr {type : String} {schemas : List PropSchema}
    (h : ∀ s ∈ schemas, valueOf raw s = valueOf raw' s) :
    ∀ props, fill type raw schemas props = fill type raw' schemas props := by
  induction schemas with
  | nil => exact fun _ => rfl
  | cons schema rest ih =>
      intro props
      rw [List.forall_mem_cons] at h
      simp only [fill, h.1, ih h.2]

/-- What is filled in are the properties that come to something, and each with that. -/
theorem Filled.mem_iff {schemas : List PropSchema} {props : Props}
    (h : Filled raw schemas props) {name : String} {v : PropValue} :
    (name, v) ∈ props ↔ ∃ s ∈ schemas, s.name = name ∧ valueOf raw s = .ok (some v) := by
  induction h with
  | nil => simp
  | absent hval _ ih => simp [ih, hval]
  | present hval _ ih => simp [ih, hval, eq_comm]

/-! ### Validation -/

theorem validate_of_unknown {name : String} (h : info.firstUnknown? raw = some name) :
    info.validate raw = .error (.invalidProp info.type name .unknown) := by
  rw [validate, h]

theorem validate_of_declared (h : ∀ name ∈ raw.names, info.Declares name) :
    info.validate raw = fill info.type raw info.props [] := by
  rw [validate, firstUnknown?_eq_none_iff.mpr h]

/-- Raw tables with the same first unknown name whose properties come to the same are validated
alike. -/
theorem validate_congr (hunknown : info.firstUnknown? raw = info.firstUnknown? raw')
    (h : ∀ s ∈ info.props, valueOf raw s = valueOf raw' s) :
    info.validate raw = info.validate raw' := by
  rw [validate, validate, hunknown]
  cases info.firstUnknown? raw' with
  | some name => rfl
  | none => exact fill_congr h []

/-- The properties of an accepted table come in the order of the schema, each with its value. -/
theorem of_validate_eq_ok (hnames : (info.props.map PropSchema.name).Nodup) {props : Props}
    (h : info.validate raw = .ok props) :
    (∀ name ∈ raw.names, info.Declares name) ∧ Filled raw info.props props := by
  cases hunknown : info.firstUnknown? raw with
  | some name =>
      rw [validate_of_unknown hunknown] at h
      cases h
  | none =>
      have hdeclared := firstUnknown?_eq_none_iff.mp hunknown
      rw [validate_of_declared hdeclared] at h
      obtain ⟨more, hfilled, heq⟩ := filled_of_fill h hnames (by simp [Entries.names])
      rw [List.nil_append] at heq
      exact ⟨hdeclared, heq ▸ hfilled⟩

/-- The error is about the first unknown name, and else about the first property that fails. -/
theorem validate_eq_error_iff (hraw : raw.names.Nodup) {e : CatalogError} :
    info.validate raw = .error e ↔
      (∃ before name, FirstIn (fun _ name => ¬ info.Declares name) raw.names before name ∧
        e = .invalidProp info.type name .unknown) ∨
      (∀ name ∈ raw.names, info.Declares name) ∧
        ∃ before schema, FirstIn (fun _ s => ∃ fault, s.Fails raw fault) info.props before schema ∧
          ∃ fault, schema.Fails raw fault ∧ e = .invalidProp info.type schema.name fault := by
  simp only [← valueOf_eq_error_iff hraw, ← fill_eq_error_iff []]
  cases hunknown : info.firstUnknown? raw with
  | some name =>
      obtain ⟨before, hfirst⟩ := firstUnknown?_eq_some_iff.mp hunknown
      rw [validate_of_unknown hunknown]
      constructor
      · rintro ⟨⟩
        exact Or.inl ⟨before, name, hfirst, rfl⟩
      · rintro (⟨before, other, hother, rfl⟩ | ⟨hdeclared, -⟩)
        · have heq := hunknown.symm.trans (firstUnknown?_eq_some_iff.mpr ⟨before, hother⟩)
          cases heq
          rfl
        · rw [firstUnknown?_eq_none_iff.mpr hdeclared] at hunknown
          cases hunknown
  | none =>
      have hdeclared := firstUnknown?_eq_none_iff.mp hunknown
      rw [validate_of_declared hdeclared]
      constructor
      · exact fun h => Or.inr ⟨hdeclared, h⟩
      · rintro (⟨before, name, hfirst, -⟩ | ⟨-, h⟩)
        · rw [firstUnknown?_eq_some_iff.mpr ⟨before, hfirst⟩] at hunknown
          cases hunknown
        · exact h

/-- A property fails in no way if the value it is given has its kind, and if it is given one where
it needs one. -/
theorem forall_not_fails_iff {schema : PropSchema} :
    (∀ fault, ¬ schema.Fails raw fault) ↔
      (∀ value, raw.Gives schema.name value → ∃ v, schema.kind.coerce value = .ok v) ∧
      (schema.required = true → schema.default = none → ∃ value, raw.Gives schema.name value) := by
  constructor
  · intro h
    refine ⟨fun value hgives => ?_, fun hrequired hdefault => ?_⟩
    · cases hcoerce : schema.kind.coerce value with
      | ok v => exact ⟨v, rfl⟩
      | error fault => exact absurd (.refused hgives hcoerce) (h fault)
    · by_contra habsent
      exact h .missing (.missing (not_exists.mp habsent) hdefault hrequired)
  · rintro ⟨hcoerce, hneeded⟩ fault (⟨hgives, hrefused⟩ | ⟨habsent, hdefault, hrequired⟩)
    · obtain ⟨v, hv⟩ := hcoerce _ hgives
      rw [hv] at hrefused
      cases hrefused
    · obtain ⟨value, hgives⟩ := hneeded hrequired hdefault
      exact habsent value hgives

/-- Raw properties are accepted if all their names are known and no property fails. -/
theorem exists_validate_iff (hraw : raw.names.Nodup) :
    (∃ props, info.validate raw = .ok props) ↔
      (∀ name ∈ raw.names, info.Declares name) ∧
        ∀ s ∈ info.props, ∀ fault, ¬ s.Fails raw fault := by
  constructor
  · rintro ⟨props, h⟩
    have hnone : ∀ e, info.validate raw ≠ .error e := fun e he => by
      rw [h] at he
      cases he
    have hdeclared : ∀ name ∈ raw.names, info.Declares name := by
      by_contra hunknown
      push Not at hunknown
      obtain ⟨before, name, hfirst⟩ := exists_firstIn_iff.mpr (anyIn_iff_exists_mem.mpr hunknown)
      exact hnone _ ((validate_eq_error_iff hraw).mpr (Or.inl ⟨before, name, hfirst, rfl⟩))
    refine ⟨hdeclared, fun s hs fault hfails => ?_⟩
    have hany : AnyIn (fun _ s => ∃ fault, PropSchema.Fails raw s fault) info.props :=
      anyIn_iff_exists_mem.mpr ⟨s, hs, fault, hfails⟩
    obtain ⟨before, s', hfirst⟩ := exists_firstIn_iff.mpr hany
    obtain ⟨fault', hfails'⟩ := hfirst.meets
    exact hnone _ ((validate_eq_error_iff hraw).mpr
      (Or.inr ⟨hdeclared, before, s', hfirst, fault', hfails', rfl⟩))
  · rintro ⟨hdeclared, hfine⟩
    cases h : info.validate raw with
    | ok props => exact ⟨props, rfl⟩
    | error e =>
        rcases (validate_eq_error_iff hraw).mp h with
          ⟨before, name, ⟨⟨after, hsplit⟩, hname, -⟩, -⟩ |
            ⟨-, before, s, ⟨⟨after, hsplit⟩, ⟨fault, hfails⟩, -⟩, -⟩
        · exact absurd (hdeclared name (by simp [hsplit])) hname
        · exact absurd hfails (hfine s (by simp [hsplit]) fault)

/-! ### Tables that are validated alike -/

theorem Gives.perm {name : String} {value : Json} (hperm : raw.Perm raw') :
    raw.Gives name value ↔ raw'.Gives name value :=
  ⟨fun h => ⟨hperm.mem_iff.mp h.mem, h.present⟩, fun h => ⟨hperm.mem_iff.mpr h.mem, h.present⟩⟩

/-- An accepted table is accepted in every order, with the same result. -/
theorem validate_perm (hraw : raw.names.Nodup) (hperm : raw.Perm raw') {props : Props}
    (h : info.validate raw = .ok props) : info.validate raw' = .ok props := by
  have hnames : raw.names.Perm raw'.names := hperm.map Prod.fst
  have hraw' : raw'.names.Nodup := hnames.nodup_iff.mp hraw
  have hunknown : info.firstUnknown? raw = none := by
    cases hunknown : info.firstUnknown? raw with
    | none => rfl
    | some name =>
        rw [validate_of_unknown hunknown] at h
        cases h
  have hunknown' : info.firstUnknown? raw' = none :=
    firstUnknown?_eq_none_iff.mpr fun name hname =>
      firstUnknown?_eq_none_iff.mp hunknown name (hnames.mem_iff.mpr hname)
  rw [← h]
  refine (validate_congr (hunknown.trans hunknown'.symm) fun s _ => ?_).symm
  have hgiven : given? raw s.name = given? raw' s.name := by
    ext value
    rw [given?_eq_some_iff hraw, given?_eq_some_iff hraw', Gives.perm hperm]
  rw [valueOf, valueOf, hgiven]

/-- A property that is given nothing, `null` or what it comes to without a value is validated
alike. -/
theorem validate_insert (hnames : (info.props.map PropSchema.name).Nodup) {schema : PropSchema}
    (hschema : schema ∈ info.props) {before after : Entries Json}
    (hnew : schema.name ∉ (before ++ after).names) {value : Json}
    (hvalue : value = .null ∨ ∃ v, schema.default = some v ∧ schema.kind.coerce value = .ok v) :
    info.validate (before ++ (schema.name, value) :: after) = info.validate (before ++ after) := by
  have hnone : (before ++ after).lookup schema.name = none := by
    cases hlookup : (before ++ after).lookup schema.name with
    | none => rfl
    | some value => exact absurd (Entries.mem_names_of_lookup hlookup) hnew
  refine validate_congr (firstUnknown?_insert ⟨schema, hschema, rfl⟩) fun s hs => ?_
  by_cases hname : s.name = schema.name
  · obtain rfl := List.inj_on_of_nodup_map hnames hs hschema hname
    have hgiven : given? (before ++ after) s.name = none := by rw [given?, hnone]; rfl
    rw [List.lookup_append, Option.or_eq_none_iff] at hnone
    have hgiven' : given? (before ++ (s.name, value) :: after) s.name =
        if value.isNull then none else some value := by
      rw [given?, List.lookup_append, hnone.1, List.lookup_cons_self, Option.none_or,
        Option.filter_some]
      cases value.isNull <;> rfl
    rcases hvalue with rfl | ⟨v, hdefault, hcoerce⟩
    · rw [valueOf, valueOf, hgiven', hgiven]
      rfl
    · rw [valueOf_of_default hgiven hdefault]
      split at hgiven'
      · exact valueOf_of_default hgiven' hdefault
      · rw [valueOf_of_given hgiven', hcoerce]
        rfl
  · have hne : (s.name == schema.name) = false := by simpa using hname
    rw [valueOf, valueOf, given?, given?, List.lookup_append, List.lookup_append,
      List.lookup_cons, hne]

/-! ### The schema as a specification -/

/-- **A schema decides what raw properties come to.** -/
theorem properties_are_validated (info : ComponentMeta)
    (hnames : (info.props.map PropSchema.name).Nodup) (raw : Entries Json)
    (hraw : raw.names.Nodup) :
    ((∃ props, info.validate raw = .ok props) ↔
      (∀ name ∈ raw.names, info.Declares name) ∧
      (∀ s ∈ info.props, ∀ value, raw.Gives s.name value → ∃ v, s.kind.coerce value = .ok v) ∧
      ∀ s ∈ info.props, s.required = true → s.default = none → ∃ value, raw.Gives s.name value) ∧
    (∀ props, info.validate raw = .ok props →
      (Entries.names props).Sublist (info.props.map PropSchema.name) ∧
      ∀ name v, (name, v) ∈ props ↔ ∃ s ∈ info.props, s.name = name ∧ s.Yields raw v) ∧
    (∀ raw' : Entries Json, raw.Perm raw' → ∀ props,
      info.validate raw' = .ok props ↔ info.validate raw = .ok props) ∧
    (∀ s ∈ info.props, ∀ before after, raw = before ++ after → s.name ∉ raw.names →
      info.validate (before ++ (s.name, .null) :: after) = info.validate raw ∧
      ∀ value v, s.default = some v → s.kind.coerce value = .ok v →
        info.validate (before ++ (s.name, value) :: after) = info.validate raw) ∧
    ∀ e, info.validate raw = .error e ↔
      (∃ before name, FirstIn (fun _ name => ¬ info.Declares name) raw.names before name ∧
        e = .invalidProp info.type name .unknown) ∨
      (∀ name ∈ raw.names, info.Declares name) ∧
        ∃ before s, FirstIn (fun _ s => ∃ fault, s.Fails raw fault) info.props before s ∧
          ∃ fault, s.Fails raw fault ∧ e = .invalidProp info.type s.name fault := by
  refine ⟨?_, ?_, ?_, ?_, fun _ => validate_eq_error_iff hraw⟩
  · simp only [exists_validate_iff hraw, forall_not_fails_iff, forall_and]
  · intro props h
    obtain ⟨-, hfilled⟩ := of_validate_eq_ok hnames h
    refine ⟨hfilled.names_sublist, fun name v => ?_⟩
    simp only [hfilled.mem_iff, valueOf_eq_some_iff hraw]
  · intro raw' hperm props
    have hraw' : raw'.names.Nodup := (hperm.map Prod.fst).nodup_iff.mp hraw
    exact ⟨validate_perm hraw' hperm.symm, validate_perm hraw hperm⟩
  · rintro s hs before after rfl hnew
    exact ⟨validate_insert hnames hs hnew (Or.inl rfl), fun value v hdefault hcoerce =>
      validate_insert hnames hs hnew (Or.inr ⟨v, hdefault, hcoerce⟩)⟩

/-- A badge with a needed label, a count and a slot for its color. -/
def badge : ComponentMeta where
  type := "Badge"
  displayName := "Badge"
  category := .patterns
  kind := .text
  props :=
    [.needed "label" .string, .defaulted "count" (.integer (some 0) none) (.integer 1),
      .optional "tint" (.token .color)]
  children := .none

/-- The count of a badge may be left out, be `null` or be given as what it is by default, and the
label may come behind it. -/
theorem badge_is_validated :
    (badge.props.map PropSchema.name).Nodup ∧
      (Entries.names [("label", Json.string "New")]).Nodup ∧
      badge.validate [("label", .string "New")] =
        .ok [("label", .string "New"), ("count", .integer 1)] ∧
      badge.validate [("count", .null), ("label", .string "New")] =
        .ok [("label", .string "New"), ("count", .integer 1)] ∧
      badge.validate [("label", .string "New"), ("count", .int 1)] =
        .ok [("label", .string "New"), ("count", .integer 1)] := by
  have hnames : (badge.props.map PropSchema.name).Nodup := by decide
  have hraw : (Entries.names [("label", Json.string "New")]).Nodup := by decide
  have hok : badge.validate [("label", .string "New")] =
      .ok [("label", .string "New"), ("count", .integer 1)] := rfl
  obtain ⟨-, -, -, hinsert, -⟩ := properties_are_validated badge hnames _ hraw
  have hcount : PropSchema.defaulted "count" (.integer (some 0) none) (.integer 1) ∈
      badge.props := by simp [badge]
  have hcoerce : (PropKind.integer (some 0) none).coerce (.int 1) = .ok (.integer 1) := by rfl
  refine ⟨hnames, hraw, hok, ?_, ?_⟩
  · exact (hinsert _ hcount [] _ rfl (by decide)).1.trans hok
  · exact ((hinsert _ hcount [_] [] rfl (by decide)).2 (.int 1) (.integer 1) rfl hcoerce).trans hok

end ComponentMeta

end Screenwright
