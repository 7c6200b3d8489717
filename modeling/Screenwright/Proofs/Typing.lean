/-
Properties that a schema has accepted.

A schema turns the raw properties of a component into typed ones.  What the rest of the
library relies on afterwards is stated here once: every typed value is of the kind that
the schema names for its property, no property is there twice, and a property that is
needed or has a default is there.  `accepts_of_validate` is that statement.  It asks of
the schema itself that its names are distinct and that its defaults are of their kinds,
which `isRegular` decides and every standard component meets.
-/
import Screenwright.Catalog.Standard
import Screenwright.Proofs.Steps
import Screenwright.Proofs.Tables

namespace Screenwright

open Steps

/-! ### Values of a kind -/

namespace PropKind

/-- Whether a typed value is of the kind.  Bounds of numbers are left out: nothing that
is generated depends on them. -/
def fits : PropKind → PropValue → Bool
  | string, .string _ => true
  | number _ _, .number _ => true
  | integer _ _, .integer _ => true
  | bool, .bool _ => true
  | choice words, .choice word => words.contains word
  | token kind, .token ref => ref.kind = kind && kind.accepts ref.slot
  | action, .action _ => true
  | actions, .actions _ => true
  | screen, .screen _ => true
  | tabs, .tabs _ => true
  | strings, .strings _ => true
  | _, _ => false

/-- What a raw value becomes is of the kind it was read for. -/
theorem coerce_gives (kind : PropKind) (value : Json) :
    Gives (kind.coerce value) fun v => kind.fits v = true := by
  unfold coerce
  cases kind with
  | string =>
      dsimp only
      split
      · exact .ret rfl
      · exact .error
  | number low high =>
      dsimp only
      split
      · exact Gives.step fun _ => .ret rfl
      · exact .error
  | integer low high =>
      dsimp only
      split
      · exact Gives.step fun _ => .ret rfl
      · exact .error
  | bool =>
      dsimp only
      split
      · exact .ret rfl
      · exact .error
  | choice words =>
      dsimp only
      split
      · split
        next hmem => exact .ret hmem
        · exact .error
      · exact .error
  | token kind =>
      refine Gives.step fun slot => ?_
      split
      next hslot => exact .ret (by simpa [fits] using hslot)
      · exact .error
  | action =>
      dsimp only
      split
      · exact .ret rfl
      · exact .error
  | actions =>
      dsimp only
      split
      · exact .ret rfl
      · exact .error
  | screen => exact .map fun _ _ => rfl
  | tabs =>
      dsimp only
      split
      · split
        · exact .error
        · exact .ret rfl
      · exact .error
  | strings =>
      dsimp only
      split
      · exact .ret rfl
      · exact .error

end PropKind

/-! ### What filling a schema gives -/

namespace ComponentMeta

/-- A schema that can be relied on: no name is there twice, and every default is of the
kind of its property. -/
def isRegular (info : ComponentMeta) : Bool :=
  decide (info.props.map PropSchema.name).Nodup &&
    info.props.all fun schema => schema.default.all schema.kind.fits

/-- The typed properties that raw ones give, in the order of the schemas: the present and
the defaulted ones, without those that are absent. -/
inductive Filled (raw : Entries Json) : List PropSchema → Props → Prop
  | nil : Filled raw [] []
  | absent {schema : PropSchema} {rest : List PropSchema} {props : Props}
      (h : valueOf raw schema = .ok none) (hrest : Filled raw rest props) :
      Filled raw (schema :: rest) props
  | present {schema : PropSchema} {rest : List PropSchema} {props : Props} {value : PropValue}
      (h : valueOf raw schema = .ok (some value)) (hrest : Filled raw rest props) :
      Filled raw (schema :: rest) ((schema.name, value) :: props)

/-- `fill` adds what the schemas give behind what is there. -/
theorem filled_of_fill {type : String} {raw : Entries Json} {schemas : List PropSchema} :
    ∀ {before props : Props}, fill type raw schemas before = .ok props →
      (schemas.map PropSchema.name).Nodup → (∀ s ∈ schemas, s.name ∉ Entries.names before) →
      ∃ more, Filled raw schemas more ∧ props = before ++ more := by
  induction schemas with
  | nil =>
      intro before props h _ _
      cases h
      exact ⟨[], .nil, by simp⟩
  | cons schema rest ih =>
      intro before props h hnd hnew
      rw [List.map_cons, List.nodup_cons] at hnd
      have hrest : ∀ s ∈ rest, s.name ∉ Entries.names before :=
        fun s hs => hnew s (List.mem_cons_of_mem _ hs)
      simp only [fill] at h
      split at h
      · cases h
      next hval =>
        obtain ⟨more, hmore, heq⟩ := ih h hnd.2 hrest
        exact ⟨more, .absent hval hmore, heq⟩
      next value hval =>
        rw [Entries.put_of_not_mem value (hnew schema List.mem_cons_self)] at h
        -- The names behind this one stay new: they differ from it and from those before.
        have hnext : ∀ s ∈ rest, s.name ∉ Entries.names (before ++ [(schema.name, value)]) := by
          intro s hs hmem
          simp only [Entries.names, List.map_append, List.mem_append, List.map_cons, List.map_nil,
            List.mem_singleton] at hmem
          rcases hmem with hmem | heq
          · exact hrest s hs hmem
          · exact hnd.1 (heq ▸ List.mem_map.mpr ⟨s, hs, rfl⟩)
        obtain ⟨more, hmore, heq⟩ := ih h hnd.2 hnext
        exact ⟨(schema.name, value) :: more, .present hval hmore, by simp [heq]⟩

theorem Filled.names_sublist {raw : Entries Json} {schemas : List PropSchema} {props : Props}
    (h : Filled raw schemas props) :
    (Entries.names props).Sublist (schemas.map PropSchema.name) := by
  induction h with
  | nil => exact .slnil
  | absent _ _ ih => exact .cons _ ih
  | present _ _ ih => exact .cons_cons _ ih

/-- The value of a property is of its kind if the default is. -/
theorem fits_of_valueOf {raw : Entries Json} {schema : PropSchema} {value : PropValue}
    (hdef : schema.default.all schema.kind.fits = true)
    (h : valueOf raw schema = .ok (some value)) : schema.kind.fits value = true := by
  simp only [valueOf] at h
  split at h
  · obtain ⟨v, hv, hsome⟩ := map_eq_ok.mp h
    cases hsome
    exact PropKind.coerce_gives _ _ _ hv
  · split at h
    next default hd =>
      cases h
      rw [hd] at hdef
      exact hdef
    · split at h <;> cases h

/-- Every typed property comes from a schema and is of its kind. -/
theorem Filled.mem_fits {raw : Entries Json} {schemas : List PropSchema} {props : Props}
    (h : Filled raw schemas props)
    (hdef : ∀ s ∈ schemas, s.default.all s.kind.fits = true) :
    ∀ entry ∈ props, ∃ s ∈ schemas, s.name = entry.1 ∧ s.kind.fits entry.2 = true := by
  induction h with
  | nil => simp
  | absent _ _ ih =>
      intro entry hentry
      obtain ⟨s, hs, hfits⟩ := ih (fun s hs => hdef s (List.mem_cons_of_mem _ hs)) entry hentry
      exact ⟨s, List.mem_cons_of_mem _ hs, hfits⟩
  | present hval _ ih =>
      intro entry hentry
      rcases List.mem_cons.mp hentry with rfl | hentry
      · exact ⟨_, List.mem_cons_self, rfl, fits_of_valueOf (hdef _ List.mem_cons_self) hval⟩
      · obtain ⟨s, hs, hfits⟩ := ih (fun s hs => hdef s (List.mem_cons_of_mem _ hs)) entry hentry
        exact ⟨s, List.mem_cons_of_mem _ hs, hfits⟩

/-- A needed property has a value. -/
theorem Filled.mem_names_of_required {raw : Entries Json} {schemas : List PropSchema}
    {props : Props} (h : Filled raw schemas props) :
    ∀ s ∈ schemas, s.required = true → s.name ∈ Entries.names props := by
  induction h with
  | nil => simp
  | absent hval _ ih =>
      intro s hs hreq
      rcases List.mem_cons.mp hs with rfl | hs
      · -- An absent needed property is an error, not an absence.
        simp only [valueOf] at hval
        split at hval
        · obtain ⟨_, _, hsome⟩ := map_eq_ok.mp hval
          cases hsome
        · split at hval
          · cases hval
          · simp [hreq, throw_eq_error] at hval
      · exact ih s hs hreq
  | present _ _ ih =>
      intro s hs hreq
      rcases List.mem_cons.mp hs with rfl | hs
      · simp [Entries.names]
      · exact List.mem_cons_of_mem _ (ih s hs hreq)

/-! ### Accepted properties -/

/-- What can be relied on of the properties that a schema has accepted. -/
structure Accepts (info : ComponentMeta) (props : Props) : Prop where
  /-- Every property is one of the schema's and of its kind. -/
  fits : ∀ entry ∈ props, ∃ s, info.prop? entry.1 = some s ∧ s.kind.fits entry.2 = true
  /-- No property is there twice. -/
  nodup : (Entries.names props).Nodup
  /-- A needed property is there. -/
  needed : ∀ s ∈ info.props, s.required = true → s.name ∈ Entries.names props

/-- With distinct names, the schema of a name is the one that has it. -/
theorem prop?_eq_some {info : ComponentMeta} {s : PropSchema}
    (hnd : (info.props.map PropSchema.name).Nodup) (hs : s ∈ info.props) :
    info.prop? s.name = some s :=
  find?_key_eq_some _ hnd hs

/-- **A regular schema accepts only properties that can be relied on.** -/
theorem accepts_of_validate {info : ComponentMeta} {raw : Entries Json} {props : Props}
    (hreg : info.isRegular = true) (h : info.validate raw = .ok props) : info.Accepts props := by
  simp only [isRegular, Bool.and_eq_true, decide_eq_true_eq, List.all_eq_true] at hreg
  obtain ⟨hnd, hdef⟩ := hreg
  simp only [validate] at h
  split at h
  · cases h
  · obtain ⟨more, hfilled, heq⟩ := filled_of_fill h hnd (by simp [Entries.names])
    rw [List.nil_append] at heq
    subst heq
    refine ⟨?_, hfilled.names_sublist.nodup hnd, hfilled.mem_names_of_required⟩
    intro entry hentry
    obtain ⟨s, hs, hname, hfits⟩ := hfilled.mem_fits hdef entry hentry
    exact ⟨s, hname ▸ prop?_eq_some hnd hs, hfits⟩

end ComponentMeta

/-! ### The standard components -/

namespace Catalog

theorem regular_standard : ∀ schema ∈ standardSchemas, schema.info.isRegular = true := by
  decide

/-- A component's further check takes nothing back: what it accepts, the table of its
properties accepts. -/
theorem info_validate_of_standard {schema : ComponentSchema} (hs : schema ∈ standardSchemas)
    {raw : Entries Json} {props : Props} (h : schema.validate raw = .ok props) :
    schema.info.validate raw = .ok props := by
  have hcheck : ∀ {info : ComponentMeta} {check : Props → Option (String × PropFault)},
      (ComponentSchema.withCheck info check).validate raw = .ok props →
      info.validate raw = .ok props := by
    intro info check h
    obtain ⟨props', hprops, h⟩ := bind_eq_ok.mp h
    split at h
    · cases h
    · cases h; exact hprops
  simp only [standardSchemas, List.mem_append, List.mem_map, List.mem_cons, List.not_mem_nil,
    or_false] at hs
  rcases hs with (⟨info, -, rfl⟩ | rfl | rfl) | ⟨info, -, rfl⟩
  · exact h
  · exact hcheck h
  · exact hcheck h
  · exact h

/-- The standard component of a kind. -/
def metaOf? (kind : ComponentKind) : Option ComponentMeta :=
  (standardSchemas.find? fun schema => schema.info.kind = kind).map ComponentSchema.info

theorem nodup_kinds : (standardSchemas.map fun schema => schema.info.kind).Nodup := by
  decide

/-- Every kind has one standard component, so a kind tells the component. -/
theorem metaOf?_kind {schema : ComponentSchema} (hs : schema ∈ standardSchemas) :
    metaOf? schema.info.kind = some schema.info := by
  have hfind := find?_key_eq_some (fun t : ComponentSchema => t.info.kind) nodup_kinds hs
  rw [metaOf?, hfind, Option.map_some]

theorem mem_of_metaOf? {kind : ComponentKind} {info : ComponentMeta}
    (h : metaOf? kind = some info) :
    ∃ schema ∈ standardSchemas, schema.info = info ∧ info.kind = kind := by
  obtain ⟨schema, hfind, rfl⟩ := Option.map_eq_some_iff.mp h
  exact ⟨schema, List.mem_of_find?_eq_some hfind, rfl, by simpa using List.find?_some hfind⟩

/-- The kind of a property of a standard component. -/
def kindOf? (kind : ComponentKind) (name : String) : Option PropKind :=
  ((metaOf? kind).bind (·.prop? name)).map PropSchema.kind

/-- Whether a standard component needs the property. -/
def needs (kind : ComponentKind) (name : String) : Bool :=
  (metaOf? kind).any fun info => info.props.any fun p => p.name = name && p.required

/-- How many children a standard component accepts. -/
def childrenOf? (kind : ComponentKind) : Option ChildPolicy :=
  (metaOf? kind).map ComponentMeta.children

end Catalog

end Screenwright
