/-
Trees whose bound properties have other literals.

Exchanging the literals of bound properties, for values that their kinds accept or for none,
changes nothing in how a tree passes its checks: a literal that the component allows is read, one
that is not there need not be, the further checks of a component are of properties that nobody
can bind, and everything else that is checked is not there in the literals.  The run over the
exchanged tree goes side by side with the run over the first one, and `exists_normalize_reword` says
where both end: in trees that are the same when they are trimmed.
-/
import Screenwright.Proofs.Limits
import Screenwright.Proofs.Literals.Trim

namespace Screenwright

open Steps
open DataBinding (covers)

/-! ### Runs over a tree and its image -/

namespace Tree

variable {α β ε σ : Type} {f : Visit α → StateT σ (Except ε) β} {g : α → α} {mask : β → β}
  {p : α → Prop}

mutual

/-- If at each node both runs come through with the same mask, then they do over the tree. -/
theorem exists_traverseBelow_map
    (hf : ∀ v s b s₁, p v.value → (f v).run s = .ok (b, s₁) →
      ∃ b', (f (v.map g)).run s = .ok (b', s₁) ∧ mask b' = mask b) (above : List α) :
    ∀ (t : Tree α) (s : σ) (u : Tree β) (s₁ : σ), (∀ a ∈ t.preorder, p a) →
      (traverseBelow f above t).run s = .ok (u, s₁) →
      ∃ u', (traverseBelow f (above.map g) (t.map g)).run s = .ok (u', s₁) ∧
        u'.map mask = u.map mask
  | node a ts, s, u, s₁, hp, h => by
    rw [traverseBelow, StateT.run_bind] at h
    obtain ⟨⟨b, s₂⟩, hb, h⟩ := bind_eq_ok.mp h
    rw [StateT.run_bind] at h
    obtain ⟨⟨us, s₃⟩, hus, h⟩ := bind_eq_ok.mp h
    cases h
    obtain ⟨b', hb', hmask⟩ := hf _ s b s₂ (hp a List.mem_cons_self) hb
    obtain ⟨us', hus', hmasks⟩ := exists_traverseAll_map hf (above ++ [a]) ts s₂ us s₃
      (fun a ha => hp a (List.mem_cons_of_mem _ ha)) hus
    refine ⟨node b' us', ?_, by rw [map, map, hmask, hmasks]⟩
    rw [map, traverseBelow, StateT.run_bind, mapAll_eq_map, List.length_map, ← mapAll_eq_map]
    refine bind_eq_ok.mpr ⟨(b', s₂), hb', ?_⟩
    rw [StateT.run_bind]
    rw [List.map_append] at hus'
    exact bind_eq_ok.mpr ⟨(us', s₃), hus', rfl⟩

/-- `exists_traverseBelow_map` for several trees. -/
theorem exists_traverseAll_map
    (hf : ∀ v s b s₁, p v.value → (f v).run s = .ok (b, s₁) →
      ∃ b', (f (v.map g)).run s = .ok (b', s₁) ∧ mask b' = mask b) (above : List α) :
    ∀ (ts : List (Tree α)) (s : σ) (us : List (Tree β)) (s₁ : σ),
      (∀ a ∈ preorderAll ts, p a) → (traverseAll f above ts).run s = .ok (us, s₁) →
      ∃ us', (traverseAll f (above.map g) (mapAll g ts)).run s = .ok (us', s₁) ∧
        mapAll mask us' = mapAll mask us
  | [], s, us, s₁, _, h => by
    cases h
    exact ⟨[], rfl, rfl⟩
  | t :: ts, s, us, s₁, hp, h => by
    rw [traverseAll, StateT.run_bind] at h
    obtain ⟨⟨u, s₂⟩, hu, h⟩ := bind_eq_ok.mp h
    rw [StateT.run_bind] at h
    obtain ⟨⟨us₁, s₃⟩, hus, h⟩ := bind_eq_ok.mp h
    cases h
    obtain ⟨u', hu', hmask⟩ := exists_traverseBelow_map hf above t s u s₂
      (fun a ha => hp a (List.mem_append_left _ ha)) hu
    obtain ⟨us', hus', hmasks⟩ := exists_traverseAll_map hf above ts s₂ us₁ s₃
      (fun a ha => hp a (List.mem_append_right _ ha)) hus
    refine ⟨u' :: us', ?_, by rw [mapAll, mapAll, hmask, hmasks]⟩
    rw [mapAll, traverseAll, StateT.run_bind]
    refine bind_eq_ok.mpr ⟨(u', s₂), hu', ?_⟩
    rw [StateT.run_bind]
    exact bind_eq_ok.mpr ⟨(us', s₃), hus', rfl⟩

end

end Tree

/-! ### Other literals -/

/-- Whether components of the type can have the raw value for the property: there is none, it is
`null`, or it is a value of the property's kind. -/
def Catalog.Takes (catalog : Catalog) (type property : String) (value : Option Json) : Prop :=
  ∀ v, value = some v → v.isNull = true ∨ ∃ info schema typed,
    catalog.find? type = some info ∧ info.prop? property = some schema ∧
      schema.kind.coerce v = .ok typed

namespace Component

/-- The component with other raw properties. -/
def reword (raw : Component → Entries Json) (c : Component) : Component :=
  { c with props := raw c }

/-- Raw properties that differ from those of the component in nothing but literals of what it
binds, all of which it can have. -/
structure Allows (c : Component) (raw : Entries Json) : Prop where
  trim : DataBinding.trim c.bindings raw = DataBinding.trim c.bindings c.props
  takes : ∀ name, covers c.bindings name = true →
    Catalog.standard.Takes c.type name (raw.lookup name)

theorem path_reword (raw : Component → Entries Json) (v : Visit Component) :
    path (v.map (reword raw)) = path v := by
  have hline : (v.map (reword raw)).line = v.line.map (reword raw) := by
    rw [Visit.line, Visit.line, List.map_append]
    rfl
  rw [path, path, hline, List.map_map]
  rfl

end Component

/-! ### Properties -/

namespace ComponentMeta

variable {bindings : List DataBinding} {raw raw' : Entries Json} {type : String}

/-- What is given for a property that is not bound has not changed. -/
theorem given?_eq_of_trim_eq {name : String}
    (htrim : DataBinding.trim bindings raw' = DataBinding.trim bindings raw)
    (hname : covers bindings name = false) : given? raw' name = given? raw name := by
  rw [given?, ← DataBinding.lookup_trim raw' hname, htrim, DataBinding.lookup_trim raw hname,
    given?]

/-- A property that can be bound has a value, whatever is given that it can have. -/
theorem exists_valueOf {info : ComponentMeta} {schema : PropSchema}
    (hfind : Catalog.standard.find? type = some info)
    (hschema : info.prop? schema.name = some schema)
    (hrequired : schema.required = false)
    (htakes : Catalog.standard.Takes type schema.name (raw.lookup schema.name)) :
    ∃ value, valueOf raw schema = .ok value := by
  rw [valueOf]
  split
  next value hgiven =>
    obtain ⟨hlookup, hnull⟩ := Option.filter_eq_some_iff.mp hgiven
    rcases htakes value hlookup with hisnull | ⟨info', schema', typed, hinfo', hschema', htyped⟩
    · rw [hisnull] at hnull
      cases hnull
    · rw [hfind, Option.some.injEq] at hinfo'
      rw [← hinfo', hschema, Option.some.injEq] at hschema'
      rw [hschema', htyped]
      exact ⟨some typed, rfl⟩
  · split
    · exact ⟨_, rfl⟩
    · rw [if_neg (by simp [hrequired])]
      exact ⟨none, rfl⟩

/-- The properties with the value for the name, if there is one. -/
def putSome (name : String) (value : Option PropValue) (before : Props) : Props :=
  value.elim before fun v => Entries.put name v before

/-- What is put for a bound property is trimmed away. -/
theorem trim_putSome_of_covers {name : String} (value : Option PropValue) (before : Props)
    (h : covers bindings name = true) :
    DataBinding.trim bindings (putSome name value before) = DataBinding.trim bindings before := by
  cases value with
  | none => rfl
  | some v => exact DataBinding.trim_put_of_covers before v h

theorem trim_putSome_of_not_covers {name : String} (value : Option PropValue) (before : Props)
    (h : covers bindings name = false) :
    DataBinding.trim bindings (putSome name value before) =
      putSome name value (DataBinding.trim bindings before) := by
  cases value with
  | none => rfl
  | some v => exact DataBinding.trim_put_of_not_covers before v h

/-- Filling in a schema goes on behind the value of its first property. -/
theorem fill_cons_eq_ok {schema : PropSchema} {rest : List PropSchema} {before props : Props} :
    fill type raw (schema :: rest) before = .ok props ↔ ∃ value, valueOf raw schema = .ok value ∧
      fill type raw rest (putSome schema.name value before) = .ok props := by
  simp only [fill]
  cases valueOf raw schema with
  | error fault => simp
  | ok value => cases value <;> simp [putSome]

theorem exists_valueOf_of_fill {schemas : List PropSchema} :
    ∀ {before props : Props}, fill type raw schemas before = .ok props →
      ∀ schema ∈ schemas, ∃ value, valueOf raw schema = .ok value := by
  induction schemas with
  | nil => simp
  | cons schema rest ih =>
      intro before props h
      obtain ⟨value, hvalue, h⟩ := fill_cons_eq_ok.mp h
      exact List.forall_mem_cons.mpr ⟨⟨value, hvalue⟩, ih h⟩

/-- Of what is given, a property that has a value can have it. -/
theorem takes_of_valueOf {info : ComponentMeta} {schema : PropSchema} {value : Option PropValue}
    (hfind : Catalog.standard.find? type = some info)
    (hschema : info.prop? schema.name = some schema)
    (h : valueOf raw schema = .ok value) :
    Catalog.standard.Takes type schema.name (raw.lookup schema.name) := by
  intro v hlookup
  by_cases hnull : v.isNull = true
  · exact .inl hnull
  have hgiven : given? raw schema.name = some v := by
    rw [given?, hlookup]
    exact Option.filter_some_pos (by simpa using hnull)
  simp only [valueOf, hgiven] at h
  obtain ⟨typed, htyped, -⟩ := map_eq_ok.mp h
  exact .inr ⟨info, schema, typed, hfind, hschema, htyped⟩

/-- Filling in a schema comes through with other literals of bound properties, and gives the same
properties otherwise. -/
theorem exists_fill {schemas : List PropSchema}
    (htrim : DataBinding.trim bindings raw' = DataBinding.trim bindings raw)
    (hopen : ∀ schema ∈ schemas, covers bindings schema.name = true →
      ∃ value, valueOf raw' schema = .ok value) :
    ∀ {before before' props : Props},
      DataBinding.trim bindings before' = DataBinding.trim bindings before →
      fill type raw schemas before = .ok props →
      ∃ props', fill type raw' schemas before' = .ok props' ∧
        DataBinding.trim bindings props' = DataBinding.trim bindings props := by
  induction schemas with
  | nil =>
      rintro before before' _ hbefore ⟨⟩
      exact ⟨before', rfl, hbefore⟩
  | cons schema rest ih =>
      intro before before' props hbefore h
      rw [List.forall_mem_cons] at hopen
      obtain ⟨value, hvalue, h⟩ := fill_cons_eq_ok.mp h
      cases hcovers : covers bindings schema.name with
      | true =>
          obtain ⟨value', hvalue'⟩ := hopen.1 hcovers
          have hnext : DataBinding.trim bindings (putSome schema.name value' before') =
              DataBinding.trim bindings (putSome schema.name value before) := by
            rw [trim_putSome_of_covers _ _ hcovers, trim_putSome_of_covers _ _ hcovers, hbefore]
          obtain ⟨props', hprops', htrim'⟩ := ih hopen.2 hnext h
          exact ⟨props', fill_cons_eq_ok.mpr ⟨value', hvalue', hprops'⟩, htrim'⟩
      | false =>
          have hsame : valueOf raw' schema = valueOf raw schema := by
            rw [valueOf, given?_eq_of_trim_eq htrim hcovers, valueOf]
          have hnext : DataBinding.trim bindings (putSome schema.name value before') =
              DataBinding.trim bindings (putSome schema.name value before) := by
            rw [trim_putSome_of_not_covers _ _ hcovers, trim_putSome_of_not_covers _ _ hcovers,
              hbefore]
          obtain ⟨props', hprops', htrim'⟩ := ih hopen.2 hnext h
          exact ⟨props', fill_cons_eq_ok.mpr ⟨value, hsame.trans hvalue, hprops'⟩, htrim'⟩

/-- Other literals bring no unknown names. -/
theorem firstUnknown?_eq_none {info : ComponentMeta}
    (htrim : DataBinding.trim bindings raw' = DataBinding.trim bindings raw)
    (hbound : ∀ name, covers bindings name = true → ∃ schema, info.prop? name = some schema)
    (h : info.firstUnknown? raw = none) : info.firstUnknown? raw' = none := by
  rw [firstUnknown?, List.find?_eq_none] at h ⊢
  intro name hname
  cases hcovers : covers bindings name with
  | true =>
      obtain ⟨schema, hschema⟩ := hbound name hcovers
      simp [hschema]
  | false =>
      refine h name ?_
      obtain ⟨value, hvalue⟩ := Entries.exists_lookup hname
      rw [← DataBinding.lookup_trim raw' hcovers, htrim,
        DataBinding.lookup_trim raw hcovers] at hvalue
      exact Entries.mem_names_of_lookup hvalue

/-- The table of a component's properties accepts other literals of bound ones. -/
theorem exists_validate {info : ComponentMeta} {props : Props}
    (hfind : Catalog.standard.find? type = some info) (hregular : info.isRegular = true)
    (htrim : DataBinding.trim bindings raw' = DataBinding.trim bindings raw)
    (hbound : ∀ name, covers bindings name = true →
      ∃ schema, info.prop? name = some schema ∧ schema.required = false)
    (htakes : ∀ name, covers bindings name = true →
      Catalog.standard.Takes type name (raw'.lookup name))
    (h : info.validate raw = .ok props) :
    ∃ props', info.validate raw' = .ok props' ∧
      DataBinding.trim bindings props' = DataBinding.trim bindings props := by
  simp only [isRegular, Bool.and_eq_true, decide_eq_true_eq] at hregular
  rw [validate] at h ⊢
  split at h
  · cases h
  next hknown =>
    have hnone := firstUnknown?_eq_none htrim
      (fun name hcovers => (hbound name hcovers).imp fun _ hschema => hschema.1) hknown
    rw [hnone]
    refine exists_fill htrim (fun schema hmem hcovers => ?_) rfl h
    obtain ⟨schema', hschema', hrequired⟩ := hbound schema.name hcovers
    have hschema := prop?_eq_some hregular.1 hmem
    rw [hschema, Option.some.injEq] at hschema'
    exact exists_valueOf hfind hschema (hschema' ▸ hrequired) (htakes schema.name hcovers)

end ComponentMeta

namespace Catalog

/-- The further checks of a component read properties that cannot be bound. -/
theorem validate_of_info_validate {schema : ComponentSchema} (hs : schema ∈ standardSchemas)
    {raw raw' : Entries Json} {props props' : Props} (h : schema.validate raw = .ok props)
    (hinfo : schema.info.validate raw' = .ok props')
    (hfixed : ∀ name, isFixed schema.info.kind name = true →
      props'.lookup name = props.lookup name) : schema.validate raw' = .ok props' := by
  have hcheck : ∀ {info : ComponentMeta} {check : Props → Option (String × PropFault)},
      check props' = check props → info.validate raw' = .ok props' →
      (ComponentSchema.withCheck info check).validate raw = .ok props →
      (ComponentSchema.withCheck info check).validate raw' = .ok props' := by
    intro info check hsame hinfo h
    obtain ⟨found, hfound, h⟩ := bind_eq_ok.mp h
    refine bind_eq_ok.mpr ⟨props', hinfo, ?_⟩
    split at h
    · cases h
    next hnone =>
      cases h
      rw [hsame, hnone]
      rfl
  simp only [standardSchemas, List.mem_append, List.mem_map, List.mem_cons, List.not_mem_nil,
    or_false] at hs
  rcases hs with (⟨info, -, rfl⟩ | rfl | rfl) | ⟨info, -, rfl⟩
  · exact hinfo
  · refine hcheck ?_ hinfo h
    rw [checkSlider, numberOf, numberOf, hfixed "min" rfl, hfixed "max" rfl, hfixed "step" rfl,
      checkSlider, numberOf, numberOf]
  · refine hcheck ?_ hinfo h
    rw [checkStepper, integerOf, integerOf, hfixed "min" rfl, hfixed "max" rfl, checkStepper,
      integerOf, integerOf]
  · exact hinfo

/-- A standard component accepts other literals of what it binds, and gives the same properties
otherwise. -/
theorem exists_validate_of_bindable {schema : ComponentSchema} {type : String}
    (hs : schema ∈ standardSchemas) (hfind : standard.find? type = some schema.info)
    {bindings : List DataBinding} {raw raw' : Entries Json} {props : Props}
    (hopen : ∀ name, covers bindings name = true →
      ∃ p, schema.info.prop? name = some p ∧ p.bind ≠ .fixed)
    (htrim : DataBinding.trim bindings raw' = DataBinding.trim bindings raw)
    (htakes : ∀ name, covers bindings name = true →
      standard.Takes type name (raw'.lookup name))
    (h : schema.validate raw = .ok props) :
    ∃ props', schema.validate raw' = .ok props' ∧
      DataBinding.trim bindings props' = DataBinding.trim bindings props ∧
      ∀ entry ∈ props', covers bindings entry.1 = true → entry.2.heldActions = [] := by
  have hregular := regular_standard schema hs
  have hbound : ∀ name, covers bindings name = true →
      ∃ p, schema.info.prop? name = some p ∧ p.required = false := by
    intro name hcovers
    obtain ⟨p, hp, hbind⟩ := hopen name hcovers
    exact ⟨p, hp, (quiet_of_bindable schema hs p (List.mem_of_find?_eq_some hp) hbind).2⟩
  obtain ⟨props', hprops', hsame⟩ := ComponentMeta.exists_validate hfind hregular htrim hbound
    htakes (info_validate_of_standard hs h)
  have hfixed : ∀ name, isFixed schema.info.kind name = true →
      props'.lookup name = props.lookup name := by
    intro name hname
    have hnot : covers bindings name = false := by
      by_contra hcovers
      obtain ⟨p, hp, hbind⟩ := hopen name (by simpa using hcovers)
      rw [isFixed, metaOf?_kind hs, Option.bind_some, hp] at hname
      exact hbind (by simpa using hname)
    rw [← DataBinding.lookup_trim props' hnot, hsame, DataBinding.lookup_trim props hnot]
  refine ⟨props', validate_of_info_validate hs h hprops' hfixed, hsame, ?_⟩
  intro entry hentry hcovers
  have haccepts := ComponentMeta.accepts_of_validate hregular hprops'
  exact (haccepts.silent_of_bindable hs entry hentry (hopen entry.1 hcovers)).1

end Catalog

/-! ### One node -/

namespace Component

variable {v : Visit Component} {e : Element} {raw : Component → Entries Json}

/-- The actions of a component are not among the literals of what it binds. -/
theorem checkActions_of_trim_eq {bindings : List DataBinding} {type : String}
    {props props' : Props}
    (htrim : DataBinding.trim bindings props' = DataBinding.trim bindings props)
    (hsilent : ∀ entry ∈ props', covers bindings entry.1 = true → entry.2.heldActions = [])
    (h : checkActions type props = .ok ()) : checkActions type props' = .ok () := by
  refine forM_eq_ok.mpr fun entry hentry => forM_eq_ok.mpr fun a ha => ?_
  cases hcovers : covers bindings entry.1 with
  | true =>
      rw [hsilent entry hentry hcovers] at ha
      cases ha
  | false =>
      have hmem : entry ∈ DataBinding.trim bindings props' :=
        List.mem_filter.mpr ⟨hentry, by simp [hcovers]⟩
      rw [htrim] at hmem
      rw [check_of_checkActions h entry (List.mem_filter.mp hmem).1 a ha]

/-- **A node passes by itself with other literals, and becomes the same element but for them.** -/
theorem exists_checkAlone_reword (h : checkAlone Catalog.standard v = .ok e)
    (hallows : v.value.Allows (raw v.value)) :
    ∃ e', checkAlone Catalog.standard (v.map (reword raw)) = .ok e' ∧ e'.trim = e.trim := by
  obtain ⟨schema, hschema, h⟩ := bind_eq_ok.mp h
  obtain ⟨props, hprops, h⟩ := bind_eq_ok.mp h
  obtain ⟨hmem, hfind⟩ := mem_of_schema (mapError_eq_ok.mp hschema)
  split at h
  next hwidth =>
    obtain ⟨_, hbindings, h⟩ := bind_eq_ok.mp h
    obtain ⟨_, hactions, h⟩ := bind_eq_ok.mp h
    obtain ⟨_, hmodifiers, h⟩ := bind_eq_ok.mp h
    cases h
    have hopen : ∀ name, covers v.value.bindings name = true →
        ∃ p, schema.info.prop? name = some p ∧ p.bind ≠ .fixed := by
      intro name hcovers
      obtain ⟨b, hb, rfl⟩ := DataBinding.covers_iff.mp hcovers
      exact bindable_of_checkBindings hbindings b hb
    obtain ⟨props', hprops', htrim, hsilent⟩ := Catalog.exists_validate_of_bindable hmem hfind
      hopen hallows.trim hallows.takes (mapError_eq_ok.mp hprops)
    have hactions' := checkActions_of_trim_eq htrim hsilent hactions
    refine ⟨⟨v.value.id, v.value.type, schema.info.kind, props', v.value.bindings,
      v.value.modifiers, v.depth⟩, ?_, ?_⟩
    · refine bind_eq_ok.mpr ⟨schema, hschema, bind_eq_ok.mpr ⟨props', ?_, ?_⟩⟩
      · exact mapError_eq_ok.mpr hprops'
      · have hwidth' : schema.info.children.accepts (v.map (reword raw)).width = true := hwidth
        rw [if_pos hwidth']
        refine bind_eq_ok.mpr ⟨(), hbindings, bind_eq_ok.mpr ⟨(), hactions', ?_⟩⟩
        refine bind_eq_ok.mpr ⟨(), hmodifiers, ?_⟩
        rw [Visit.depth_map]
        rfl
    · rw [Element.trim, Element.trim]
      dsimp only
      rw [htrim]
  · cases h

theorem exists_check_reword (v : Visit Component) (seen : Seen) (e : Element) (seen' : Seen)
    (hallows : v.value.Allows (raw v.value))
    (h : (check Catalog.standard v).run seen = .ok (e, seen')) :
    ∃ e', (check Catalog.standard (v.map (reword raw))).run seen = .ok (e', seen') ∧
      e'.trim = e.trim := by
  have halone := checkAlone_of_check h
  obtain ⟨e', halone', htrim⟩ := exists_checkAlone_reword halone hallows
  refine ⟨e', ?_, htrim⟩
  rw [run_check halone] at h
  rw [run_check halone', path_reword]
  have hid : (v.map (reword raw)).value.id = v.value.id := rfl
  rw [hid]
  cases hlookup : seen.lookup v.value.id with
  | some first =>
      rw [hlookup] at h
      cases h
  | none =>
      rw [hlookup] at h
      cases h
      rfl

end Component

/-! ### Trees -/

/-- Limits see no properties. -/
theorem Limits.check_reword (limits : Limits) (raw : Component → Entries Json)
    (root : ComponentTree) :
    limits.check (root.map (Component.reword raw)) = limits.check root := by
  have hscan : ∀ (visits : List (Visit Component)) (count : Nat),
      limits.scan count (visits.map (Visit.map (Component.reword raw))) =
        limits.scan count visits := by
    intro visits
    induction visits with
    | nil => exact fun _ => rfl
    | cons v rest ih =>
        intro count
        rw [List.map_cons, scan, scan, Visit.depth_map, Component.path_reword, ih]
  rw [check_eq, Tree.visits_map, hscan, check_eq]

/-- **A tree is normalized with other literals, to the same tree but for them.** -/
theorem exists_normalize_reword {root : ComponentTree} {limits : Limits} {t : NormalTree}
    (raw : Component → Entries Json) (h : normalize root Catalog.standard limits = .ok t)
    (hallows : ∀ c ∈ root.preorder, c.Allows (raw c)) :
    ∃ t', normalize (root.map (Component.reword raw)) Catalog.standard limits = .ok t' ∧
      t'.trim = t.trim := by
  have hsound := NormalTree.sound_of_normalize h
  obtain ⟨u, hlimits, hrest⟩ := bind_eq_ok.mp h
  obtain ⟨⟨elements, seen⟩, hrun, heq⟩ := bind_eq_ok.mp hrest
  obtain ⟨elements', hrun', hmask⟩ := Tree.exists_traverseBelow_map
    (fun v s b s₁ => Component.exists_check_reword v s b s₁) [] root [] elements seen hallows hrun
  have h' : normalize (root.map (Component.reword raw)) Catalog.standard limits =
      .ok (.ofRoot elements') := by
    refine bind_eq_ok.mpr ⟨u, ?_, bind_eq_ok.mpr ⟨(elements', seen), hrun', rfl⟩⟩
    rw [Limits.check_reword]
    exact hlimits
  cases heq
  refine ⟨.ofRoot elements', h', ?_⟩
  rw [← NormalTree.ofRoot_trim (NormalTree.sound_of_normalize h'), hmask,
    NormalTree.ofRoot_trim hsound]

/-! ### What has come through -/

namespace Component

/-- What a component has for a property that it binds is something that it can have. -/
theorem takes_of_checkAlone {v : Visit Component} {e : Element}
    (h : checkAlone Catalog.standard v = .ok e) :
    ∀ name, covers v.value.bindings name = true →
      Catalog.standard.Takes v.value.type name (v.value.props.lookup name) := by
  obtain ⟨schema, hschema, h⟩ := bind_eq_ok.mp h
  obtain ⟨props, hprops, h⟩ := bind_eq_ok.mp h
  obtain ⟨hmem, hfind⟩ := mem_of_schema (mapError_eq_ok.mp hschema)
  split at h
  · obtain ⟨_, hbindings, -⟩ := bind_eq_ok.mp h
    have hvalid := Catalog.info_validate_of_standard hmem (mapError_eq_ok.mp hprops)
    intro name hcovers
    obtain ⟨b, hb, rfl⟩ := DataBinding.covers_iff.mp hcovers
    obtain ⟨p, hp, -⟩ := bindable_of_checkBindings hbindings b hb
    have hname : p.name = b.property := by simpa using List.find?_some hp
    rw [← hname] at hp ⊢
    rw [ComponentMeta.validate] at hvalid
    split at hvalid
    · cases hvalid
    · obtain ⟨value, hvalue⟩ :=
        ComponentMeta.exists_valueOf_of_fill hvalid p (List.mem_of_find?_eq_some hp)
      exact ComponentMeta.takes_of_valueOf hfind hp hvalue
  · cases h

/-- Where all nodes have passed, each has passed by itself, and no two have one identifier. -/
theorem passed_of_mapM_check {catalog : Catalog} {visits : List (Visit Component)} :
    ∀ {seen seen' : Seen} {elements : List Element},
      (visits.mapM (check catalog)).run seen = .ok (elements, seen') →
      (∀ v ∈ visits, ∃ e, checkAlone catalog v = .ok e) ∧
        (visits.map fun v => v.value.id).Nodup ∧ ∀ v ∈ visits, v.value.id ∉ Entries.names seen := by
  induction visits with
  | nil => simp
  | cons v rest ih =>
      intro seen seen' elements h
      rw [List.mapM_cons, StateT.run_bind] at h
      obtain ⟨⟨e, seen₁⟩, hcheck, h⟩ := bind_eq_ok.mp h
      rw [StateT.run_bind] at h
      obtain ⟨⟨es, seen₂⟩, hrest, -⟩ := bind_eq_ok.mp h
      have halone := checkAlone_of_check hcheck
      rw [run_check halone] at hcheck
      split at hcheck
      · cases hcheck
      next hnew =>
        cases hcheck
        obtain ⟨hall, hkeys⟩ := ih hrest
        refine ⟨List.forall_mem_cons.mpr ⟨⟨e, halone⟩, hall⟩, ?_⟩
        refine nodup_keys_cons (fun hmem => ?_) hkeys
        obtain ⟨first, hfirst⟩ := Entries.exists_lookup hmem
        rw [hnew] at hfirst
        cases hfirst

end Component

/-- No two components of a tree that passes have one identifier. -/
theorem nodup_of_normalize {root : ComponentTree} {catalog : Catalog} {limits : Limits}
    {t : NormalTree} (h : normalize root catalog limits = .ok t) :
    (root.preorder.map Component.id).Nodup := by
  obtain ⟨seen, hrun⟩ := mapM_check_of_normalize h
  have hvalues : root.visits.map Visit.value = root.preorder := Tree.map_value_visitsBelow [] root
  rw [← hvalues, List.map_map]
  exact (Component.passed_of_mapM_check hrun).2.1

/-- **What a normalized tree was made from**: its components have distinct identifiers, and for
the properties that they bind they have literals that they can have. -/
theorem passed_of_normalize {root : ComponentTree} {limits : Limits} {t : NormalTree}
    (h : normalize root Catalog.standard limits = .ok t) :
    (root.preorder.map Component.id).Nodup ∧
      ∀ c ∈ root.preorder, c.Allows c.props := by
  refine ⟨nodup_of_normalize h, fun c hc => ?_⟩
  obtain ⟨seen, hrun⟩ := mapM_check_of_normalize h
  have hvalues : root.visits.map Visit.value = root.preorder := Tree.map_value_visitsBelow [] root
  rw [← hvalues] at hc
  obtain ⟨v, hv, rfl⟩ := List.mem_map.mp hc
  obtain ⟨e, he⟩ := (Component.passed_of_mapM_check hrun).1 v hv
  exact ⟨rfl, Component.takes_of_checkAlone he⟩

end Screenwright
