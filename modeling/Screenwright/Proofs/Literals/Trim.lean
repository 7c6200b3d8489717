/-
Trees without the literals of bound properties.

A bound property has two values, what it is bound to and its literal.  `trim` takes the literals
of bound properties away, from a table of properties, from an element and from a normal tree.
What is read of a tree apart from properties is read of the trimmed tree as well: its shape, its
identifiers, its bindings and its modifiers are left alone, and so are its actions and its
references, for the catalog lets no property be bound that holds one.
-/
import Screenwright.Proofs.Lowering.Components

namespace Screenwright

open Steps

/-! ### Trees under a map -/

namespace Tree

variable {α β : Type} (f : α → β)

theorem mapAll_eq_map (ts : List (Tree α)) : mapAll f ts = ts.map (map f) := by
  induction ts with
  | nil => rfl
  | cons t ts ih => rw [mapAll, ih, List.map_cons]

theorem value_map (t : Tree α) : (t.map f).value = f t.value := by
  cases t
  rfl

mutual

theorem preorder_map : ∀ t : Tree α, (t.map f).preorder = t.preorder.map f
  | node a ts => by rw [map, preorder, preorder, List.map_cons, preorderAll_map ts]

theorem preorderAll_map : ∀ ts : List (Tree α), preorderAll (mapAll f ts) = (preorderAll ts).map f
  | [] => rfl
  | t :: ts => by
    rw [mapAll, preorderAll, preorderAll, List.map_append, preorder_map t, preorderAll_map ts]

end

theorem size_map (t : Tree α) : (t.map f).size = t.size := by
  rw [← length_preorder, preorder_map, List.length_map, length_preorder]

end Tree

/-- A visit of the tree under a map. -/
def Visit.map {α β : Type} (f : α → β) (v : Visit α) : Visit β :=
  ⟨v.above.map f, f v.value, v.width⟩

theorem Visit.depth_map {α β : Type} (f : α → β) (v : Visit α) : (v.map f).depth = v.depth := by
  rw [depth, depth, map, List.length_map]

namespace Tree

variable {α β : Type} (f : α → β)

mutual

theorem visitsBelow_map (above : List α) : ∀ t : Tree α,
    visitsBelow (above.map f) (t.map f) = (visitsBelow above t).map (Visit.map f)
  | node a ts => by
    have hrest := visitsAll_map (above ++ [a]) ts
    rw [List.map_append] at hrest
    rw [map, visitsBelow, visitsBelow, List.map_cons, mapAll_eq_map, List.length_map,
      ← mapAll_eq_map]
    exact congrArg _ hrest

theorem visitsAll_map (above : List α) : ∀ ts : List (Tree α),
    visitsAll (above.map f) (mapAll f ts) = (visitsAll above ts).map (Visit.map f)
  | [] => rfl
  | t :: ts => by
    rw [mapAll, visitsAll, visitsAll, List.map_append, visitsBelow_map above t,
      visitsAll_map above ts]

end

theorem visits_map (t : Tree α) : (t.map f).visits = t.visits.map (Visit.map f) :=
  visitsBelow_map f [] t

end Tree

theorem NormalTree.containerDepth_map (f : Element → Element) (t : Tree Element) :
    containerDepth (t.map f) = containerDepth t := by
  rw [containerDepth, Tree.visits_map, List.filter_map, List.foldl_map, containerDepth]
  simp only [Visit.depth_map]
  rfl

/-! ### Trimming -/

namespace DataBinding

/-- Whether one of the bindings is of the property. -/
def covers (bindings : List DataBinding) (name : String) : Bool :=
  bindings.any fun b => b.property = name

/-- The entries of the properties that no binding is of. -/
def trim {α : Type} (bindings : List DataBinding) (table : Entries α) : Entries α :=
  table.filter fun entry => !covers bindings entry.1

theorem covers_iff {bindings : List DataBinding} {name : String} :
    covers bindings name = true ↔ ∃ b ∈ bindings, b.property = name := by
  simp [covers]

variable {α : Type} {bindings : List DataBinding} {name : String} (table : Entries α)

theorem lookup_trim (h : covers bindings name = false) :
    (trim bindings table).lookup name = table.lookup name :=
  Entries.lookup_filter (p := fun name => !covers bindings name) table (by rw [h]; rfl)

theorem trim_put_of_covers (value : α) (h : covers bindings name = true) :
    trim bindings (Entries.put name value table) = trim bindings table := by
  rw [trim, Entries.filter_put (p := fun name => !covers bindings name)]
  simp [h, trim]

theorem trim_put_of_not_covers (value : α) (h : covers bindings name = false) :
    trim bindings (Entries.put name value table) =
      Entries.put name value (trim bindings table) := by
  rw [trim, Entries.filter_put (p := fun name => !covers bindings name)]
  simp [h, trim]

end DataBinding

open DataBinding (covers)

namespace Element

variable {e : Element} {info : ComponentMeta} {name : String}

/-- The element without the literals of the properties that it binds. -/
def trim (e : Element) : Element :=
  { e with props := DataBinding.trim e.bindings e.props }

theorem prop?_trim (h : covers e.bindings name = false) : e.trim.prop? name = e.prop? name :=
  DataBinding.lookup_trim e.props h

end Element

/-! ### What can be bound -/

namespace Catalog

/-- Whether a standard component does not let the property be bound. -/
def isFixed (kind : ComponentKind) (name : String) : Bool :=
  ((metaOf? kind).bind (·.prop? name)).all fun schema => schema.bind = .fixed

/-- What can be bound makes no uses, and it need not be there. -/
theorem quiet_of_bindable : ∀ schema ∈ standardSchemas, ∀ p ∈ schema.info.props,
    p.bind ≠ .fixed → p.kind.isQuiet = true ∧ p.required = false := by
  decide

end Catalog

theorem PropKind.silent_of_isQuiet {kind : PropKind} {value : PropValue}
    (hquiet : kind.isQuiet = true) (hfits : kind.fits value = true) :
    value.heldActions = [] ∧ value.references = [] := by
  cases kind <;> cases value <;>
    simp_all [isQuiet, fits, PropValue.heldActions, PropValue.references]

/-- A value of a property that can be bound holds no action and leads nowhere. -/
theorem ComponentMeta.Accepts.silent_of_bindable {schema : ComponentSchema} {props : Props}
    (h : schema.info.Accepts props) (hs : schema ∈ Catalog.standardSchemas) :
    ∀ entry ∈ props,
      (∃ p, schema.info.prop? entry.1 = some p ∧ p.bind ≠ .fixed) →
      entry.2.heldActions = [] ∧ entry.2.references = [] := by
  rintro entry hentry ⟨p, hp, hbind⟩
  obtain ⟨p', hp', hfits⟩ := h.fits entry hentry
  rw [hp, Option.some.injEq] at hp'
  have hquiet := (Catalog.quiet_of_bindable schema hs p (List.mem_of_find?_eq_some hp) hbind).1
  exact PropKind.silent_of_isQuiet hquiet (hp' ▸ hfits)

namespace Element

variable {e : Element} {info : ComponentMeta} {name : String}

/-- A property that a checked element binds is one that can be bound. -/
theorem Checked.exists_schema_of_covers (h : e.Checked info) (hb : e.Bindable Catalog.standard)
    (hname : covers e.bindings name = true) :
    ∃ schema, info.prop? name = some schema ∧ schema.bind ≠ .fixed := by
  obtain ⟨b, hmem, rfl⟩ := DataBinding.covers_iff.mp hname
  obtain ⟨info', hinfo, hall⟩ := hb
  rw [h.type, Option.some.injEq] at hinfo
  rw [hinfo]
  exact hall b hmem

theorem Checked.not_covers_of_isFixed (h : e.Checked info) (hb : e.Bindable Catalog.standard)
    (hfixed : Catalog.isFixed e.kind name = true) : covers e.bindings name = false := by
  by_contra hcovers
  obtain ⟨schema, hschema, hbind⟩ := h.exists_schema_of_covers hb (by simpa using hcovers)
  rw [Catalog.isFixed, h.kind, Option.bind_some, hschema] at hfixed
  exact hbind (by simpa using hfixed)

/-- A value of a bound property holds no action and leads nowhere. -/
theorem Checked.silent_of_covers (h : e.Checked info) (hb : e.Bindable Catalog.standard) :
    ∀ entry ∈ e.props, covers e.bindings entry.1 = true →
      entry.2.heldActions = [] ∧ entry.2.references = [] := by
  intro entry hentry hcovers
  obtain ⟨standard, hstandard, rfl, -⟩ := Catalog.mem_of_metaOf? h.kind
  exact h.props.silent_of_bindable hstandard entry hentry (h.exists_schema_of_covers hb hcovers)

/-- A walk over the properties meets nothing new at those that are bound. -/
theorem flatMap_props_trim {α : Type} {f : PropValue → List α}
    (h : ∀ entry ∈ e.props, covers e.bindings entry.1 = true → f entry.2 = []) :
    (e.trim.props.flatMap fun entry => f entry.2) = e.props.flatMap fun entry => f entry.2 := by
  show (e.props.filter fun entry => !covers e.bindings entry.1).flatMap _ = _
  generalize e.props = props at h
  induction props with
  | nil => rfl
  | cons entry rest ih =>
      rw [List.forall_mem_cons] at h
      rw [List.flatMap_cons, ← ih h.2, List.filter_cons]
      split
      · rw [List.flatMap_cons]
      next hcovers => rw [h.1 (by simpa using hcovers), List.nil_append]

theorem Checked.actions_trim (h : e.Checked info) (hb : e.Bindable Catalog.standard) :
    e.trim.actions = e.actions :=
  congrArg (· ++ _) (flatMap_props_trim fun entry hentry hcovers =>
    (h.silent_of_covers hb entry hentry hcovers).1)

theorem Checked.references_trim (h : e.Checked info) (hb : e.Bindable Catalog.standard) :
    e.trim.references = e.references := by
  have hprops := flatMap_props_trim fun entry hentry hcovers =>
    (h.silent_of_covers hb entry hentry hcovers).2
  rw [references, references, hprops]
  rfl

end Element

/-! ### Normal trees -/

namespace NormalTree

/-- The tree without the literals of bound properties. -/
def trim (t : NormalTree) : NormalTree :=
  { t with root := t.root.map Element.trim }

/-- The elements of the tree are checked, and they bind what can be bound. -/
def Sound (t : NormalTree) : Prop :=
  ∀ e ∈ t.elements, (∃ info, e.Checked info) ∧ e.Bindable Catalog.standard

theorem sound_of_normalize {root : ComponentTree} {limits : Limits} {t : NormalTree}
    (h : normalize root Catalog.standard limits = .ok t) : t.Sound := by
  intro e he
  obtain ⟨_, info, hinfo, -⟩ :=
    Tree.forall_preorder_of_each t.root (checked_of_normalize h) e he
  exact ⟨⟨info, hinfo⟩, bindable_of_normalize h e he⟩

/-- Trimming takes nothing away that is read off a tree. -/
theorem ofRoot_trim {root : Tree Element} (h : (ofRoot root).Sound) :
    ofRoot (root.map Element.trim) = (ofRoot root).trim := by
  have hreferences : (root.map Element.trim).preorder.flatMap Element.references =
      root.preorder.flatMap Element.references := by
    rw [Tree.preorder_map, List.flatMap_map]
    refine List.flatMap_congr fun e he => ?_
    obtain ⟨⟨info, hinfo⟩, hb⟩ := h e he
    exact hinfo.references_trim hb
  rw [ofRoot, Tree.size_map, containerDepth_map, hreferences]
  rfl

theorem elements_trim (t : NormalTree) : t.trim.elements = t.elements.map Element.trim :=
  Tree.preorder_map Element.trim t.root

theorem bindings_trim (t : NormalTree) :
    t.trim.bindings = t.bindings.map fun entry => (entry.1.trim, entry.2) := by
  rw [bindings, elements_trim, List.flatMap_map, bindings, List.map_flatMap]
  simp only [List.map_map]
  rfl

theorem actions_trim {t : NormalTree} (h : t.Sound) :
    t.trim.actions = t.actions.map fun entry => (entry.1.trim, entry.2) := by
  rw [actions, elements_trim, List.flatMap_map, actions, List.map_flatMap]
  refine List.flatMap_congr fun e he => ?_
  obtain ⟨⟨info, hinfo⟩, hb⟩ := h e he
  rw [hinfo.actions_trim hb, List.map_map]
  rfl

end NormalTree

end Screenwright
