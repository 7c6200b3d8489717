/-
What normalization establishes.

An element of a normalized tree has been checked by itself: its component is a standard
one that accepts its properties and its number of children, its bindings have paths of
identifiers, its actions and modifiers have passed their own checks.  `Element.Checked`
collects that, and `checked_of_normalize` says that it holds at every node of the tree,
where the number of children is the number that the node really has.
-/
import Screenwright.Check.Normalize
import Screenwright.Proofs.Typing

namespace Screenwright

open Steps

/-- What can be relied on of an element, whatever tree it stands in. -/
structure Element.Checked (e : Element) (info : ComponentMeta) : Prop where
  /-- The component is the one of the element's kind. -/
  kind : Catalog.metaOf? e.kind = some info
  /-- The component is the one of the element's type. -/
  type : Catalog.standard.find? e.type = some info
  props : info.Accepts e.props
  bindings : ∀ b ∈ e.bindings, ∀ name ∈ b.segments, Names.isIdentifier name = true
  actions : ∀ entry ∈ e.props, ∀ a ∈ entry.2.heldActions, a.check = .ok ()
  modifiers : ∀ m ∈ e.modifiers, e.kind.acceptsModifiers = true ∧ m.check = .ok ()

/-- In the catalog, the bindings of the element are of properties that can be bound. -/
def Element.Bindable (catalog : Catalog) (e : Element) : Prop :=
  ∃ info, catalog.find? e.type = some info ∧
    ∀ b ∈ e.bindings, ∃ schema, info.prop? b.property = some schema ∧ schema.bind ≠ .fixed

/-- An element that has been checked together with the number of its children. -/
def Element.IsChecked (e : Element) (width : Nat) : Prop :=
  ∃ info, e.Checked info ∧ info.children.accepts width = true

namespace Element.Checked

variable {e : Element} {info : ComponentMeta} {name : String} {value : PropValue}

/-- A property is of the kind that the standard component says. -/
theorem fits_of_prop? (h : e.Checked info) (hprop : e.prop? name = some value) (kind : PropKind)
    (hkind : Catalog.kindOf? e.kind name = some kind) : kind.fits value = true := by
  obtain ⟨schema, hschema, hfits⟩ := h.props.fits _ (Entries.mem_of_lookup hprop)
  rw [Catalog.kindOf?, h.kind, Option.bind_some, hschema, Option.map_some] at hkind
  rw [← Option.some.inj hkind]
  exact hfits

/-- A needed property is there. -/
theorem exists_prop?_of_needed (h : e.Checked info) (name : String)
    (hneeded : Catalog.needs e.kind name = true) : ∃ value, e.prop? name = some value := by
  simp only [Catalog.needs, h.kind, Option.any_some, List.any_eq_true, Bool.and_eq_true,
    decide_eq_true_eq] at hneeded
  obtain ⟨schema, hmem, rfl, hrequired⟩ := hneeded
  exact Entries.exists_lookup (h.props.needed schema hmem hrequired)

theorem children_eq (h : e.Checked info) {policy : ChildPolicy}
    (hpolicy : Catalog.childrenOf? e.kind = some policy) : info.children = policy := by
  rw [Catalog.childrenOf?, h.kind, Option.map_some] at hpolicy
  exact Option.some.inj hpolicy

theorem modifiers_eq_nil (h : e.Checked info) (haccepts : e.kind.acceptsModifiers = false) :
    e.modifiers = [] := by
  refine List.eq_nil_iff_forall_not_mem.mpr fun m hm => ?_
  have hyes := (h.modifiers m hm).1
  rw [haccepts] at hyes
  cases hyes

end Element.Checked

/-! ### One node -/

namespace Component

theorem segments_of_checkBinding {info : ComponentMeta} {type : String}
    {earlier : List DataBinding} {b : DataBinding}
    (h : checkBinding info type earlier b = .ok ()) :
    ∀ name ∈ b.segments, Names.isIdentifier name = true := by
  intro name hname
  by_contra hbad
  have hfound : (b.segments.find? fun s => !Names.isIdentifier s).isSome := by
    rw [List.find?_isSome]
    exact ⟨name, hname, by simpa using hbad⟩
  obtain ⟨bad, hfind⟩ := Option.isSome_iff_exists.mp hfound
  simp only [checkBinding, hfind] at h
  split at h
  · cases h
  · cases h

/-- Where bindings pass, each of them does after some others. -/
theorem exists_of_checkBindings {info : ComponentMeta} {type : String}
    {bindings : List DataBinding} :
    ∀ {earlier : List DataBinding}, checkBindings info type earlier bindings = .ok () →
      ∀ b ∈ bindings, ∃ before, checkBinding info type before b = .ok () := by
  induction bindings with
  | nil => simp
  | cons b rest ih =>
      intro earlier h
      simp only [checkBindings] at h
      split at h
      · cases h
      next hb =>
        rw [List.forall_mem_cons]
        exact ⟨⟨earlier, hb⟩, ih h⟩

theorem segments_of_checkBindings {info : ComponentMeta} {type : String}
    {bindings earlier : List DataBinding} (h : checkBindings info type earlier bindings = .ok ()) :
    ∀ b ∈ bindings, ∀ name ∈ b.segments, Names.isIdentifier name = true := by
  intro b hmem
  obtain ⟨before, hb⟩ := exists_of_checkBindings h b hmem
  exact segments_of_checkBinding hb

/-- Bindings that pass are of properties that the component lets be bound. -/
theorem bindable_of_checkBindings {info : ComponentMeta} {type : String}
    {bindings earlier : List DataBinding} (h : checkBindings info type earlier bindings = .ok ()) :
    ∀ b ∈ bindings, ∃ schema, info.prop? b.property = some schema ∧ schema.bind ≠ .fixed := by
  intro b hmem
  obtain ⟨before, hb⟩ := exists_of_checkBindings h b hmem
  cases hschema : info.prop? b.property with
  | none =>
      simp only [checkBinding, hschema] at hb
      repeat' split at hb
      all_goals cases hb
  | some schema =>
      refine ⟨schema, rfl, fun hfixed => ?_⟩
      simp only [checkBinding, hschema, if_pos hfixed] at hb
      repeat' split at hb
      all_goals cases hb

/-- In any catalog, a node that passes binds properties that its component lets be bound. -/
theorem bindable_of_checkAlone {catalog : Catalog} {v : Visit Component} {e : Element}
    (h : checkAlone catalog v = .ok e) : e.Bindable catalog := by
  obtain ⟨schema, hschema, h⟩ := bind_eq_ok.mp h
  obtain ⟨props, -, h⟩ := bind_eq_ok.mp h
  split at h
  · obtain ⟨_, hbindings, h⟩ := bind_eq_ok.mp h
    obtain ⟨_, -, h⟩ := bind_eq_ok.mp h
    obtain ⟨_, -, h⟩ := bind_eq_ok.mp h
    cases h
    refine ⟨schema.info, ?_, bindable_of_checkBindings hbindings⟩
    have hlookup := mapError_eq_ok.mp hschema
    unfold Catalog.schema at hlookup
    rw [Catalog.find?]
    split at hlookup
    next found hfound =>
      cases hlookup
      rw [hfound, Option.map_some]
    · cases hlookup
  · cases h

theorem check_of_checkActions {type : String} {props : Props}
    (h : checkActions type props = .ok ()) :
    ∀ entry ∈ props, ∀ a ∈ entry.2.heldActions, a.check = .ok () := by
  intro entry hentry a ha
  have hall := forM_eq_ok.mp h entry hentry
  have hone := forM_eq_ok.mp hall a ha
  split at hone
  next hcheck => exact hcheck
  · cases hone

theorem check_of_checkModifiers {type : String} {kind : ComponentKind}
    {modifiers : List Modifier} (h : checkModifiers type kind modifiers = .ok ()) :
    ∀ m ∈ modifiers, kind.acceptsModifiers = true ∧ m.check = .ok () := by
  intro m hm
  have hone := forM_eq_ok.mp h m hm
  split at hone
  · cases hone
  next haccepts =>
    split at hone
    next hcheck => exact ⟨by simpa using haccepts, hcheck⟩
    · cases hone

theorem mem_of_schema {type : String} {schema : ComponentSchema}
    (h : Catalog.standard.schema type = .ok schema) :
    schema ∈ Catalog.standardSchemas ∧ Catalog.standard.find? type = some schema.info := by
  simp only [Catalog.schema] at h
  split at h
  next found hlookup =>
    cases h
    refine ⟨?_, by rw [Catalog.find?, hlookup, Option.map_some]⟩
    obtain ⟨s, hs, heq⟩ := List.mem_map.mp (Entries.mem_of_lookup hlookup)
    cases heq
    exact hs
  · cases h

/-- A node that passes by itself becomes an element that can be relied on. -/
theorem isChecked_of_checkAlone {v : Visit Component} {e : Element}
    (h : checkAlone Catalog.standard v = .ok e) : e.IsChecked v.width := by
  obtain ⟨schema, hschema, h⟩ := bind_eq_ok.mp h
  obtain ⟨hmem, htype⟩ := mem_of_schema (mapError_eq_ok.mp hschema)
  obtain ⟨props, hprops, h⟩ := bind_eq_ok.mp h
  have haccepts := ComponentMeta.accepts_of_validate (Catalog.regular_standard schema hmem)
    (Catalog.info_validate_of_standard hmem (mapError_eq_ok.mp hprops))
  split at h
  next hwidth =>
    obtain ⟨_, hbindings, h⟩ := bind_eq_ok.mp h
    obtain ⟨_, hactions, h⟩ := bind_eq_ok.mp h
    obtain ⟨_, hmodifiers, h⟩ := bind_eq_ok.mp h
    cases h
    exact ⟨schema.info, ⟨Catalog.metaOf?_kind hmem, htype, haccepts,
      segments_of_checkBindings hbindings, check_of_checkActions hactions,
      check_of_checkModifiers hmodifiers⟩, hwidth⟩
  · cases h

/-- A node that passes by itself passes if no earlier node has its identifier. -/
theorem run_check {catalog : Catalog} {v : Visit Component} {seen : Seen} {e : Element}
    (h : checkAlone catalog v = .ok e) :
    (check catalog v).run seen =
      match seen.lookup v.value.id with
      | some first => .error ⟨path v, .duplicateId first⟩
      | none => .ok (e, (v.value.id, path v) :: seen) := by
  unfold check
  rw [h]
  dsimp only
  rw [StateT.run_bind, StateT.run_get, pure_bind]
  dsimp only
  cases seen.lookup v.value.id with
  | some first => rfl
  | none => rfl

/-- A node that fails by itself fails, whatever has been met before. -/
theorem run_check_of_error {catalog : Catalog} {v : Visit Component} {seen : Seen}
    {fault : NodeFault} (h : checkAlone catalog v = .error fault) :
    (check catalog v).run seen = .error ⟨path v, fault⟩ := by
  unfold check
  rw [h]
  rfl

theorem checkAlone_of_check {catalog : Catalog} {v : Visit Component} {seen seen' : Seen}
    {e : Element} (h : (check catalog v).run seen = .ok (e, seen')) :
    checkAlone catalog v = .ok e := by
  cases halone : checkAlone catalog v with
  | error fault =>
      rw [run_check_of_error halone] at h
      cases h
  | ok element =>
      rw [run_check halone] at h
      split at h
      · cases h
      · cases h
        rfl

end Component

/-! ### The whole tree -/

namespace Tree

variable {α β : Type}

mutual

/-- `p` holds at every node, of its value and the number of its children. -/
def Each (p : α → Nat → Prop) : Tree α → Prop
  | node a ts => p a ts.length ∧ EachAll p ts

/-- `Each` for several trees. -/
def EachAll (p : α → Nat → Prop) : List (Tree α) → Prop
  | [] => True
  | t :: ts => Each p t ∧ EachAll p ts

end

section Traverse

variable {ε σ : Type} {f : Visit α → StateT σ (Except ε) β} {p : β → Nat → Prop}
  {above : List α} {s s' : σ}

/-- A traversal visits a node and then goes through the trees below it. -/
theorem exists_of_traverseBelow {a : α} {ts : List (Tree α)} {u : Tree β}
    (h : (traverseBelow f above (node a ts)).run s = .ok (u, s')) :
    ∃ b s₁ us, (f ⟨above, a, ts.length⟩).run s = .ok (b, s₁) ∧
      (traverseAll f (above ++ [a]) ts).run s₁ = .ok (us, s') ∧ u = node b us := by
  rw [traverseBelow, StateT.run_bind] at h
  obtain ⟨⟨b, s₁⟩, hb, h⟩ := bind_eq_ok.mp h
  rw [StateT.run_bind] at h
  obtain ⟨⟨us, s₂⟩, hus, h⟩ := bind_eq_ok.mp h
  cases h
  exact ⟨b, s₁, us, hb, hus, rfl⟩

/-- A traversal of several trees goes through the first one and then through the others. -/
theorem exists_of_traverseAll {t : Tree α} {ts : List (Tree α)} {us : List (Tree β)}
    (h : (traverseAll f above (t :: ts)).run s = .ok (us, s')) :
    ∃ u s₁ rest, (traverseBelow f above t).run s = .ok (u, s₁) ∧
      (traverseAll f above ts).run s₁ = .ok (rest, s') ∧ us = u :: rest := by
  rw [traverseAll, StateT.run_bind] at h
  obtain ⟨⟨u, s₁⟩, hu, h⟩ := bind_eq_ok.mp h
  rw [StateT.run_bind] at h
  obtain ⟨⟨rest, s₂⟩, hrest, h⟩ := bind_eq_ok.mp h
  cases h
  exact ⟨u, s₁, rest, hu, hrest, rfl⟩

mutual

/-- What a visit gives at each node holds at each node of the resulting tree. -/
theorem each_of_traverseBelow (hf : ∀ v s b s', (f v).run s = .ok (b, s') → p b v.width)
    (above : List α) :
    ∀ (t : Tree α) (s : σ) (u : Tree β) (s' : σ),
      (traverseBelow f above t).run s = .ok (u, s') → u.Each p
  | node a ts, s, u, s', h => by
    obtain ⟨b, s₁, us, hb, hus, rfl⟩ := exists_of_traverseBelow h
    obtain ⟨hlength, hall⟩ := each_of_traverseAll hf (above ++ [a]) ts s₁ us s' hus
    refine ⟨?_, hall⟩
    rw [hlength]
    exact hf _ s b s₁ hb

/-- `each_of_traverseBelow` for several trees, of which there are as many afterwards. -/
theorem each_of_traverseAll (hf : ∀ v s b s', (f v).run s = .ok (b, s') → p b v.width)
    (above : List α) :
    ∀ (ts : List (Tree α)) (s : σ) (us : List (Tree β)) (s' : σ),
      (traverseAll f above ts).run s = .ok (us, s') → us.length = ts.length ∧ EachAll p us
  | [], s, us, s', h => by
    cases h
    exact ⟨rfl, trivial⟩
  | t :: ts, s, us, s', h => by
    obtain ⟨u, s₁, us₁, hu, hus, rfl⟩ := exists_of_traverseAll h
    obtain ⟨hlength, hall⟩ := each_of_traverseAll hf above ts s₁ us₁ s' hus
    exact ⟨by simp [hlength], each_of_traverseBelow hf above t s u s₁ hu, hall⟩

end

end Traverse

mutual

theorem forall_preorder_of_each {p : α → Nat → Prop} :
    ∀ t : Tree α, t.Each p → ∀ a ∈ t.preorder, ∃ n, p a n
  | node a ts, h => by
    intro b hb
    rcases List.mem_cons.mp hb with rfl | hb
    · exact ⟨_, h.1⟩
    · exact forall_preorderAll_of_each ts h.2 b hb

theorem forall_preorderAll_of_each {p : α → Nat → Prop} :
    ∀ ts : List (Tree α), EachAll p ts → ∀ a ∈ preorderAll ts, ∃ n, p a n
  | [], _ => by simp [preorderAll]
  | t :: ts, h => by
    intro b hb
    rcases List.mem_append.mp hb with hb | hb
    · exact forall_preorder_of_each t h.1 b hb
    · exact forall_preorderAll_of_each ts h.2 b hb

end

end Tree

/-- A tree whose every element can be relied on. -/
def Tree.Checked (t : Tree Element) : Prop :=
  t.Each Element.IsChecked

theorem root_of_normalize {root : ComponentTree} {catalog : Catalog} {limits : Limits}
    {tree : NormalTree} (h : normalize root catalog limits = .ok tree) :
    ∃ seen, (root.traverse (Component.check catalog)).run [] = .ok (tree.root, seen) ∧
      tree = .ofRoot tree.root := by
  obtain ⟨_, _, h⟩ := bind_eq_ok.mp h
  obtain ⟨⟨elements, seen⟩, hrun, h⟩ := bind_eq_ok.mp h
  cases h
  exact ⟨seen, hrun, rfl⟩

/-- The elements of a normalized tree are what the checks of the nodes gave, in pre-order. -/
theorem mapM_check_of_normalize {root : ComponentTree} {catalog : Catalog} {limits : Limits}
    {tree : NormalTree} (h : normalize root catalog limits = .ok tree) :
    ∃ seen, (root.visits.mapM (Component.check catalog)).run [] =
      .ok (tree.root.preorder, seen) := by
  obtain ⟨seen, hrun, -⟩ := root_of_normalize h
  refine ⟨seen, ?_⟩
  rw [Tree.visits, ← Tree.preorder_traverseBelow, StateT.run_map]
  exact congrArg (Functor.map _) hrun

/-- **Every element of a normalized tree can be relied on.** -/
theorem checked_of_normalize {root : ComponentTree} {limits : Limits} {tree : NormalTree}
    (h : normalize root Catalog.standard limits = .ok tree) : tree.root.Checked := by
  obtain ⟨seen, hrun, -⟩ := root_of_normalize h
  refine Tree.each_of_traverseBelow ?_ [] root [] tree.root seen hrun
  intro v s e s' he
  exact Component.isChecked_of_checkAlone (Component.checkAlone_of_check he)

/-- **Every binding of a normalized tree is of a property that can be bound.** -/
theorem bindable_of_normalize {root : ComponentTree} {catalog : Catalog} {limits : Limits}
    {tree : NormalTree} (h : normalize root catalog limits = .ok tree) :
    ∀ e ∈ tree.elements, e.Bindable catalog := by
  obtain ⟨seen, hrun, -⟩ := root_of_normalize h
  have hall : tree.root.Each fun e _ => e.Bindable catalog := by
    refine Tree.each_of_traverseBelow ?_ [] root [] tree.root seen hrun
    intro v s e s' he
    exact Component.bindable_of_checkAlone (Component.checkAlone_of_check he)
  intro e he
  exact (Tree.forall_preorder_of_each tree.root hall e he).elim fun _ hbindable => hbindable

theorem references_of_normalize {root : ComponentTree} {catalog : Catalog} {limits : Limits}
    {tree : NormalTree} (h : normalize root catalog limits = .ok tree) :
    tree.references = tree.elements.flatMap Element.references := by
  obtain ⟨_, -, htree⟩ := root_of_normalize h
  rw [htree]
  rfl

end Screenwright
