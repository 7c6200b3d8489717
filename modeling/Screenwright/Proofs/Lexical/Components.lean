/-
Lowered trees can stand in code.

A component writes the words of its properties into the code, and everything else that it
takes from them into literals.  The words are those of the catalog, because the properties
have been checked; the rest follows the definitions, one component after the other, and
then the tree.
-/
import Screenwright.Lowering.Components
import Screenwright.Proofs.Lexical.Modifiers
import Screenwright.Proofs.Lowering.Components

namespace Screenwright

open Steps Swift

/-! ### Words -/

namespace Catalog

/-- Whether a property of a standard component is one of a fixed list of words, if the
component has the property at all. -/
def isChoice (kind : ComponentKind) (name : String) : Bool :=
  match kindOf? kind name with
  | some (.choice _) | none => true
  | _ => false

theorem plain_choices : ∀ schema ∈ standardSchemas, ∀ p ∈ schema.info.props, ∀ words,
    p.kind = .choice words → words.all (fun word => word.toList.all isPlain) = true := by
  have hall : standardSchemas.all (fun schema => schema.info.props.all fun p =>
      match p.kind with
      | .choice words => words.all fun word => word.toList.all isPlain
      | _ => true) = true := by decide +kernel
  intro schema hschema p hp words hwords
  have hone := List.all_eq_true.mp (List.all_eq_true.mp hall schema hschema) p hp
  rw [hwords] at hone
  exact hone

end Catalog

namespace Element.Checked

variable {e : Element} {info : ComponentMeta} {name : String}

/-- A property that is one of a fixed list of words is plain. -/
theorem plain_of_text? (h : e.Checked info) (hchoice : Catalog.isChoice e.kind name = true)
    {word : String} (hword : e.text? name = some word) : Plain word := by
  obtain ⟨value, hvalue, htext⟩ := Option.bind_eq_some_iff.mp hword
  obtain ⟨p, hp, hfits⟩ := h.props.fits _ (Entries.mem_of_lookup hvalue)
  obtain ⟨schema, hschema, rfl, -⟩ := Catalog.mem_of_metaOf? h.kind
  have hkind : Catalog.kindOf? e.kind name = some p.kind := by
    rw [Catalog.kindOf?, h.kind, Option.bind_some, hp, Option.map_some]
  rw [Catalog.isChoice, hkind] at hchoice
  cases hwords : p.kind with
  | choice words =>
      rw [hwords] at hfits
      have hp := List.mem_of_find?_eq_some hp
      have hall := Catalog.plain_choices schema hschema p hp words hwords
      cases value with
      | choice found =>
          cases htext
          exact plain_of_mem hall (by simpa [PropKind.fits] using hfits)
      | _ => cases hfits
  | _ =>
      rw [hwords] at hchoice
      cases hchoice

theorem plain_of_wordExcept? (h : e.Checked info) (hchoice : Catalog.isChoice e.kind name = true)
    {usual word : String} (hword : e.wordExcept? name usual = some word) : Plain word :=
  h.plain_of_text? hchoice (Option.filter_eq_some_iff.mp hword).1

end Element.Checked

/-! ### Parts of components -/

theorem tame_literal? {value : PropValue} {v : Value} (h : value.literal? = some v) : v.Tame := by
  cases value with
  | string s => cases h; exact Value.tame_string s
  | number x => cases h; exact Value.tame_number x
  | integer n => cases h; exact Value.tame_int n
  | bool b => cases h; exact Value.tame_bool b
  | strings items =>
      cases h
      refine Value.tame_array fun v hv => ?_
      obtain ⟨s, -, rfl⟩ := List.mem_map.mp hv
      exact Value.tame_string s
  | _ => cases h

section Optional

variable {α : Type} {toValue : α → Value} {value : Option α}

theorem tame_optionalArg {label : String} (hlabel : Plain label)
    (h : ∀ a, value = some a → (toValue a).Tame) :
    ∀ arg ∈ optionalArg label toValue value, TameArg arg := by
  intro arg harg
  obtain ⟨a, ha, rfl⟩ := Option.map_eq_some_iff.mp (Option.mem_toList.mp harg)
  exact tame_labeled hlabel (h a ha)

theorem tame_optionalModifier {name : String} (hname : Plain name)
    (h : ∀ a, value = some a → (toValue a).Tame) :
    ∀ m ∈ optionalModifier name toValue value, m.Tame := by
  intro m hm
  obtain ⟨a, ha, rfl⟩ := Option.map_eq_some_iff.mp (Option.mem_toList.mp hm)
  exact ViewModifier.tame_single hname (h a ha)

end Optional

theorem tame_singleView {views : List View} (h : ∀ view ∈ views, view.Tame) :
    (singleView views).Tame := by
  unfold singleView
  split
  · exact View.tame_leaf (plain_of_all rfl) (by simp)
  · exact h _ List.mem_cons_self
  · exact View.tame_ofContent (by simp) h

theorem tame_tabLabel (item : TabItem) : (tabLabel item).Tame := by
  refine View.tame_leaf (plain_of_all rfl) ?_
  rw [List.forall_mem_cons, List.forall_mem_singleton]
  exact ⟨tame_bare (Value.tame_string _), tame_labeled (plain_of_all rfl) (Value.tame_string _)⟩

namespace Setting

variable {s : Setting} {e : Element} {name : String}

theorem tame_text? (hs : s.Tame) {v : Value} (h : s.text? e name = some v) : v.Tame := by
  unfold text? at h
  split at h
  next bound hbound =>
    cases h
    exact Value.tame_interpolation (hs.bound _ _ bound hbound)
  · obtain ⟨text, -, rfl⟩ := Option.map_eq_some_iff.mp h
    exact Value.tame_string text

theorem tame_text (hs : s.Tame) : (s.text e name).Tame := by
  unfold text
  cases h : s.text? e name with
  | none => exact Value.tame_string ""
  | some v => exact tame_text? hs h

theorem tame_read? (hs : s.Tame) {v : Value} (h : s.read? e name = some v) : v.Tame := by
  unfold read? at h
  split at h
  next bound hbound =>
    cases h
    exact Value.tame_ident (hs.bound _ _ bound hbound)
  · obtain ⟨value, -, hv⟩ := Option.bind_eq_some_iff.mp h
    exact tame_literal? hv

theorem tame_write (hs : s.Tame) : (s.write e name).Tame := by
  unfold write
  split
  next bound hbound =>
    have hpath := hs.bound _ _ bound hbound
    unfold Bound.write
    split
    · exact Value.tame_binding hpath
    · exact Value.tame_constant (Value.tame_ident hpath)
  · refine Value.tame_constant ?_
    cases h : (e.prop? name).bind PropValue.literal? with
    | none => exact Value.tame_bool false
    | some v =>
        obtain ⟨value, -, hv⟩ := Option.bind_eq_some_iff.mp h
        exact tame_literal? hv

theorem color?_gives : Gives (s.color? e name) fun found => ∀ v, found = some v → v.Tame :=
  tokenProp_gives fun ref => s.color_gives ref

theorem font?_gives : Gives (s.font? e name) fun found => ∀ v, found = some v → v.Tame :=
  tokenProp_gives fun ref => s.font_gives ref

theorem shadow?_gives : Gives (s.shadow? e name) fun found => ∀ m, found = some m → m.Tame :=
  tokenProp_gives fun ref => s.shadow_gives ref

/-- Views that can stand in code. -/
def TameViews (views : List View) : Prop :=
  ∀ view ∈ views, view.Tame

/-! ### Layout -/

section Kinds

variable {info : ComponentMeta} {content : Build (List View)}

theorem stack_yields {kind : ContainerKind} (h : e.Checked info)
    (hchoice : Catalog.isChoice e.kind "alignment" = true)
    (hcontent : Yields content TameViews) : Yields (s.stack e kind content) View.Tame := by
  refine Keeps.step fun spacing => hcontent.bind fun views hviews => .ret ?_
  refine View.tame_ofContent (List.forall_mem_append.mpr ⟨?_, ?_⟩) hviews
  · exact tame_optionalArg (plain_of_all rfl) fun word hword =>
      Value.tame_member (h.plain_of_wordExcept? hchoice hword)
  · exact tame_optionalArg (plain_of_all rfl) fun x _ => Value.tame_number x

theorem layers_yields (h : e.Checked info)
    (hchoice : Catalog.isChoice e.kind "alignment" = true)
    (hcontent : Yields content TameViews) : Yields (layers e content) View.Tame := by
  refine hcontent.bind fun views hviews => .ret (View.tame_ofContent ?_ hviews)
  exact tame_optionalArg (plain_of_all rfl) fun word hword =>
    Value.tame_member (h.plain_of_wordExcept? hchoice hword)

theorem scroll_yields (hcontent : Yields content TameViews) :
    Yields (scroll e content) View.Tame := by
  refine hcontent.bind fun views hviews => .ret ?_
  refine View.tame_ofContent (List.forall_mem_append.mpr ⟨?_, ?_⟩) ?_
  · split
    · exact List.forall_mem_singleton.mpr (tame_bare (Value.tame_member (plain_of_all rfl)))
    · simp
  · split
    · exact List.forall_mem_singleton.mpr
        (tame_labeled (plain_of_all rfl) (Value.tame_bool false))
    · simp
  · split
    · exact List.forall_mem_singleton.mpr (View.tame_ofContent (by simp) hviews)
    · exact hviews

theorem grid_yields (hcontent : Yields content TameViews) :
    Yields (s.grid e content) View.Tame := by
  refine Keeps.step fun spacing => hcontent.bind fun views hviews => .ret ?_
  have hspacing : TameArg (labeled "spacing" (.number (spacing.getD 0.0))) :=
    tame_labeled (plain_of_all rfl) (Value.tame_number _)
  have hitem : (Value.call "GridItem"
      [bare (.call ".flexible" []), labeled "spacing" (.number (spacing.getD 0.0))]).Tame := by
    refine Value.tame_call (plain_of_all rfl) ?_
    rw [List.forall_mem_cons, List.forall_mem_singleton]
    exact ⟨tame_bare (Value.tame_call (plain_of_all rfl) (by simp)), hspacing⟩
  refine View.tame_ofContent ?_ hviews
  rw [List.forall_mem_cons, List.forall_mem_singleton]
  refine ⟨tame_labeled (plain_of_all rfl) (Value.tame_call (plain_of_all rfl) ?_), hspacing⟩
  rw [List.forall_mem_cons, List.forall_mem_singleton]
  exact ⟨tame_labeled (plain_of_all rfl) hitem,
    tame_labeled (plain_of_all rfl) (Value.tame_int _)⟩

theorem list_yields (h : e.Checked info) (hchoice : Catalog.isChoice e.kind "style" = true)
    (hcontent : Yields content TameViews) : Yields (list e content) View.Tame := by
  refine hcontent.bind fun views hviews => .ret ?_
  refine View.tame_modify (View.tame_ofContent (by simp) hviews) ?_
  exact tame_optionalModifier (plain_of_all rfl) fun word hword =>
    Value.tame_member (h.plain_of_wordExcept? hchoice hword)

theorem section_yields (hcontent : Yields content TameViews) :
    Yields («section» e content) View.Tame := by
  refine hcontent.bind fun views hviews => .ret ?_
  have htitled : ∀ {label : String} (name : Option String), Plain label →
      ∀ closure ∈ (name.map fun title =>
        Closure.named label [View.text (.string title)]).toList, closure.Tame := by
    intro label name hlabel closure hclosure
    obtain ⟨title, -, rfl⟩ := Option.map_eq_some_iff.mp (Option.mem_toList.mp hclosure)
    exact Closure.tame_named hlabel
      (List.forall_mem_singleton.mpr (View.tame_text (Value.tame_string title)))
  refine View.tame_container (by simp) hviews (List.forall_mem_append.mpr ⟨?_, ?_⟩)
  · exact htitled _ (plain_of_all rfl)
  · exact htitled _ (plain_of_all rfl)

theorem spacer_yields : Yields (s.spacer e) View.Tame := by
  refine Keeps.step fun length => .ret (View.tame_leaf (plain_of_all rfl) ?_)
  exact tame_optionalArg (plain_of_all rfl) fun x _ => Value.tame_number x

theorem conditional_yields (hs : s.Tame) (hcontent : Yields content TameViews) :
    Yields (s.conditional e content) View.Tame := by
  refine hcontent.bind fun views hviews => .ret ?_
  have hcondition : ((s.read? e "condition").getD (.bool false)).Tame := by
    cases hread : s.read? e "condition" with
    | none => exact Value.tame_bool false
    | some v => exact tame_read? hs hread
  exact View.tame_conditional hcondition
    (fun view hview => hviews view (List.mem_of_mem_take hview))
    (fun view hview => hviews view (List.mem_of_mem_drop hview))

/-! ### Navigation -/

theorem navigationStack_yields (hs : s.Tame) (h : e.Checked info)
    (hchoice : Catalog.isChoice e.kind "titleDisplayMode" = true)
    (hcontent : Yields content TameViews) : Yields (s.navigationStack e content) View.Tame := by
  refine hcontent.bind fun views hviews => ?_
  have htitles : ∀ m ∈ optionalModifier "navigationTitle" id (s.text? e "title") ++
      optionalModifier "navigationBarTitleDisplayMode" .member
        (e.wordExcept? "titleDisplayMode" "automatic"), m.Tame := by
    rw [List.forall_mem_append]
    constructor
    · exact tame_optionalModifier (plain_of_all rfl) fun v hv => tame_text? hs hv
    · exact tame_optionalModifier (plain_of_all rfl) fun word hword =>
        Value.tame_member (h.plain_of_wordExcept? hchoice hword)
  dsimp only
  split
  · exact .ret (View.tame_ofContent (by simp) hviews)
  · refine .ret (View.tame_ofContent (by simp) (List.forall_mem_singleton.mpr ?_))
    refine View.tame_modify ?_ htitles
    split
    · exact hviews _ List.mem_cons_self
    · exact View.tame_ofContent (by simp) hviews

theorem navigationLink_yields (hs : s.Tame) (hcontent : Yields content TameViews) :
    Yields (s.navigationLink e content) View.Tame := by
  refine (Keeps.lift (target_gives hs _)).bind fun names hnames => ?_
  refine (addEdge_yields _ .push).bind fun _ _ => hcontent.bind fun views hviews => ?_
  have hvalue : TameArg (labeled "value" (.ident ("Route." ++ names.routeCase))) :=
    tame_labeled (plain_of_all rfl)
      (Value.tame_ident (Plain.append (plain_of_all rfl) hnames.routeCase))
  have htitle : ((s.text? e "title").getD (.string names.title)).Tame := by
    cases htext : s.text? e "title" with
    | none => exact Value.tame_string _
    | some v => exact tame_text? hs htext
  dsimp only
  split
  · refine .ret (View.tame_leaf (plain_of_all rfl) ?_)
    rw [List.forall_mem_cons, List.forall_mem_singleton]
    exact ⟨tame_bare htitle, hvalue⟩
  · exact .ret (View.tame_ofContent (List.forall_mem_singleton.mpr hvalue) hviews)

theorem tab_yields (hs : s.Tame) (node : String) (item : TabItem) :
    Yields (s.tab node item) View.Tame := by
  refine (Keeps.lift (target_gives hs _)).bind fun names hnames => ?_
  refine (addEdge_yields _ .tab).bind fun _ _ => .ret ?_
  refine View.tame_modify (View.tame_leaf hnames.viewType (by simp)) ?_
  refine List.forall_mem_singleton.mpr (ViewModifier.tame_mk (plain_of_all rfl) (by simp) ?_)
  exact List.forall_mem_singleton.mpr
    (Closure.tame_first (List.forall_mem_singleton.mpr (tame_tabLabel item)))

theorem tabView_yields (hs : s.Tame) : Yields (s.tabView e) View.Tame := by
  refine (Keeps.mapM fun item _ => tab_yields hs e.id item).bind fun views hviews => .ret ?_
  exact View.tame_ofContent (by simp) hviews

/-- The arguments of a title with an icon. -/
theorem tame_titled (hs : s.Tame) :
    ∀ arg ∈ bare (s.text e "title") ::
      optionalArg "systemImage" .string (e.text? "systemImage"), TameArg arg := by
  rw [List.forall_mem_cons]
  exact ⟨tame_bare (tame_text hs),
    tame_optionalArg (plain_of_all rfl) fun icon _ => Value.tame_string icon⟩

theorem menu_yields (hs : s.Tame) (hcontent : Yields content TameViews) :
    Yields (s.menu e content) View.Tame :=
  hcontent.bind fun _ hviews => .ret (View.tame_ofContent (tame_titled hs) hviews)

/-! ### Primitives -/

theorem textView_yields (hs : s.Tame) (h : e.Checked info)
    (hchoice : Catalog.isChoice e.kind "alignment" = true) :
    Yields (s.textView e) View.Tame := by
  refine (Keeps.lift font?_gives).bind fun font hfont => ?_
  refine (Keeps.lift color?_gives).bind fun color hcolor => .ret ?_
  refine View.tame_modify (View.tame_text (tame_text hs)) ?_
  rw [List.forall_mem_append, List.forall_mem_append, List.forall_mem_append]
  refine ⟨⟨⟨?_, ?_⟩, ?_⟩, ?_⟩
  · exact tame_optionalModifier (plain_of_all rfl) hfont
  · exact tame_optionalModifier (plain_of_all rfl) hcolor
  · exact tame_optionalModifier (plain_of_all rfl) fun word hword =>
      Value.tame_member (h.plain_of_text? hchoice hword)
  · exact tame_optionalModifier (plain_of_all rfl) fun n _ => Value.tame_int n

theorem tame_label (hs : s.Tame) : (s.label e).Tame := by
  refine View.tame_leaf (plain_of_all rfl) ?_
  rw [List.forall_mem_cons, List.forall_mem_singleton]
  exact ⟨tame_bare (tame_text hs), tame_labeled (plain_of_all rfl) (Value.tame_string _)⟩

theorem image_yields (h : e.Checked info)
    (hchoice : Catalog.isChoice e.kind "contentMode" = true) :
    Yields (s.image e) View.Tame := by
  refine (Keeps.lift color?_gives).bind fun color hcolor => .ret ?_
  refine View.tame_modify (View.tame_leaf (plain_of_all rfl) ?_) ?_
  · rw [List.forall_mem_singleton]
    split
    · exact tame_bare (Value.tame_string _)
    · exact tame_labeled (plain_of_all rfl) (Value.tame_string _)
  rw [List.forall_mem_append, List.forall_mem_append]
  refine ⟨⟨?_, fun m hm => ?_⟩, tame_optionalModifier (plain_of_all rfl) hcolor⟩
  · split
    · exact List.forall_mem_singleton.mpr (ViewModifier.tame_plain (plain_of_all rfl) (by simp))
    · simp
  · obtain ⟨mode, hmode, rfl⟩ := Option.map_eq_some_iff.mp (Option.mem_toList.mp hm)
    refine ViewModifier.tame_plain (plain_of_all rfl) (List.forall_mem_singleton.mpr ?_)
    exact tame_labeled (plain_of_all rfl) (Value.tame_member (h.plain_of_text? hchoice hmode))

theorem button_yields (hs : s.Tame) (h : e.Checked info)
    (hrole : Catalog.isChoice e.kind "role" = true)
    (hstyle : Catalog.isChoice e.kind "style" = true)
    (hcontent : Yields content TameViews) : Yields (s.button e content) View.Tame := by
  unfold button
  split
  on_goal 1 => refine (action_yields hs _).bind ?_
  on_goal 2 => refine (Keeps.ret (p := TameStatements) (by simp [TameStatements])).bind ?_
  -- Behind the action both cases go on in the same way.
  all_goals
    intro body hbody
    refine hcontent.bind fun views hviews => ?_
    refine (Keeps.lift color?_gives).bind fun tint htint => .ret ?_
    have htrigger : ∀ arg ∈ optionalArg "role" .member (e.wordExcept? "role" "none") ++
        [labeled "action" (.action body)], TameArg arg := by
      rw [List.forall_mem_append, List.forall_mem_singleton]
      exact ⟨tame_optionalArg (plain_of_all rfl) fun word hword =>
        Value.tame_member (h.plain_of_wordExcept? hrole hword),
        tame_labeled (plain_of_all rfl) (Value.tame_action hbody)⟩
    refine View.tame_modify ?_ (List.forall_mem_append.mpr ⟨?_, ?_⟩)
    · split
      · exact View.tame_leaf (plain_of_all rfl)
          (List.forall_mem_append.mpr ⟨tame_titled hs, htrigger⟩)
      · exact View.tame_ofContent htrigger hviews
    · exact tame_optionalModifier (plain_of_all rfl) fun word hword =>
        Value.tame_member (h.plain_of_wordExcept? hstyle hword)
    · exact tame_optionalModifier (plain_of_all rfl) htint

/-! ### Input -/

theorem tame_toggle (hs : s.Tame) : (s.toggle e).Tame := by
  refine View.tame_leaf (plain_of_all rfl) ?_
  rw [List.forall_mem_cons, List.forall_mem_singleton]
  exact ⟨tame_bare (tame_text hs), tame_labeled (plain_of_all rfl) (tame_write hs)⟩

theorem tame_picker (hs : s.Tame) (h : e.Checked info)
    (hchoice : Catalog.isChoice e.kind "style" = true) : (s.picker e).Tame := by
  refine View.tame_modify (View.tame_ofContent ?_ fun view hview => ?_) ?_
  · rw [List.forall_mem_cons, List.forall_mem_singleton]
    exact ⟨tame_bare (tame_text hs), tame_labeled (plain_of_all rfl) (tame_write hs)⟩
  · obtain ⟨option, -, rfl⟩ := List.mem_map.mp hview
    refine View.tame_modify (View.tame_text (Value.tame_string option)) ?_
    exact List.forall_mem_singleton.mpr
      (ViewModifier.tame_single (plain_of_all rfl) (Value.tame_string option))
  · exact tame_optionalModifier (plain_of_all rfl) fun word hword =>
      Value.tame_member (h.plain_of_wordExcept? hchoice hword)

theorem tame_slider (hs : s.Tame) : (s.slider e).Tame := by
  refine View.tame_leaf (plain_of_all rfl) (List.forall_mem_append.mpr ⟨?_, ?_⟩)
  · rw [List.forall_mem_cons, List.forall_mem_singleton]
    exact ⟨tame_labeled (plain_of_all rfl) (tame_write hs), tame_labeled (plain_of_all rfl)
      (Value.tame_range (Value.tame_number _) (Value.tame_number _))⟩
  · exact tame_optionalArg (plain_of_all rfl) fun x _ => Value.tame_number x

theorem tame_stepper (hs : s.Tame) : (s.stepper e).Tame := by
  refine View.tame_leaf (plain_of_all rfl) (List.forall_mem_append.mpr ⟨?_, ?_⟩)
  · rw [List.forall_mem_cons, List.forall_mem_cons, List.forall_mem_singleton]
    exact ⟨tame_bare (tame_text hs), tame_labeled (plain_of_all rfl) (tame_write hs),
      tame_labeled (plain_of_all rfl)
        (Value.tame_range (Value.tame_int _) (Value.tame_int _))⟩
  · split
    · simp
    · exact List.forall_mem_singleton.mpr (tame_labeled (plain_of_all rfl) (Value.tame_int _))

theorem tame_field {kind : LeafKind} (hs : s.Tame) (h : e.Checked info)
    (hchoice : Catalog.isChoice e.kind "keyboard" = true) (hname : Plain kind.name) :
    (s.field e kind).Tame := by
  refine View.tame_modify (View.tame_leaf hname ?_) ?_
  · rw [List.forall_mem_cons, List.forall_mem_singleton]
    exact ⟨tame_bare (tame_text hs), tame_labeled (plain_of_all rfl) (tame_write hs)⟩
  · exact tame_optionalModifier (plain_of_all rfl) fun word hword =>
      Value.tame_member (h.plain_of_wordExcept? hchoice hword)

/-! ### Display -/

theorem tame_progressView (hs : s.Tame) : (s.progressView e).Tame := by
  have hlabel : ∀ arg ∈ ((s.text? e "label").map bare).toList, TameArg arg := by
    intro arg harg
    obtain ⟨v, hv, rfl⟩ := Option.map_eq_some_iff.mp (Option.mem_toList.mp harg)
    exact tame_bare (tame_text? hs hv)
  refine View.tame_leaf (plain_of_all rfl) ?_
  split
  next value hvalue =>
    rw [List.forall_mem_append, List.forall_mem_cons, List.forall_mem_singleton]
    exact ⟨hlabel, tame_labeled (plain_of_all rfl) (tame_read? hs hvalue),
      tame_labeled (plain_of_all rfl) (Value.tame_number _)⟩
  · exact hlabel

theorem card_yields (hcontent : Yields content TameViews) :
    Yields (s.card e content) View.Tame := by
  refine Keeps.step fun padding => Keeps.step fun spacing => Keeps.step fun radius => ?_
  refine (Keeps.lift color?_gives).bind fun background hbackground => ?_
  refine (Keeps.lift shadow?_gives).bind fun shadow hshadow => ?_
  refine hcontent.bind fun views hviews => .ret ?_
  have hleading : TameArg (labeled "alignment" (.member "leading")) :=
    tame_labeled (plain_of_all rfl) (Value.tame_member (plain_of_all rfl))
  refine View.tame_modify (View.tame_ofContent ?_ hviews) ?_
  · rw [List.forall_mem_cons, List.forall_mem_singleton]
    exact ⟨hleading, tame_labeled (plain_of_all rfl) (Value.tame_number _)⟩
  rw [List.forall_mem_append, List.forall_mem_append, List.forall_mem_cons,
    List.forall_mem_singleton]
  refine ⟨⟨⟨?_, ViewModifier.tame_plain (plain_of_all rfl) ?_⟩, fun m hm => ?_⟩, fun m hm => ?_⟩
  · exact ViewModifier.tame_single (plain_of_all rfl) (Value.tame_number _)
  · rw [List.forall_mem_cons, List.forall_mem_singleton]
    exact ⟨tame_labeled (plain_of_all rfl) (Value.tame_member (plain_of_all rfl)), hleading⟩
  · obtain ⟨color, hcolor, rfl⟩ := Option.map_eq_some_iff.mp (Option.mem_toList.mp hm)
    refine ViewModifier.tame_plain (plain_of_all rfl) ?_
    rw [List.forall_mem_cons, List.forall_mem_singleton]
    exact ⟨tame_bare (hbackground color hcolor), tame_labeled (plain_of_all rfl) (tame_shape _)⟩
  · exact hshadow m (Option.mem_toList.mp hm)

theorem tame_emptyState (hs : s.Tame) : (s.emptyState e).Tame := by
  refine View.tame_leaf (plain_of_all rfl) ?_
  rw [List.forall_mem_append, List.forall_mem_cons, List.forall_mem_singleton]
  refine ⟨⟨tame_bare (tame_text hs), tame_labeled (plain_of_all rfl) (Value.tame_string _)⟩, ?_⟩
  exact tame_optionalArg (plain_of_all rfl) fun message hmessage =>
    Value.tame_call (plain_of_all rfl)
      (List.forall_mem_singleton.mpr (tame_bare (tame_text? hs hmessage)))

/-! ### All components -/

/-- **A checked component is lowered to a view that can stand in code, if its content is.** -/
theorem component_yields (hs : s.Tame) (h : e.Checked info)
    (hcontent : Yields content TameViews) : Yields (s.component e content) View.Tame := by
  have hempty : (View.leaf .emptyView []).Tame := View.tame_leaf (plain_of_all rfl) (by simp)
  unfold component
  cases hkind : e.kind with
  | vStack => exact stack_yields h (by rw [hkind]; rfl) hcontent
  | hStack => exact stack_yields h (by rw [hkind]; rfl) hcontent
  | zStack => exact layers_yields h (by rw [hkind]; rfl) hcontent
  | scrollView => exact scroll_yields hcontent
  | grid => exact grid_yields hcontent
  | list => exact list_yields h (by rw [hkind]; rfl) hcontent
  | «section» => exact section_yields hcontent
  | form =>
      exact hcontent.bind fun views hviews => .ret (View.tame_ofContent (by simp) hviews)
  | spacer => exact spacer_yields
  | divider => exact .ret (View.tame_leaf (plain_of_all rfl) (by simp))
  | conditional => exact conditional_yields hs hcontent
  | navigationStack => exact navigationStack_yields hs h (by rw [hkind]; rfl) hcontent
  | navigationLink => exact navigationLink_yields hs hcontent
  | tabView => exact tabView_yields hs
  | menu => exact menu_yields hs hcontent
  | text => exact textView_yields hs h (by rw [hkind]; rfl)
  | label => exact .ret (tame_label hs)
  | image => exact image_yields h (by rw [hkind]; rfl)
  | button => exact button_yields hs h (by rw [hkind]; rfl) (by rw [hkind]; rfl) hcontent
  | toggle => exact .ret (tame_toggle hs)
  | picker => exact .ret (tame_picker hs h (by rw [hkind]; rfl))
  | slider => exact .ret (tame_slider hs)
  | stepper => exact .ret (tame_stepper hs)
  | textField => exact .ret (tame_field hs h (by rw [hkind]; rfl) (plain_of_all rfl))
  | secureField => exact .ret (tame_field hs h (by rw [hkind]; rfl) (plain_of_all rfl))
  | progressView => exact .ret (tame_progressView hs)
  | card => exact card_yields hcontent
  | emptyState => exact .ret (tame_emptyState hs)
  | sheet => exact .ret hempty
  | fullScreenCover => exact .ret hempty
  | alert => exact .ret hempty
  | confirmationDialog => exact .ret hempty
  | toolbar => exact .ret hempty

/-! ### Presentations -/

/-- Modifiers that can stand in code. -/
def TameModifiers (modifiers : List ViewModifier) : Prop :=
  ∀ m ∈ modifiers, m.Tame

variable {nested : Build (List ViewModifier)}

theorem tame_detents : TameModifiers (detents e) := by
  have hsizes : ∀ names : List String, (∀ name ∈ names, Plain name) →
      TameModifiers [.single "presentationDetents" (.array (names.map .member))] := by
    intro names hnames
    refine List.forall_mem_singleton.mpr (ViewModifier.tame_single (plain_of_all rfl) ?_)
    refine Value.tame_array fun v hv => ?_
    obtain ⟨name, hname, rfl⟩ := List.mem_map.mp hv
    exact Value.tame_member (hnames name hname)
  unfold detents
  dsimp only
  split
  · exact hsizes _ fun name hname => plain_of_mem rfl hname
  · exact hsizes _ fun name hname => plain_of_mem rfl hname
  · simp [TameModifiers]

theorem cover_yields {name : String} (hname : Plain name) (hs : s.Tame) (h : e.Checked info)
    (hcontent : Yields content TameViews) (hnested : Yields nested TameModifiers) :
    Yields (s.cover e name content nested) TameModifiers := by
  refine hcontent.bind fun views hviews => ?_
  refine (userModifiers_yields hs fun m hm => (h.modifiers m hm).2).bind fun user huser => ?_
  refine hnested.bind fun hoisted hhoisted => .ret (List.forall_mem_singleton.mpr ?_)
  refine ViewModifier.tame_mk hname (List.forall_mem_singleton.mpr ?_)
    (List.forall_mem_singleton.mpr (Closure.tame_first (List.forall_mem_singleton.mpr ?_)))
  · exact tame_labeled (plain_of_all rfl) (tame_write hs)
  · refine View.tame_modify (tame_singleView hviews) ?_
    rw [List.forall_mem_append, List.forall_mem_append]
    exact ⟨⟨tame_detents, huser⟩, hhoisted⟩

theorem actionButton_yields (hs : s.Tame) (node : String) (item : ActionItem) :
    Yields (s.actionButton node item) View.Tame := by
  unfold actionButton
  split
  on_goal 1 => refine (action_yields hs _).bind ?_
  on_goal 2 => refine (Keeps.ret (p := TameStatements) (by simp [TameStatements])).bind ?_
  all_goals
    intro body hbody
    refine .ret (View.tame_leaf (plain_of_all rfl) ?_)
    rw [List.forall_mem_append, List.forall_mem_append, List.forall_mem_singleton,
      List.forall_mem_singleton]
    refine ⟨⟨tame_bare (Value.tame_string _), ?_⟩,
      tame_labeled (plain_of_all rfl) (Value.tame_action hbody)⟩
    refine tame_optionalArg (plain_of_all rfl) fun role _ => Value.tame_member ?_
    cases role <;> exact plain_of_all rfl

theorem dialog_yields {name : String} {extra : List Arg} (hname : Plain name)
    (hextra : ∀ arg ∈ extra, TameArg arg) (hs : s.Tame) :
    Yields (s.dialog e name extra) TameModifiers := by
  refine Keeps.step fun _ => ?_
  refine Keeps.bind (.mapM fun item _ => actionButton_yields hs e.id item) ?_
  intro buttons hbuttons
  refine .ret (List.forall_mem_singleton.mpr (ViewModifier.tame_mk hname ?_ ?_))
  · rw [List.forall_mem_append, List.forall_mem_cons, List.forall_mem_singleton]
    exact ⟨⟨tame_bare (Value.tame_string _),
      tame_labeled (plain_of_all rfl) (tame_write hs)⟩, hextra⟩
  · rw [List.forall_mem_cons]
    refine ⟨Closure.tame_first hbuttons, fun closure hclosure => ?_⟩
    obtain ⟨v, hv, rfl⟩ := Option.map_eq_some_iff.mp (Option.mem_toList.mp hclosure)
    exact Closure.tame_named (plain_of_all rfl)
      (List.forall_mem_singleton.mpr (View.tame_text (tame_text? hs hv)))

theorem toolbar_yields (h : e.Checked info)
    (hchoice : Catalog.isChoice e.kind "placement" = true)
    (hcontent : Yields content TameViews) (hnested : Yields nested TameModifiers) :
    Yields (toolbar e content nested) TameModifiers := by
  refine Keeps.step fun _ => hcontent.bind fun views hviews => ?_
  refine hnested.bind fun hoisted hhoisted => .ret ?_
  have hplacement : Plain ((e.text? "placement").getD "automatic") := by
    cases hword : e.text? "placement" with
    | none => exact plain_of_all rfl
    | some word => exact h.plain_of_text? hchoice hword
  refine List.forall_mem_cons.mpr ⟨ViewModifier.tame_mk (plain_of_all rfl) (by simp) ?_, hhoisted⟩
  refine List.forall_mem_singleton.mpr (Closure.tame_first (List.forall_mem_singleton.mpr ?_))
  refine View.tame_ofContent (List.forall_mem_singleton.mpr ?_) hviews
  exact tame_labeled (plain_of_all rfl) (Value.tame_member hplacement)

/-- **A checked presentation is lowered to modifiers that can stand in code.** -/
theorem presentation_yields (hs : s.Tame) (h : e.Checked info)
    (hcontent : Yields content TameViews) (hnested : Yields nested TameModifiers) :
    Yields (s.presentation e content nested) TameModifiers := by
  unfold presentation
  cases hkind : e.kind with
  | sheet => exact cover_yields (plain_of_all rfl) hs h hcontent hnested
  | fullScreenCover => exact cover_yields (plain_of_all rfl) hs h hcontent hnested
  | alert => exact dialog_yields (plain_of_all rfl) (by simp) hs
  | confirmationDialog =>
      refine dialog_yields (plain_of_all rfl) (List.forall_mem_singleton.mpr ?_) hs
      exact tame_labeled (plain_of_all rfl) (Value.tame_member (plain_of_all rfl))
  | toolbar => exact toolbar_yields h (by rw [hkind]; rfl) hcontent hnested
  | _ => exact .error

end Kinds

/-! ### Trees -/

mutual

/-- A checked tree is lowered to a view that can stand in code, or presented by such
modifiers. -/
theorem tree_yields (hs : s.Tame) : ∀ t : Tree Element, t.Checked →
    Yields (lower s t) View.Tame ∧ Yields (present s t) TameModifiers
  | .node e ts, hchecked => by
    obtain ⟨⟨info, he, -⟩, hall⟩ := hchecked
    obtain ⟨hcontent, hpresented⟩ := trees_yield hs ts hall
    have huser := userModifiers_yields hs fun m hm => (he.modifiers m hm).2
    constructor
    · refine (component_yields hs he hcontent).bind fun base hbase => ?_
      refine huser.bind fun user huser => hpresented.bind fun hoisted hhoisted => .ret ?_
      exact View.tame_modify (View.tame_modify hbase huser) hhoisted
    · exact presentation_yields hs he hcontent hpresented

/-- `tree_yields` for the children of a node. -/
theorem trees_yield (hs : s.Tame) : ∀ ts : List (Tree Element),
    Tree.EachAll Element.IsChecked ts →
    Yields (lowerContent s ts) TameViews ∧ Yields (lowerPresented s ts) TameModifiers
  | [], _ => ⟨.ret (by simp [TameViews]), .ret (by simp [TameModifiers])⟩
  | t :: ts, hchecked => by
    obtain ⟨htree, hrest⟩ := hchecked
    obtain ⟨hview, hpresentation⟩ := tree_yields hs t htree
    obtain ⟨hcontent, hpresented⟩ := trees_yield hs ts hrest
    rw [lowerContent, lowerPresented]
    constructor
    · split
      · exact hcontent
      · refine hview.bind fun view hview => hcontent.bind fun views hviews => .ret ?_
        exact List.forall_mem_cons.mpr ⟨hview, hviews⟩
    · split
      · refine hpresentation.bind fun first hfirst => hpresented.bind fun rest hrest => .ret ?_
        exact List.forall_mem_append.mpr ⟨hfirst, hrest⟩
      · exact hpresented

end

/-- **The tree of a screen is lowered to a view that can stand in code.** -/
theorem root_yields (hs : s.Tame) (root : Tree Element) (hchecked : root.Checked) :
    Yields (lowerRoot s root) View.Tame := by
  obtain ⟨hview, hpresentation⟩ := tree_yields hs root hchecked
  unfold lowerRoot
  split
  · refine hpresentation.bind fun hoisted hhoisted => .ret ?_
    exact View.tame_modify (View.tame_leaf (plain_of_all rfl) (by simp)) hhoisted
  · exact hview

end Setting

end Screenwright
