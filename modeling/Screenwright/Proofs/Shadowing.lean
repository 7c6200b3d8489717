/-
Bindings shadow literals.

The literal of a bound property has no part in what is generated.  Where an app is generated, one
component of one screen has the identifiers of that component and of that screen, so exchanging a
literal there changes a single component, and it changes nothing there but a literal that is bound.
That other literals make no difference is then what `Generate.generate_reword` says.
-/
import Screenwright.Proofs.Bindings
import Screenwright.Proofs.Literals.Apps
import Screenwright.Proofs.Naming

namespace Screenwright

open Steps
open DataBinding (covers)

/-! ### Exchanging a literal -/

namespace Component

/-- The raw properties of the component with the value for the property, or with none. -/
def propsWith (c : Component) (property : String) : Option Json → Entries Json
  | some value => Entries.put property value c.props
  | none => c.props.filter fun entry => entry.1 ≠ property

variable {c : Component} {property : String} (value : Option Json)

theorem lookup_propsWith_self : (c.propsWith property value).lookup property = value := by
  cases value with
  | some value => exact Entries.lookup_put_self property value c.props
  | none =>
      refine List.lookup_eq_none_iff.mpr fun entry hentry => ?_
      have hne := (List.mem_filter.mp hentry).2
      simpa using fun heq => of_decide_eq_true hne heq.symm

/-- The other properties stay as they are. -/
theorem filter_propsWith :
    ((c.propsWith property value).filter fun entry => entry.1 ≠ property) =
      c.props.filter fun entry => entry.1 ≠ property := by
  cases value with
  | some value =>
      have hput := Entries.filter_put (p := fun name => name ≠ property) property value c.props
      simpa [propsWith] using hput
  | none => rw [propsWith, List.filter_filter]; simp

/-- A component allows every literal for a property that it binds that it can have. -/
theorem allows_propsWith (h : c.Allows c.props) (hcovers : covers c.bindings property = true)
    (htakes : Catalog.standard.Takes c.type property value) :
    c.Allows (c.propsWith property value) := by
  constructor
  · -- What is trimmed away holds the literal in either table.
    have hothers : ∀ table : Entries Json, DataBinding.trim c.bindings table =
        DataBinding.trim c.bindings (table.filter fun entry => entry.1 ≠ property) := by
      intro table
      rw [DataBinding.trim, DataBinding.trim, List.filter_filter]
      refine List.filter_congr fun entry _ => ?_
      by_cases hname : entry.1 = property
      · simp [hname, hcovers]
      · simp [hname]
    rw [hothers, filter_propsWith, ← hothers]
  · intro name hname
    by_cases heq : name = property
    · subst heq
      rw [lookup_propsWith_self]
      exact htakes
    · have hlookup : ∀ table : Entries Json,
          (table.filter fun entry => entry.1 ≠ property).lookup name = table.lookup name :=
        fun table => Entries.lookup_filter (p := fun n => n ≠ property) table (by simpa using heq)
      rw [← hlookup, filter_propsWith, hlookup]
      exact h.takes name hname

end Component

/-- The app in which the component of one screen has the value for the property, or none. -/
def AppDefinition.withLiteral (app : AppDefinition) (screen node property : String)
    (value : Option Json) : AppDefinition :=
  app.reword fun s c => if s.id = screen ∧ c.id = node then c.propsWith property value else c.props

/-! ### Literals without influence -/

/-- **Bindings shadow literals.**  Whatever a component has as the literal of a property that it
binds, be it a value that the property's kind accepts, `null`, or nothing at all, the app is
generated to the same files with the same warnings. -/
theorem bindings_shadow_literals (app : AppDefinition) (config : GeneratorConfig)
    (out : GeneratedApp) (h : generate app Catalog.standard config = .ok out) :
    ∀ screen ∈ app.screens, ∀ c ∈ screen.root.preorder, ∀ b ∈ c.bindings,
      ∀ value, Catalog.standard.Takes c.type b.property value →
        generate (app.withLiteral screen.id c.id b.property value) Catalog.standard config =
          .ok out := by
  intro screen hscreen c hc b hb value htakes
  obtain ⟨types, trees, views, entry, hrun⟩ := Generate.exists_run h
  have hids := hrun.namesApart.ids
  have hpassed : ∀ s ∈ app.screens, (s.root.preorder.map Component.id).Nodup ∧
      ∀ d ∈ s.root.preorder, d.Allows d.props := by
    intro s hs
    obtain ⟨tree, _, -, hnormal, -⟩ := hrun.exists_screen hs
    exact passed_of_normalize hnormal
  refine Generate.generate_reword h fun s hs d hd => ?_
  split
  next hsame =>
    obtain rfl := List.inj_on_of_nodup_map hids hs hscreen hsame.1
    obtain rfl := List.inj_on_of_nodup_map (hpassed s hs).1 hd hc hsame.2
    exact Component.allows_propsWith value ((hpassed s hs).2 d hd)
      (DataBinding.covers_iff.mpr ⟨b, hb, rfl⟩) htakes
  · exact (hpassed s hs).2 d hd

/-- The title that a text of the profile shows is bound: with any other title in its place, with
`null` or with nothing, the profile is the same app. -/
theorem literals_of_profile :
    ∃ out, generate Generate.profile Catalog.standard .standard = .ok out ∧
      ∀ value ∈ [some (.string "Ada"), some .null, none],
        generate (Generate.profile.withLiteral "home" "name" "content" value) Catalog.standard
          .standard = .ok out := by
  obtain ⟨out, hout⟩ := Generate.exists_generate_of_accepts Generate.accepts_profile
  have hshadows := bindings_shadow_literals Generate.profile .standard out hout _
    List.mem_cons_self
    ⟨"name", "Text", [], [⟨"content", .parameter, "owner.note.title"⟩], []⟩
    (by simp [Tree.preorder, Tree.preorderAll]) _ List.mem_cons_self
  refine ⟨out, hout, fun value hvalue => hshadows value ?_⟩
  simp only [List.mem_cons, List.not_mem_nil, or_false] at hvalue
  rcases hvalue with rfl | rfl | rfl
  · rintro _ ⟨⟩
    exact .inr ⟨_, _, _, rfl, rfl, rfl⟩
  · rintro _ ⟨⟩
    exact .inl rfl
  · rintro _ ⟨⟩

end Screenwright
