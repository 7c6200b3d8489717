/-
Whether the values of data models come to an end.

Every property of an emitted type begins with a value, and where its type is a data model that value
is a new one, whose properties begin with values in turn.  Nothing looks for a way back: a model that
holds itself, or several that hold each other, are accepted, and making one of them never ends.

What a property begins with is computed from its type and its default by the generator, and is said
here of the definition alone: a data model always begins with a new value; an array or an optional
begins with one only where its default has, at whatever depth, `null` in the place of a model.  One
step of making values is then the same in the emitted types and in the definition, so their cycles
are the same too; and since an app has finitely many types, making a value ends exactly if it does
not run into a cycle.
-/
import Mathlib.Order.WellFoundedSet
import Screenwright.Proofs.Accounts

namespace Screenwright

open Steps Swift

namespace Swift

/-! ### Making values -/

/-- To make a value of one type, a value of the other is made for one of its properties. -/
def Constructs (types : List DataType) (here there : String) : Prop :=
  ∃ type ∈ types, type.name = here ∧ ∃ p ∈ type.properties, there ∈ p.default.callees

/-- Making a value of the type ends: making those that its properties begin with does. -/
def Ends (types : List DataType) (name : String) : Prop :=
  Acc (fun there here => Constructs types here there) name

end Swift

section Cycles

variable {α : Type} {r : α → α → Prop}

/-- What is on a cycle leads on forever. -/
theorem not_acc_of_cycle {a : α} (h : Relation.TransGen r a a) : ¬ Acc (fun b a => r a b) a := by
  intro hacc
  induction hacc with
  | intro a _ ih =>
      obtain ⟨b, hfirst, hrest⟩ := Relation.TransGen.head'_iff.mp h
      exact ih b hfirst (Relation.TransGen.tail' hrest hfirst)

/-- In a finite set that is not left, whatever runs into no cycle comes to an end. -/
theorem acc_of_no_cycle {s : Set α} (hfinite : s.Finite) (hclosed : ∀ a b, r a b → b ∈ s)
    (hcycle : ∀ a, ¬ Relation.TransGen r a a) {a : α} (ha : a ∈ s) : Acc (fun b a => r a b) a := by
  let before : α → α → Prop := fun b a => Relation.TransGen r a b
  have horder : IsStrictOrder α before :=
    { irrefl := hcycle, trans := fun a b c hab hbc => Relation.TransGen.trans hbc hab }
  have hfounded : s.WellFoundedOn before := hfinite.wellFoundedOn
  refine hfounded.induction ha fun a _ ih => ?_
  exact Acc.intro a fun b hstep => ih b (hclosed a b hstep) (.single hstep)

end Cycles

/-! ### The types of an app -/

/-- A property of an emitted data model begins with a new value of a data model; the two are told by
their types. -/
def AppDefinition.BeginsModel (app : AppDefinition) (here there : String) : Prop :=
  ∃ model ∈ app.emittedModels, typeText (.model model.name) = here ∧
    ∃ p ∈ model.properties, ∃ held, p.type.Begins p.default held ∧
      typeText (.model held) = there

namespace Generate.Run

variable {app : AppDefinition} {catalog : Catalog} {config : GeneratorConfig} {out : GeneratedApp}
  {types : List DataType} {trees : List NormalTree} {views : List ScreenView} {entry : AppEntry}

/-- **One step of making values is the same in the emitted types and in the definition.** -/
theorem constructs_iff (h : Run app catalog config out types trees views entry)
    {here there : String} :
    Constructs (emittedTypes types entry) here there ↔ app.BeginsModel here there := by
  constructor
  · intro hstep
    obtain ⟨type, htype, hname, stored, hstored, hcallee⟩ := hstep
    obtain ⟨model, hmodel, hbuild⟩ := exists_of_forall₂ h.forall₂_emitted type htype
    obtain ⟨p, hp, hstores⟩ :=
      exists_of_forall₂ (DataModel.build_stores type hbuild) stored hstored
    obtain ⟨held, hbegins, htext⟩ := (mem_callees_defaultValue_iff hstores.default).mp hcallee
    refine ⟨model, hmodel, ?_, p, hp, held, hbegins, htext⟩
    rw [typeText, (typeOf_of_build hbuild).name, Option.getD_some, hname]
  · intro hstep
    obtain ⟨model, hmodel, hname, p, hp, held, hbegins, htext⟩ := hstep
    obtain ⟨type, htype, hbuild⟩ := exists_of_forall₂ h.forall₂_emitted.flip model hmodel
    obtain ⟨stored, hstored, hstores⟩ :=
      exists_of_forall₂ (DataModel.build_stores type hbuild).flip p hp
    refine ⟨type, htype, ?_, stored, hstored,
      (mem_callees_defaultValue_iff hstores.default).mpr ⟨held, hbegins, htext⟩⟩
    rw [← hname, typeText, (typeOf_of_build hbuild).name, Option.getD_some]

/-- What is made on the way is a value of an emitted type. -/
theorem mem_of_constructs (h : Run app catalog config out types trees views entry)
    {here there : String} (hstep : Constructs (emittedTypes types entry) here there) :
    there ∈ (emittedTypes types entry).map DataType.name := by
  obtain ⟨model, hmodel, -, p, hp, held, hbegins, rfl⟩ := h.constructs_iff.mp hstep
  exact h.typeText_mem_of_holds hmodel hp hbegins.holds

/-- **Making values of the emitted types ends exactly if there is no cycle.** -/
theorem ends_iff (h : Run app catalog config out types trees views entry) :
    (∀ type ∈ emittedTypes types entry, Ends (emittedTypes types entry) type.name) ↔
      ∀ name, ¬ Relation.TransGen (Constructs (emittedTypes types entry)) name name := by
  constructor
  · intro hends name hcycle
    obtain ⟨_, hfirst, -⟩ := Relation.TransGen.head'_iff.mp hcycle
    obtain ⟨type, htype, rfl, -⟩ := hfirst
    exact not_acc_of_cycle hcycle (hends type htype)
  · intro hcycle type htype
    have hfinite : {name | name ∈ (emittedTypes types entry).map DataType.name}.Finite :=
      List.finite_toSet _
    exact acc_of_no_cycle hfinite (fun _ _ hstep => h.mem_of_constructs hstep) hcycle
      (List.mem_map_of_mem htype)

theorem no_cycle_iff (h : Run app catalog config out types trees views entry) :
    (∀ name, ¬ Relation.TransGen (Constructs (emittedTypes types entry)) name name) ↔
      ∀ name, ¬ Relation.TransGen app.BeginsModel name name := by
  have hsame : Constructs (emittedTypes types entry) = app.BeginsModel := by
    funext here there
    exact propext h.constructs_iff
  rw [hsame]

end Generate.Run

/-- **When the values of an app's data models come to an end.**  In every generated app, over any
catalog, no emitted type constructs itself through the defaults of its properties, in one step or in
several, exactly if no emitted data model begins with a new value of itself in this way; and this is
the case exactly if making a value of any emitted type ends. -/
theorem initialization_ends_iff (app : AppDefinition) (catalog : Catalog)
    (config : GeneratorConfig) (out : GeneratedApp) (h : generate app catalog config = .ok out) :
    ∃ types trees views entry, Generate.Run app catalog config out types trees views entry ∧
      ((∀ name, ¬ Relation.TransGen
          (Swift.Constructs (Generate.emittedTypes types entry)) name name) ↔
        ∀ name, ¬ Relation.TransGen app.BeginsModel name name) ∧
      ((∀ type ∈ Generate.emittedTypes types entry,
          Swift.Ends (Generate.emittedTypes types entry) type.name) ↔
        ∀ name, ¬ Relation.TransGen app.BeginsModel name name) := by
  obtain ⟨types, trees, views, entry, hrun⟩ := Generate.exists_run h
  exact ⟨types, trees, views, entry, hrun, hrun.no_cycle_iff, hrun.ends_iff.trans hrun.no_cycle_iff⟩

/-- An app with a data model that holds others of its kind, but does not begin with one, and one
that it begins with. -/
def Generate.outline : AppDefinition where
  config := ⟨"Notes", "com.example.notes", "1.0.0", .standard, .standard, true, false⟩
  screens := [⟨"home", "Home", none, [], [], .node ⟨"t", "Text", [], [], []⟩ []⟩]
  models :=
    [⟨"heading", [⟨"parts", .array (.model "heading"), none, true⟩,
        ⟨"parent", .optional (.model "heading"), none, true⟩,
        ⟨"style", .model "style", none, true⟩], true⟩,
      ⟨"style", [⟨"size", .int, some (.int 12), true⟩], true⟩]
  entryScreen := "home"
  tabBar := none

/-- The outline is generated, so making its values ends unless they begin with each other. -/
theorem initialization_of_outline :
    ∃ out, generate Generate.outline Catalog.standard .standard = .ok out ∧
      ∃ types trees views entry,
        Generate.Run Generate.outline Catalog.standard .standard out types trees views entry ∧
        ((∀ name, ¬ Relation.TransGen
            (Swift.Constructs (Generate.emittedTypes types entry)) name name) ↔
          ∀ name, ¬ Relation.TransGen Generate.outline.BeginsModel name name) ∧
        ((∀ type ∈ Generate.emittedTypes types entry,
            Swift.Ends (Generate.emittedTypes types entry) type.name) ↔
          ∀ name, ¬ Relation.TransGen Generate.outline.BeginsModel name name) := by
  have haccepts : Generate.accepts Generate.outline .standard = true := by decide +kernel
  obtain ⟨out, hout⟩ := Generate.exists_generate_of_accepts haccepts
  exact ⟨out, hout,
    initialization_ends_iff Generate.outline Catalog.standard .standard out hout⟩

/-! ### Values that never end -/

/-- An app with a data model that holds another of its kind, and one with an array of its kind that
begins with one item. -/
def spiral : AppDefinition where
  config := ⟨"Notes", "com.example.notes", "1.0.0", .standard, .standard, true, false⟩
  screens := [⟨"home", "Home", none, [], [], .node ⟨"t", "Text", [], [], []⟩ []⟩]
  models :=
    [⟨"node", [⟨"next", .model "node", none, true⟩], true⟩,
      ⟨"tree", [⟨"branches", .array (.model "tree"), some (.array [.null]), true⟩], true⟩]
  entryScreen := "home"
  tabBar := none

/-- **An accepted app with two types of which no value can ever be made.** -/
theorem initialization_of_spiral :
    ∃ out, generate spiral Catalog.standard .standard = .ok out ∧
      ∃ types trees views entry,
        Generate.Run spiral Catalog.standard .standard out types trees views entry ∧
        ∀ name ∈ ["Node", "Tree"],
          Relation.TransGen (Swift.Constructs (Generate.emittedTypes types entry)) name name ∧
          ¬ Swift.Ends (Generate.emittedTypes types entry) name := by
  have haccepts : Generate.accepts spiral .standard = true := by decide +kernel
  obtain ⟨out, hout⟩ := Generate.exists_generate_of_accepts haccepts
  obtain ⟨types, trees, views, entry, hrun⟩ := Generate.exists_run hout
  have hnode : spiral.BeginsModel "Node" "Node" := by
    refine ⟨_, .head _, by decide +kernel, _, .head _, "node", .model, by decide +kernel⟩
  have htree : spiral.BeginsModel "Tree" "Tree" := by
    refine ⟨_, .tail _ (.head _), by decide +kernel, _, .head _, "tree", ?_, by decide +kernel⟩
    exact .item (List.mem_singleton_self _) .model
  refine ⟨out, hout, types, trees, views, entry, hrun, ?_⟩
  have hcycle : ∀ name ∈ ["Node", "Tree"],
      Relation.TransGen (Swift.Constructs (Generate.emittedTypes types entry)) name name := by
    rw [List.forall_mem_cons, List.forall_mem_singleton]
    exact ⟨.single (hrun.constructs_iff.mpr hnode), .single (hrun.constructs_iff.mpr htree)⟩
  exact fun name hname => ⟨hcycle name hname, not_acc_of_cycle (hcycle name hname)⟩

end Screenwright
