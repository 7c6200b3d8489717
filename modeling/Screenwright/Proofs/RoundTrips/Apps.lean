/-
App definitions are read again.

Everything but the two colors of the appearance comes back as it was.  A color is written with a
few decimal places, so what comes back for it is the color that its text stands for.
-/
import Screenwright.App.Definition
import Screenwright.Proofs.Colors
import Screenwright.Proofs.RoundTrips.Trees

namespace Screenwright

open Json JsonText Number Steps

/-! ### Numbers and colors -/

namespace JsonText

theorem isFinite_ofInt {n : Int} (h : minInt ≤ n ∧ n ≤ maxCount) :
    (Float.ofInt n).isFinite = true := by
  rw [minInt, maxCount] at h
  cases n with
  | ofNat n =>
      rw [Int.ofNat_eq_natCast] at h
      exact (within_ofNat (n := n) (k := 64) (by omega) (by decide)).isFinite
  | negSucc n =>
      exact ((within_ofNat (n := n + 1) (k := 64) (by omega) (by decide)).neg (by decide)
        (by decide)).isFinite

/-- A float that is read from a value is finite. -/
theorem ensures_readFloat : Ensures readFloat fun x => x.isFinite = true := by
  intro v x hv h
  cases hv with
  | int hrange =>
      cases h
      exact isFinite_ofInt hrange
  | float hfinite =>
      cases h
      exact hfinite
  | _ => cases h

theorem rereads_float {x : Float} (h : x.isFinite = true) : Rereads readFloat Json.float x := by
  rw [Rereads, toValue, if_pos h]
  rfl

theorem ensures_readColor : Ensures readColor Color.IsReadable := by
  intro v color hv h
  obtain ⟨s, -, h⟩ := bind_eq_ok.mp h
  split at h
  next hparse =>
    cases h
    exact Color.isReadable_of_parse hparse
  next => cases h

theorem readColor_ofJson {color y : Color Float} (h : Color.parse color.text = some y) :
    readColor (.ofJson (Json.string color.text).toValue) = .ok y := by
  show (Except.ok color.text >>= _) = _
  rw [ok_bind, h]
  rfl

end JsonText

/-! ### Platforms -/

namespace Platform

theorem lookup_device (device : DeviceClass) :
    DeviceClass.names.lookup device.name = some device := by
  cases device <;> rfl

theorem regular_form : form.Regular where
  nodup := by decide
  apart := by
    and_intros <;> first | trivial | exact Field.independent fun _ _ _ => rfl

theorem rereads (p : Platform) : Rereads read toJson p :=
  RecordForm.read_of_emits regular_form (.field rfl
    (.field (readList_ofJson fun d _ => readName_ofJson (lookup_device d)) (.nil _)))

end Platform

/-! ### Appearances -/

namespace Appearance

/-- The appearance with other colors. -/
def withColors (primary : Color Float) (accent : Option (Color Float)) (a : Appearance) :
    Appearance :=
  { a with primaryColor := primary, accentColor := accent }

/-- The colors that are read from what is written for the colors of an appearance. -/
structure Repaints (a : Appearance) (primary : Color Float) (accent : Option (Color Float)) :
    Prop where
  primary : Color.parse a.primaryColor.text = some primary
  accent : Option.Rel (fun c y => Color.parse c.text = some y) a.accentColor accent

/-- What is read for an appearance can be written. -/
structure IsWritable (a : Appearance) : Prop where
  primary : a.primaryColor.IsReadable
  accent : ∀ c ∈ a.accentColor, c.IsReadable
  baseUnit : a.baseUnit.isFinite = true
  baseFontSize : a.baseFontSize.isFinite = true

theorem isWritable_standard : standard.IsWritable :=
  ⟨⟨by decide +kernel, by decide +kernel, by decide +kernel⟩, nofun, by decide +kernel,
    by decide +kernel⟩

theorem ensures_read : Ensures read IsWritable :=
  RecordForm.ensures_read isWritable_standard
    (.part ensures_readColor (fun _ _ hprimary h => ⟨hprimary, h.2, h.3, h.4⟩)
      (.part ensures_readColor.option (fun _ _ haccent h => ⟨h.1, haccent, h.3, h.4⟩)
        (.any (fun _ _ h => ⟨h.1, h.2, h.3, h.4⟩) (.any (fun _ _ h => ⟨h.1, h.2, h.3, h.4⟩)
          (.part ensures_readFloat (fun _ _ hunit h => ⟨h.1, h.2, hunit, h.4⟩)
            (.part ensures_readFloat (fun _ _ hsize h => ⟨h.1, h.2, h.3, hsize⟩)
              (.any (fun _ _ h => ⟨h.1, h.2, h.3, h.4⟩) .nil)))))))

theorem IsWritable.exists_repaints {a : Appearance} (h : a.IsWritable) :
    ∃ primary accent, a.Repaints primary accent := by
  have haccent : ∀ source : Option (Color Float), (∀ c ∈ source, c.IsReadable) →
      ∃ accent, Option.Rel (fun c y => Color.parse c.text = some y) source accent := by
    rintro (_ | c) hc
    · exact ⟨none, .none⟩
    · obtain ⟨y, hy⟩ := Color.exists_parse_text (hc c rfl)
      exact ⟨some y, .some hy⟩
  obtain ⟨primary, hprimary⟩ := Color.exists_parse_text h.primary
  obtain ⟨accent, haccent⟩ := haccent a.accentColor h.accent
  exact ⟨primary, accent, hprimary, haccent⟩

theorem lookup_intensity (intensity : ShadowIntensity) :
    ShadowIntensity.names.lookup intensity.name = some intensity := by
  cases intensity <;> rfl

theorem regular_form : form.Regular where
  nodup := by decide
  apart := by
    and_intros <;> first | trivial | exact Field.independent fun _ _ _ => rfl

theorem read_toJson {a : Appearance} {primary : Color Float} {accent : Option (Color Float)}
    (h : a.IsWritable) (hcolors : a.Repaints primary accent) :
    read (.ofJson a.toJson.toValue) = .ok (a.withColors primary accent) := by
  have haccent : Option.Rel (fun c y => (Json.string c.text).toValue ≠ .null ∧
      readColor (.ofJson (Json.string c.text).toValue) = .ok y) a.accentColor accent := by
    have hparse := hcolors.accent
    generalize a.accentColor = source at hparse ⊢
    cases hparse with
    | none => exact .none
    | some hparse => exact .some ⟨nofun, readColor_ofJson hparse⟩
  exact RecordForm.read_of_emits regular_form (.field (readColor_ofJson hcolors.primary)
    (.optionTo rfl haccent (.field rfl (.field rfl (.field (rereads_float h.baseUnit)
      (.field (rereads_float h.baseFontSize)
        (.field (readName_ofJson (lookup_intensity _)) (.nil _))))))))

end Appearance

/-! ### Apps -/

namespace AppConfig

theorem regular_form : form.Regular where
  nodup := by decide
  apart := by
    and_intros <;> first | trivial | exact Field.independent fun _ _ _ => rfl

theorem ensures_read : Ensures read fun c => c.appearance.IsWritable :=
  RecordForm.ensures_read Appearance.isWritable_standard
    (.any (fun _ _ h => h) (.any (fun _ _ h => h) (.any (fun _ _ h => h) (.any (fun _ _ h => h)
      (.part Appearance.ensures_read (fun _ _ h _ => h)
        (.any (fun _ _ h => h) (.any (fun _ _ h => h) .nil)))))))

theorem read_toJson {c : AppConfig} {primary : Color Float} {accent : Option (Color Float)}
    (h : c.appearance.IsWritable) (hcolors : c.appearance.Repaints primary accent) :
    read (.ofJson c.toJson.toValue) =
      .ok { c with appearance := c.appearance.withColors primary accent } :=
  RecordForm.read_of_emits regular_form (.field rfl (.field rfl (.field rfl
    (.field (Platform.rereads _) (.field (Appearance.read_toJson h hcolors)
      (.field rfl (.field rfl (.nil _))))))))

end AppConfig

namespace TabItem

theorem regular_barForm : barForm.Regular where
  nodup := by decide
  apart := ⟨trivial, trivial⟩

theorem rereads_bar (items : List TabItem) : Rereads (barForm.read [])
    (fun items => .object [("items", .array (items.map toJson))]) items :=
  RecordForm.read_of_emits regular_barForm
    (.field (readList_ofJson fun item _ => rereads item) (.nil _))

end TabItem

namespace AppDefinition

/-- The app with other colors. -/
def withColors (primary : Color Float) (accent : Option (Color Float)) (app : AppDefinition) :
    AppDefinition :=
  { app with config :=
    { app.config with appearance := app.config.appearance.withColors primary accent } }

theorem regular_form : form.Regular where
  nodup := by decide
  apart := by
    and_intros <;> first | trivial | exact Field.independent fun _ _ _ => rfl

/-- What is read for an app can be written. -/
structure IsWritable (app : AppDefinition) : Prop where
  appearance : app.config.appearance.IsWritable
  screens : ∀ s ∈ app.screens, Rereads Screen.read Screen.toJson s
  models : ∀ m ∈ app.models, Rereads DataModel.read DataModel.toJson m

theorem ensures_read : Ensures read IsWritable :=
  RecordForm.ensures_read
    ⟨Appearance.isWritable_standard, List.forall_mem_nil _, List.forall_mem_nil _⟩
    (.part AppConfig.ensures_read (fun _ _ hconfig h => ⟨hconfig, h.2, h.3⟩)
      (.part Screen.roundTrips.list (fun _ _ hscreens h => ⟨h.1, hscreens, h.3⟩)
        (.part DataModel.roundTrips.list (fun _ _ hmodels h => ⟨h.1, h.2, hmodels⟩)
          (.any (fun _ _ h => ⟨h.1, h.2, h.3⟩) (.any (fun _ _ h => ⟨h.1, h.2, h.3⟩) .nil)))))

theorem read_toJson {app : AppDefinition} {primary : Color Float} {accent : Option (Color Float)}
    (h : app.IsWritable) (hcolors : app.config.appearance.Repaints primary accent) :
    read (.ofJson app.toJson.toValue) = .ok (app.withColors primary accent) := by
  rw [toJson]
  simp only [List.append_assoc]
  exact RecordForm.read_of_emits regular_form (.field (AppConfig.read_toJson h.1 hcolors)
    (.field (readList_ofJson h.screens) (.list rfl h.models (.field rfl (.of_append_nil
      (.option rfl (fun items _ => ⟨nofun, TabItem.rereads_bar items⟩) (.nil _)))))))

end AppDefinition

/-- **Everything that is read from a value is read again when it is written.** Component trees,
screens, data models, actions, buttons and tabs come back as they were, and so does an app but for
the two colors of its appearance, which come back as their texts are read. -/
theorem written_definitions_are_read :
    RoundTrips Component.readTree Component.treeJson ∧ RoundTrips Screen.read Screen.toJson ∧
      RoundTrips DataModel.read DataModel.toJson ∧ RoundTrips Action.read Action.toJson ∧
      RoundTrips ActionItem.read ActionItem.toJson ∧ RoundTrips TabItem.read TabItem.toJson ∧
      Ensures AppDefinition.read fun app => ∃ primary accent,
        app.config.appearance.Repaints primary accent ∧
          AppDefinition.read (.ofJson app.toJson.toValue) =
            .ok (app.withColors primary accent) := by
  refine ⟨Component.roundTrips, Screen.roundTrips, DataModel.roundTrips, Action.roundTrips,
    ActionItem.roundTrips, fun _ item _ _ => TabItem.rereads item, ?_⟩
  intro v app hv h
  have hwritable := AppDefinition.ensures_read hv h
  obtain ⟨primary, accent, hcolors⟩ := hwritable.appearance.exists_repaints
  exact ⟨primary, accent, hcolors, AppDefinition.read_toJson hwritable hcolors⟩

/-- An app of one screen, as a value. -/
def AppDefinition.sampleValue : Json :=
  .object [
    ("config", .object [
      ("appearance", .object [("primaryColor", .string "oklch(0.623 0.188 259.8)")]),
      ("bundleId", .string "com.example.notes"),
      ("name", .string "Notes")]),
    ("entryScreen", .string "home"),
    ("screens", .array [.object [
      ("id", .string "home"),
      ("name", .string "Home"),
      ("root", .object [
        ("id", .string "title"),
        ("props", .object [("content", .string "Notes")]),
        ("type", .string "Text")])]]),
    ("tabBar", .null)]

/-- The sample is read, written and read again. -/
theorem written_sample_is_read :
    AppDefinition.sampleValue.IsValue ∧ ∃ app primary accent,
      AppDefinition.read (.ofJson AppDefinition.sampleValue) = .ok app ∧
        app.config.appearance.Repaints primary accent ∧
        AppDefinition.read (.ofJson app.toJson.toValue) = .ok (app.withColors primary accent) := by
  have hvalue : AppDefinition.sampleValue.IsValue := by
    repeat' first
      | exact .null
      | exact .string _
      | exact List.forall_mem_nil _
      | refine List.forall_mem_cons.mpr ⟨?_, ?_⟩
      | refine .object (by decide) ?_
      | refine .array ?_
  have hok : (AppDefinition.read (.ofJson AppDefinition.sampleValue)).isOk = true := by
    decide +kernel
  obtain ⟨app, happ⟩ := isOk_iff.mp hok
  obtain ⟨primary, accent, hcolors, hread⟩ := written_definitions_are_read.2.2.2.2.2.2 hvalue happ
  exact ⟨hvalue, app, primary, accent, happ, hcolors, hread⟩

end Screenwright
