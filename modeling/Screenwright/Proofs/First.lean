/-
The first item of a list that meets a condition.

A check that runs over a list and stops at its first error says two things with it: which item
has failed, and that none before it has.  What an item is checked for may depend on the items
before it, so the condition is one on an item and on what stands before it.
-/
import Mathlib.Data.List.Induction
import Mathlib.Data.List.Nodup
import Screenwright.Proofs.Steps

namespace Screenwright

open Steps

variable {α β ε : Type} {p : List α → α → Prop} {x y : α} {xs before : List α}

/-- Some item of the list meets the condition. -/
def AnyIn (p : List α → α → Prop) (xs : List α) : Prop :=
  ∃ before x after, xs = before ++ x :: after ∧ p before x

/-- The item meets the condition and stands in the list, and none of those before it does. -/
structure FirstIn (p : List α → α → Prop) (xs before : List α) (x : α) : Prop where
  split : ∃ after, xs = before ++ x :: after
  meets : p before x
  none : ¬ AnyIn p before

@[simp]
theorem not_anyIn_nil : ¬ AnyIn p [] := by
  rintro ⟨before, x, after, h, -⟩
  cases before <;> cases h

theorem anyIn_cons : AnyIn p (y :: xs) ↔ p [] y ∨ AnyIn (fun before => p (y :: before)) xs := by
  constructor
  · rintro ⟨before, x, after, h, hx⟩
    cases before with
    | nil =>
        cases h
        exact Or.inl hx
    | cons z before =>
        cases h
        exact Or.inr ⟨before, x, after, rfl, hx⟩
  · rintro (hy | ⟨before, x, after, rfl, hx⟩)
    · exact ⟨[], y, xs, rfl, hy⟩
    · exact ⟨y :: before, x, after, rfl, hx⟩

/-- Where the items before play no part, something is in the list if it is one of its members. -/
theorem anyIn_iff_exists_mem {q : α → Prop} : AnyIn (fun _ x => q x) xs ↔ ∃ x ∈ xs, q x := by
  constructor
  · rintro ⟨before, x, after, rfl, hx⟩
    exact ⟨x, by simp, hx⟩
  · rintro ⟨x, hx, hq⟩
    obtain ⟨before, after, rfl⟩ := List.append_of_mem hx
    exact ⟨before, x, after, rfl, hq⟩

theorem not_firstIn_nil : ¬ FirstIn p [] before x := by
  rintro ⟨⟨after, h⟩, -, -⟩
  cases before <;> cases h

/-- The first item of a list is its head, or it is the first one of the rest. -/
theorem firstIn_cons : FirstIn p (y :: xs) before x ↔
    (before = [] ∧ x = y ∧ p [] y) ∨
      ¬ p [] y ∧ ∃ rest, before = y :: rest ∧
        FirstIn (fun before => p (y :: before)) xs rest x := by
  constructor
  · rintro ⟨⟨after, h⟩, hx, hnone⟩
    cases before with
    | nil =>
        cases h
        exact Or.inl ⟨rfl, rfl, hx⟩
    | cons z rest =>
        cases h
        rw [anyIn_cons, not_or] at hnone
        exact Or.inr ⟨hnone.1, rest, rfl, ⟨after, rfl⟩, hx, hnone.2⟩
  · rintro (⟨rfl, rfl, hy⟩ | ⟨hy, rest, rfl, ⟨after, rfl⟩, hx, hnone⟩)
    · exact ⟨⟨xs, rfl⟩, hy, not_anyIn_nil⟩
    · exact ⟨⟨after, rfl⟩, hx, by rw [anyIn_cons, not_or]; exact ⟨hy, hnone⟩⟩

/-- Where some item meets the condition, one is the first. -/
theorem exists_firstIn_iff : (∃ before x, FirstIn p xs before x) ↔ AnyIn p xs := by
  constructor
  · rintro ⟨before, x, ⟨after, h⟩, hx, -⟩
    exact ⟨before, x, after, h, hx⟩
  · intro h
    induction xs generalizing p with
    | nil => exact absurd h not_anyIn_nil
    | cons y xs ih =>
        by_cases hy : p [] y
        · exact ⟨[], y, firstIn_cons.mpr (Or.inl ⟨rfl, rfl, hy⟩)⟩
        · obtain ⟨before, x, hfirst⟩ := ih ((anyIn_cons.mp h).resolve_left hy)
          exact ⟨y :: before, x, firstIn_cons.mpr (Or.inr ⟨hy, before, rfl, hfirst⟩)⟩

/-- If an item whose key an earlier item has meets the condition, then where none does the keys are
distinct. -/
theorem nodup_map_of_not_anyIn {κ : Type} {key : α → κ}
    (hp : ∀ before x, (∃ y ∈ before, key y = key x) → p before x) (h : ¬ AnyIn p xs) :
    (xs.map key).Nodup := by
  induction xs using List.reverseRecOn with
  | nil => exact List.nodup_nil
  | append_singleton xs x ih =>
      have hrest : ¬ AnyIn p xs := by
        rintro ⟨before, y, after, rfl, hy⟩
        exact h ⟨before, y, after ++ [x], by simp, hy⟩
      have hnew : key x ∉ xs.map key := by
        intro hmem
        exact h ⟨xs, x, [], rfl, hp xs x (List.mem_map.mp hmem)⟩
      rw [List.map_append, List.map_singleton, List.nodup_append]
      refine ⟨ih hrest, List.nodup_singleton _, ?_⟩
      rintro k hk _ hsingle rfl
      rw [List.mem_singleton.mp hsingle] at hk
      exact hnew hk

/-- A step that gives nothing comes through or has an error. -/
theorem ne_ok_iff {x : Except ε Unit} : x ≠ .ok () ↔ ∃ e, x = .error e := by
  cases x <;> simp

/-- The error of a chain behind a step that gives nothing. -/
theorem unit_bind_eq_error {x : Except ε Unit} {f : Unit → Except ε α} {e : ε} :
    (x >>= f) = .error e ↔ x = .error e ∨ x = .ok () ∧ f () = .error e := by
  cases x with
  | error e' => simp [error_bind]
  | ok a => simp [ok_bind]

/-- A run over a list comes through if no step of it fails. -/
theorem forM_eq_ok_iff {f : α → Except ε Unit} {xs : List α} :
    xs.forM f = .ok () ↔ ¬ AnyIn (fun _ x => f x ≠ .ok ()) xs := by
  rw [forM_eq_ok]
  constructor
  · rintro hall ⟨before, x, after, rfl, hx⟩
    exact hx (hall x (by simp))
  · intro hnone x hx
    obtain ⟨before, after, rfl⟩ := List.append_of_mem hx
    by_contra hfails
    exact hnone ⟨before, x, after, rfl, hfails⟩

/-- **The error of a run over a list is that of the first step that fails.**  Here a run goes on
from what it knows of the items before: its next step either fails, and has the error of the run,
or knows that item too for the rest. -/
theorem errs_iff_firstIn {σ : Type} (errs : σ → List α → ε → Prop) (knows : List α → σ → Prop)
    (bad : List α → α → ε → Prop) (hnil : ∀ s e, ¬ errs s [] e)
    (hcons : ∀ earlier s y xs, knows earlier s →
      ((∃ e, bad earlier y e) ∧ ∀ e, errs s (y :: xs) e ↔ bad earlier y e) ∨
        (¬ ∃ e, bad earlier y e) ∧
          ∃ s', knows (earlier ++ [y]) s' ∧ ∀ e, errs s (y :: xs) e ↔ errs s' xs e) {e : ε} :
    ∀ earlier s, knows earlier s → (errs s xs e ↔
      ∃ before x, FirstIn (fun before x => ∃ e, bad (earlier ++ before) x e) xs before x ∧
        bad (earlier ++ before) x e) := by
  induction xs with
  | nil =>
      intro earlier s _
      refine iff_of_false (hnil s e) ?_
      rintro ⟨_, _, h, -⟩
      exact not_firstIn_nil h
  | cons y xs ih =>
      intro earlier s hknows
      simp only [firstIn_cons, List.append_nil]
      rcases hcons earlier s y xs hknows with ⟨hbad, herrs⟩ | ⟨hfine, s', hknows', herrs⟩
      · rw [herrs]
        constructor
        · intro hy
          exact ⟨[], y, Or.inl ⟨rfl, rfl, hbad⟩, by rwa [List.append_nil]⟩
        · rintro ⟨_, x, ⟨rfl, rfl, -⟩ | ⟨hnot, -⟩, hx⟩
          · rwa [List.append_nil] at hx
          · exact absurd hbad hnot
      · rw [herrs, ih _ _ hknows']
        simp only [List.append_assoc, List.singleton_append]
        constructor
        · rintro ⟨before, x, hfirst, hx⟩
          exact ⟨y :: before, x, Or.inr ⟨hfine, before, rfl, hfirst⟩, hx⟩
        · rintro ⟨_, x, ⟨-, -, hbad⟩ | ⟨-, before, rfl, hfirst⟩, hx⟩
          · exact absurd hbad hfine
          · exact ⟨before, x, hfirst, hx⟩

/-- The error of steps that give nothing is that of the first one that fails. -/
theorem forM_eq_error_iff {f : α → Except ε Unit} {xs : List α} {e : ε} :
    xs.forM f = .error e ↔
      ∃ before x, FirstIn (fun _ x => f x ≠ .ok ()) xs before x ∧ f x = .error e := by
  simp only [ne_ok_iff]
  refine errs_iff_firstIn (fun (_ : Unit) xs e => xs.forM f = .error e) (fun _ _ => True)
    (fun _ x e => f x = .error e) (fun _ _ h => ?_) (fun earlier s y xs _ => ?_) [] () trivial
  · cases h
  · have hrun : (y :: xs).forM f = (f y >>= fun _ => xs.forM f) := rfl
    rw [hrun]
    cases f y with
    | error e => exact Or.inl ⟨⟨e, rfl⟩, fun _ => Iff.rfl⟩
    | ok => exact Or.inr ⟨by simp, (), trivial, fun _ => Iff.rfl⟩

/-- The error of steps that share a state is that of the first one that fails, if the state tells
each of them what it has to know of those before. -/
theorem run_mapM_eq_error_iff {σ : Type} {f : α → StateT σ (Except ε) β}
    (knows : List α → σ → Prop) {bad : List α → α → ε → Prop} {e : ε}
    (herror : ∀ before x s e, knows before s → ((f x).run s = .error e ↔ bad before x e))
    (hok : ∀ before x s b s', knows before s → (f x).run s = .ok (b, s') →
      knows (before ++ [x]) s') :
    ∀ earlier s, knows earlier s → ((xs.mapM f).run s = .error e ↔
      ∃ before x, FirstIn (fun before x => ∃ e, bad (earlier ++ before) x e) xs before x ∧
        bad (earlier ++ before) x e) := by
  refine errs_iff_firstIn (fun s xs e => (xs.mapM f).run s = .error e) knows bad
    (fun _ _ h => ?_) (fun earlier s y xs hknows => ?_)
  · cases h
  · simp only [← herror earlier y s _ hknows]
    rw [List.mapM_cons, StateT.run_bind]
    cases hy : (f y).run s with
    | error e =>
        refine Or.inl ⟨⟨e, rfl⟩, fun e' => ?_⟩
        rw [error_bind, Except.error.injEq, Except.error.injEq]
    | ok result =>
        refine Or.inr ⟨by simp, result.2, hok _ _ _ _ _ hknows hy, fun e => ?_⟩
        rw [ok_bind, StateT.run_bind, bind_eq_error]
        constructor
        · rintro (h | ⟨_, -, ⟨⟩⟩)
          exact h
        · exact Or.inl

/-- Steps over the items of several lists, one list after the other. -/
theorem forM_flatMap {f : β → Except ε Unit} {g : α → List β} {xs : List α} :
    (xs.flatMap g).forM f = xs.forM fun x => (g x).forM f := by
  induction xs with
  | nil => rfl
  | cons x xs ih =>
      have hrun : (x :: xs).forM (fun x => (g x).forM f) =
          ((g x).forM f >>= fun _ => xs.forM fun x => (g x).forM f) := rfl
      rw [hrun, ← ih, List.flatMap_cons]
      exact List.forM_append

end Screenwright
