/-
Chains of steps that may fail.

A check of this library is a chain of steps in `Except`.  That the chain came through
says that every step did, and what each of them gave; the lemmas here take a chain apart
in that way, one for each means by which steps are put together.
-/
import Mathlib.Data.List.Forall2
import Mathlib.Tactic.Common

namespace Screenwright.Steps

variable {ε ε' α β : Type}

/-! ### One step after the other -/

theorem pure_eq_ok (a : α) : (pure a : Except ε α) = .ok a := rfl

theorem throw_eq_error (e : ε) : (throw e : Except ε α) = .error e := rfl

theorem ok_bind (a : α) (f : α → Except ε β) : (Except.ok a >>= f) = f a := rfl

theorem error_bind (e : ε) (f : α → Except ε β) : (Except.error e >>= f) = .error e := rfl

theorem bind_eq_ok {x : Except ε α} {f : α → Except ε β} {b : β} :
    (x >>= f) = .ok b ↔ ∃ a, x = .ok a ∧ f a = .ok b := by
  cases x with
  | error e => simp [error_bind]
  | ok a => simp [ok_bind]

section Guards

variable {c : Prop} [Decidable c] {e : ε} {f : Unit → Except ε β} {x : Except ε β} {b : β}

theorem guard_eq_ok : (if c then throw e >>= f else x) = .ok b ↔ ¬ c ∧ x = .ok b := by
  split
  next hc => exact iff_of_false nofun fun h => h.1 hc
  next hc => exact (and_iff_right hc).symm

theorem unless_eq_ok : (if c then x else throw e >>= f) = .ok b ↔ c ∧ x = .ok b := by
  split
  next hc => exact (and_iff_right hc).symm
  next hc => exact iff_of_false nofun fun h => hc h.1

end Guards

theorem map_eq_ok {x : Except ε α} {f : α → β} {b : β} :
    x.map f = .ok b ↔ ∃ a, x = .ok a ∧ f a = b := by
  cases x <;> simp [Except.map]

theorem mapError_eq_ok {x : Except ε α} {rename : ε → ε'} {a : α} :
    x.mapError rename = .ok a ↔ x = .ok a := by
  cases x with
  | error e => simp [Except.mapError]
  | ok b => simp [Except.mapError]

/-- A chain comes through if its first step does, and the rest does from there. -/
theorem exists_bind_eq_ok {x : Except ε α} {f : α → Except ε β} (hx : ∃ a, x = .ok a)
    (hf : ∀ a, x = .ok a → ∃ b, f a = .ok b) : ∃ b, (x >>= f) = .ok b := by
  obtain ⟨a, ha⟩ := hx
  obtain ⟨b, hb⟩ := hf a ha
  exact ⟨b, bind_eq_ok.mpr ⟨a, ha, hb⟩⟩

theorem exists_map_eq_ok {x : Except ε α} {f : α → β} (hx : ∃ a, x = .ok a) :
    ∃ b, x.map f = .ok b := by
  obtain ⟨a, ha⟩ := hx
  exact ⟨f a, map_eq_ok.mpr ⟨a, ha, rfl⟩⟩

theorem isOk_iff {x : Except ε α} : x.isOk = true ↔ ∃ a, x = .ok a := by
  cases x with
  | error e => simp [Except.isOk, Except.toBool]
  | ok a => simp [Except.isOk, Except.toBool]

/-- What can be read off a run by evaluation holds of its result. -/
theorem eq_of_toOption_map {x : Except ε α} {a : α} {f : α → β} {b : β} (h : x = .ok a)
    (hrun : x.toOption.map f = some b) : f a = b := by
  rw [h] at hrun
  exact Option.some.inj hrun

/-! ### The error of a chain -/

/-- The error of a chain is that of its first step, or that of the rest. -/
theorem bind_eq_error {x : Except ε α} {f : α → Except ε β} {e : ε} :
    (x >>= f) = .error e ↔ x = .error e ∨ ∃ a, x = .ok a ∧ f a = .error e := by
  cases x with
  | error e' => simp [error_bind]
  | ok a => simp [ok_bind]

theorem mapError_eq_error {x : Except ε α} {rename : ε → ε'} {e' : ε'} :
    x.mapError rename = .error e' ↔ ∃ e, x = .error e ∧ rename e = e' := by
  cases x <;> simp [Except.mapError]

/-- The error of a run over a list is that of one of its steps. -/
theorem exists_error_of_mapM {f : α → Except ε β} {xs : List α} {e : ε}
    (h : xs.mapM f = .error e) : ∃ x ∈ xs, f x = .error e := by
  induction xs with
  | nil => cases h
  | cons x xs ih =>
      rw [List.mapM_cons] at h
      rcases bind_eq_error.mp h with hx | ⟨y, -, h⟩
      · exact ⟨x, List.mem_cons_self, hx⟩
      · rcases bind_eq_error.mp h with hxs | ⟨ys, -, h⟩
        · obtain ⟨z, hz, he⟩ := ih hxs
          exact ⟨z, List.mem_cons_of_mem _ hz, he⟩
        · cases h

/-! ### A step for every item of a list -/

theorem mapM_eq_ok {f : α → Except ε β} {xs : List α} {ys : List β} :
    xs.mapM f = .ok ys ↔ List.Forall₂ (fun x y => f x = .ok y) xs ys := by
  induction xs generalizing ys with
  | nil =>
      rw [List.mapM_nil, pure_eq_ok, List.forall₂_nil_left_iff, Except.ok.injEq]
      exact eq_comm
  | cons x xs ih =>
      rw [List.mapM_cons, bind_eq_ok]
      constructor
      · rintro ⟨y, hy, h⟩
        obtain ⟨zs, hzs, h⟩ := bind_eq_ok.mp h
        rw [pure_eq_ok, Except.ok.injEq] at h
        rw [← h]
        exact .cons hy (ih.mp hzs)
      · intro h
        cases h with
        | cons hy hys => exact ⟨_, hy, bind_eq_ok.mpr ⟨_, ih.mpr hys, rfl⟩⟩

theorem forM_eq_ok {f : α → Except ε Unit} {xs : List α} {u : Unit} :
    xs.forM f = .ok u ↔ ∀ x ∈ xs, f x = .ok () := by
  induction xs with
  | nil => simp [pure_eq_ok]
  | cons x xs ih =>
      have hrun : (x :: xs).forM f = (f x >>= fun _ => xs.forM f) := rfl
      rw [hrun, bind_eq_ok, List.forall_mem_cons, ← ih]
      constructor
      · rintro ⟨_, hx, hxs⟩
        exact ⟨hx, hxs⟩
      · rintro ⟨hx, hxs⟩
        exact ⟨(), hx, hxs⟩

/-- In two lists side by side, every member of the second has its partner in the first. -/
theorem exists_of_forall₂ {r : α → β → Prop} {xs : List α} {ys : List β}
    (h : List.Forall₂ r xs ys) : ∀ y ∈ ys, ∃ x ∈ xs, r x y := by
  induction h with
  | nil => simp
  | cons hxy _ ih =>
      intro y hy
      rcases List.mem_cons.mp hy with rfl | hy
      · exact ⟨_, List.mem_cons_self, hxy⟩
      · obtain ⟨x, hx, hpair⟩ := ih y hy
        exact ⟨x, List.mem_cons_of_mem _ hx, hpair⟩

/-- The results of a run over a list meet whatever each single result meets. -/
theorem forall_of_mapM_eq_ok {f : α → Except ε β} {xs : List α} {ys : List β} {p : β → Prop}
    (h : xs.mapM f = .ok ys) (hp : ∀ x ∈ xs, ∀ y, f x = .ok y → p y) : ∀ y ∈ ys, p y := by
  intro y hy
  obtain ⟨x, hx, hxy⟩ := exists_of_forall₂ (mapM_eq_ok.mp h) y hy
  exact hp x hx y hxy

/-- Where a run over a list came through, each of its steps did. -/
theorem exists_of_mapM_eq_ok {f : α → Except ε β} {xs : List α} {ys : List β}
    (h : xs.mapM f = .ok ys) : ∀ x ∈ xs, ∃ y ∈ ys, f x = .ok y :=
  exists_of_forall₂ (mapM_eq_ok.mp h).flip

theorem mapM_congr {f g : α → Except ε β} {xs : List α} (h : ∀ x ∈ xs, f x = g x) :
    xs.mapM f = xs.mapM g := by
  induction xs with
  | nil => rfl
  | cons x xs ih =>
      rw [List.forall_mem_cons] at h
      rw [List.mapM_cons, List.mapM_cons, h.1, ih h.2]

/-- A run over a list comes through if every single step does. -/
theorem exists_mapM_eq_ok {f : α → Except ε β} {xs : List α}
    (h : ∀ x ∈ xs, ∃ y, f x = .ok y) : ∃ ys, xs.mapM f = .ok ys := by
  induction xs with
  | nil => exact ⟨[], rfl⟩
  | cons x xs ih =>
      obtain ⟨y, hy⟩ := h x List.mem_cons_self
      obtain ⟨ys, hys⟩ := ih fun z hz => h z (List.mem_cons_of_mem _ hz)
      exact ⟨y :: ys, mapM_eq_ok.mpr (.cons hy (mapM_eq_ok.mp hys))⟩

/-- If each step of a run has its counterpart in another run, with the same image, then so has the
whole. -/
theorem exists_mapM_of_each {γ : Type} {f g : α → Except ε β} {image : β → γ} {xs : List α}
    {ys : List β}
    (hstep : ∀ x ∈ xs, ∀ y, f x = .ok y → ∃ y', g x = .ok y' ∧ image y' = image y)
    (h : xs.mapM f = .ok ys) : ∃ ys', xs.mapM g = .ok ys' ∧ ys'.map image = ys.map image := by
  have hall := mapM_eq_ok.mp h
  clear h
  induction hall with
  | nil => exact ⟨[], rfl, rfl⟩
  | cons hxy _ ih =>
      rw [List.forall_mem_cons] at hstep
      obtain ⟨y', hy', himage⟩ := hstep.1 _ hxy
      obtain ⟨ys', hys', himages⟩ := ih hstep.2
      refine ⟨y' :: ys', mapM_eq_ok.mpr (.cons hy' (mapM_eq_ok.mp hys')), ?_⟩
      rw [List.map_cons, List.map_cons, himage, himages]

/-! ### What a chain gives -/

/-- Whatever the step gives meets the condition. -/
def Gives (x : Except ε α) (p : α → Prop) : Prop :=
  ∀ a, x = .ok a → p a

namespace Gives

variable {x : Except ε α} {f : α → Except ε β} {p : α → Prop} {q : β → Prop}

theorem ret {a : α} (h : p a) : Gives (pure a : Except ε α) p := by
  rintro _ ⟨⟩
  exact h

theorem error {e : ε} : Gives (throw e : Except ε α) p := by
  rintro _ ⟨⟩

/-- A step of which nothing is needed. -/
theorem any : Gives x fun _ => True :=
  fun _ _ => trivial

theorem bind (hx : Gives x p) (hf : ∀ a, p a → Gives (f a) q) : Gives (x >>= f) q := by
  intro b hb
  obtain ⟨a, ha, hb⟩ := bind_eq_ok.mp hb
  exact hf a (hx a ha) b hb

/-- Nothing comes behind an error. -/
theorem error_bind {e : ε} : Gives ((throw e : Except ε α) >>= f) q := by
  rintro _ ⟨⟩

/-- `bind` behind a step of which nothing is needed. -/
theorem step (hf : ∀ a, Gives (f a) q) : Gives (x >>= f) q :=
  any.bind fun a _ => hf a

theorem map {g : α → β} (hx : Gives x fun a => q (g a)) : Gives (x.map g) q := by
  intro b hb
  obtain ⟨a, ha, rfl⟩ := map_eq_ok.mp hb
  exact hx a ha

theorem mapM {xs : List α} (h : ∀ x ∈ xs, Gives (f x) q) :
    Gives (xs.mapM f) fun ys => ∀ y ∈ ys, q y :=
  fun _ hys => forall_of_mapM_eq_ok hys h

end Gives

end Screenwright.Steps
