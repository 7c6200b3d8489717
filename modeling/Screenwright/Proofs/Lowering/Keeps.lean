/-
What lowering keeps.

Lowering goes through a tree with a ledger in its hand.  `Keeps` says of a lowering that
whatever it gives meets a condition, and that a property of the ledger that held before it
holds afterwards.  It says nothing of a lowering that fails; there is one rule for each means
by which lowerings are put together.
-/
import Screenwright.Lowering.Ledger
import Screenwright.Proofs.Steps

namespace Screenwright

open Steps

/-- What the lowering gives meets the condition, and the ledger keeps its property. -/
def Keeps {α : Type} (inv : Ledger → Prop) (m : Build α) (p : α → Prop) : Prop :=
  ∀ ledger a after, inv ledger → m.run ledger = .ok (a, after) → p a ∧ inv after

namespace Keeps

variable {α β : Type} {inv : Ledger → Prop} {m : Build α} {f : α → Build β} {p : α → Prop}
  {q : β → Prop}

theorem ret {a : α} (h : p a) : Keeps inv (pure a) p := by
  rintro ledger _ _ hledger ⟨⟩
  exact ⟨h, hledger⟩

/-- A step that only reads. -/
theorem lift {x : Except BuildError α} (h : Gives x p) : Keeps inv (liftM x : Build α) p := by
  intro ledger a after hledger hrun
  cases x with
  | error e => cases hrun
  | ok b =>
      cases hrun
      exact ⟨h a rfl, hledger⟩

theorem error {e : BuildError} : Keeps inv (throw e : Build α) p := by
  rintro ledger a after _ ⟨⟩

theorem bind (hm : Keeps inv m p) (hf : ∀ a, p a → Keeps inv (f a) q) :
    Keeps inv (m >>= f) q := by
  intro ledger b after hledger hrun
  rw [StateT.run_bind] at hrun
  obtain ⟨⟨a, between⟩, hfirst, hrest⟩ := bind_eq_ok.mp hrun
  obtain ⟨ha, hbetween⟩ := hm ledger a between hledger hfirst
  exact hf a ha between b after hbetween hrest

theorem weaken {p' : α → Prop} (hm : Keeps inv m p) (h : ∀ a, p a → p' a) : Keeps inv m p' := by
  intro ledger a after hledger hrun
  obtain ⟨ha, hafter⟩ := hm ledger a after hledger hrun
  exact ⟨h a ha, hafter⟩

/-- `bind` behind a step that only reads, of which nothing is needed. -/
theorem step {x : Except BuildError α} (hf : ∀ a, Keeps inv (f a) q) :
    Keeps inv ((liftM x : Build α) >>= f) q :=
  (lift Gives.any).bind fun a _ => hf a

/-- Nothing comes behind an error. -/
theorem error_bind {e : BuildError} : Keeps inv ((throw e : Build α) >>= f) q :=
  Keeps.bind (p := fun _ => False) error fun _ h => h.elim

/-- A step that looks at the ledger. -/
theorem read {f : Ledger → Build β} (h : ∀ ledger, Keeps inv (f ledger) q) :
    Keeps inv (get >>= f) q := by
  intro ledger b after hledger hrun
  exact h ledger ledger b after hledger hrun

/-- A step that only writes. -/
theorem write {change : Ledger → Ledger} (h : ∀ ledger, inv ledger → inv (change ledger)) :
    Keeps inv (modify change) fun _ => True := by
  rintro ledger _ _ hledger ⟨⟩
  exact ⟨trivial, h ledger hledger⟩

theorem mapM {f : α → Build β} {xs : List α} (h : ∀ x ∈ xs, Keeps inv (f x) q) :
    Keeps inv (xs.mapM f) fun ys => ∀ y ∈ ys, q y := by
  induction xs with
  | nil =>
      rw [List.mapM_nil]
      exact ret (by simp)
  | cons x xs ih =>
      rw [List.forall_mem_cons] at h
      rw [List.mapM_cons]
      refine h.1.bind fun y hy => (ih h.2).bind fun ys hys => ret ?_
      rw [List.forall_mem_cons]
      exact ⟨hy, hys⟩

end Keeps

end Screenwright
