/-
Checked trees are lowered.

Lowering goes through a tree in another order than the checks do: the content of a node
before its modifiers, and what is presented from a node after both.  The uses are still
the uses of the elements, each of them once, because the children of a node are split
into content and presentations and neither part is passed over.
-/
import Screenwright.Proofs.Lowering.Components

namespace Screenwright

/-- What an element needs of its surroundings: the paths that its animations watch are in
scope, and its uses are fine. -/
structure Setting.Suits (s : Setting) (φ : String → HandlerParams) (e : Element) : Prop where
  animations : ∀ path ∈ e.animationPaths, ∃ bound, s.scope.lookup path = .ok bound
  uses : ∀ use ∈ e.uses, s.Fine φ use

namespace Tree

theorem preorderAll_eq_flatMap {α : Type} (ts : List (Tree α)) :
    preorderAll ts = ts.flatMap preorder := by
  induction ts with
  | nil => rfl
  | cons t ts ih => rw [preorderAll, List.flatMap_cons, ih]

/-- The uses of the elements of a tree, in pre-order. -/
def uses (t : Tree Element) : List Use :=
  t.preorder.flatMap Element.uses

/-- The uses of the trees that stand in the content of their parent. -/
def contentUses (ts : List (Tree Element)) : List Use :=
  (ts.filter fun t => !t.value.kind.isPresentation).flatMap uses

/-- The uses of the trees that are presented from their parent. -/
def presentedUses (ts : List (Tree Element)) : List Use :=
  (ts.filter fun t => t.value.kind.isPresentation).flatMap uses

theorem uses_node (e : Element) (ts : List (Tree Element)) :
    uses (node e ts) = e.uses ++ ts.flatMap uses := by
  rw [uses, preorder, List.flatMap_cons, preorderAll_eq_flatMap, List.flatMap_assoc]
  rfl

/-- Splitting the children loses no use and adds none. -/
theorem perm_split (ts : List (Tree Element)) :
    (contentUses ts ++ presentedUses ts).Perm (ts.flatMap uses) := by
  rw [contentUses, presentedUses, ← List.flatMap_append]
  refine List.Perm.flatMap_right uses ?_
  refine List.perm_append_comm.trans ?_
  exact List.filter_append_perm _ ts

end Tree

namespace Setting

open Screenwright.Tree

variable {s : Setting} {φ : String → HandlerParams}

mutual

/-- **A checked tree is lowered, with the uses of its elements and no others.** -/
theorem lowers_tree (hready : s.Ready) :
    ∀ t : Tree Element, t.Checked → (∀ e ∈ t.preorder, s.Suits φ e) →
    (t.value.kind.isPresentation = false → Lowers s φ (lower s t) t.uses) ∧
      (t.value.kind.isPresentation = true → Lowers s φ (present s t) t.uses)
  | node e ts, hchecked, hsuits => by
    obtain ⟨⟨info, he, hwidth⟩, hall⟩ := hchecked
    have hself : s.Suits φ e := hsuits e List.mem_cons_self
    obtain ⟨hcontent, hpresented⟩ :=
      lowers_trees hready ts hall fun e he => hsuits e (List.mem_cons_of_mem _ he)
    have huser : Lowers s φ (s.userModifiers e) e.modifierUses :=
      lowers_userModifiers hready (fun m hm => (he.modifiers m hm).2) hself.animations
        fun use huse => hself.uses use (List.mem_append_right _ huse)
    have hprops : ∀ use ∈ e.propUses, s.Fine φ use :=
      fun use huse => hself.uses use (List.mem_append_left _ huse)
    have hnone : info.children = .none → contentUses ts = [] ∧ presentedUses ts = [] := by
      intro hchildren
      rw [hchildren] at hwidth
      have hnil : ts = [] := by simpa [ChildPolicy.accepts] using hwidth
      rw [hnil]
      exact ⟨rfl, rfl⟩
    have hperm : (e.uses ++ (contentUses ts ++ presentedUses ts)).Perm (node e ts).uses := by
      rw [uses_node]
      exact (perm_split ts).append_left e.uses
    refine ⟨fun hview => ?_, fun hpresentation => ?_⟩
    · have hbase := lowers_component hready he hcontent (fun h => (hnone h).1) hprops hview
      have hlower : Lowers s φ (lower s (node e ts))
          (e.propUses ++ contentUses ts ++ (e.modifierUses ++ presentedUses ts)) :=
        hbase.bind fun _ => huser.bind fun _ => hpresented.bind_ret
      refine (hlower.perm ?_).perm hperm
      -- The content comes between the properties and the modifiers of the element.
      simp only [Element.uses, List.append_assoc]
      refine List.Perm.append_left _ ?_
      simp only [← List.append_assoc]
      exact List.perm_append_comm.append_right _
    · exact (lowers_presentation he hcontent huser hpresented hnone hprops hpresentation).perm hperm

/-- `lowers_tree` for the children of a node. -/
theorem lowers_trees (hready : s.Ready) :
    ∀ ts : List (Tree Element), EachAll Element.IsChecked ts →
    (∀ e ∈ preorderAll ts, s.Suits φ e) →
    Lowers s φ (lowerContent s ts) (contentUses ts) ∧
      Lowers s φ (lowerPresented s ts) (presentedUses ts)
  | [], _, _ => ⟨.ret [], .ret []⟩
  | t :: ts, hchecked, hsuits => by
    obtain ⟨htree, hrest⟩ := hchecked
    obtain ⟨hview, hpresentation⟩ :=
      lowers_tree hready t htree fun e he => hsuits e (List.mem_append_left _ he)
    obtain ⟨hcontent, hpresented⟩ :=
      lowers_trees hready ts hrest fun e he => hsuits e (List.mem_append_right _ he)
    cases hkind : t.value.kind.isPresentation with
    | true =>
        have hskip : contentUses (t :: ts) = contentUses ts := by
          simp [contentUses, hkind]
        have htake : presentedUses (t :: ts) = t.uses ++ presentedUses ts := by
          simp [presentedUses, hkind]
        rw [lowerContent, lowerPresented, if_pos hkind, if_pos hkind, hskip, htake]
        exact ⟨hcontent, (hpresentation hkind).bind fun _ => hpresented.bind_ret⟩
    | false =>
        have hskip : presentedUses (t :: ts) = presentedUses ts := by
          simp [presentedUses, hkind]
        have htake : contentUses (t :: ts) = t.uses ++ contentUses ts := by
          simp [contentUses, hkind]
        have hno : ¬ t.value.kind.isPresentation = true := by simp [hkind]
        rw [lowerContent, lowerPresented, if_neg hno, if_neg hno, hskip, htake]
        exact ⟨(hview hkind).bind fun _ => hcontent.bind_ret, hpresented⟩

end

/-- The tree of a screen is lowered, whatever its root is. -/
theorem lowers_root (hready : s.Ready) (root : Tree Element) (hchecked : root.Checked)
    (hsuits : ∀ e ∈ root.preorder, s.Suits φ e) : Lowers s φ (lowerRoot s root) root.uses := by
  obtain ⟨hview, hpresentation⟩ := lowers_tree hready root hchecked hsuits
  unfold lowerRoot
  cases hkind : root.value.kind.isPresentation with
  | true => exact (hpresentation hkind).bind_ret
  | false => exact hview hkind

end Setting

end Screenwright
