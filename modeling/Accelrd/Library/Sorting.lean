import Mathlib.Data.List.Sort
import Mathlib.Order.Basic

/-!
Lists that are put in the order of a key.

* `insertionSort_eq_of_perm`: what has pairwise different keys comes out the same, in
  whatever order it is handed in.
-/

namespace Sorting

variable {α κ : Type} [LinearOrder κ] (key : α → κ)

/-- What has pairwise different keys has one order. -/
lemma insertionSort_eq_of_perm {l l' : List α} (h : l'.Perm l)
    (hl : l.Pairwise fun a b => key a < key b) :
    l'.insertionSort (fun a b => key a ≤ key b) = l := by
  have hsorted : (l'.insertionSort fun a b => key a ≤ key b).Pairwise fun a b => key a ≤ key b :=
    have : Std.Total fun a b => key a ≤ key b := ⟨fun a b => le_total (key a) (key b)⟩
    have : IsTrans α fun a b => key a ≤ key b := ⟨fun _ _ _ => le_trans⟩
    List.pairwise_insertionSort _ l'
  have hperm := (List.perm_insertionSort (fun a b => key a ≤ key b) l').trans h
  refine List.Perm.eq_of_pairwise (fun a b ha hb hab hba => ?_) hsorted (hl.imp le_of_lt) hperm
  have hnodup : (l.map key).Nodup := List.pairwise_map.mpr (hl.imp fun hlt => hlt.ne)
  exact List.inj_on_of_nodup_map hnodup (hperm.mem_iff.mp ha) hb (le_antisymm hab hba)

section Cmp

variable {cmp : α → α → Ordering} [Std.TransCmp cmp]

/-- A sort by a comparison puts the list in its order. -/
lemma pairwise_insertionSort_cmp (l : List α) :
    (l.insertionSort fun a b => cmp a b ≠ .gt).Pairwise fun a b => cmp a b ≠ .gt := by
  have hle {a b : α} : cmp a b ≠ .gt ↔ (cmp a b).isLE := Ordering.isLE_iff_ne_gt.symm
  have : Std.Total fun a b => cmp a b ≠ .gt := by
    refine ⟨fun a b => or_iff_not_imp_left.mpr fun hab => ?_⟩
    rw [Std.OrientedCmp.gt_iff_lt.mp (not_not.mp hab)]
    decide
  have : IsTrans α fun a b => cmp a b ≠ .gt :=
    ⟨fun a b c hab hbc => hle.mpr (Std.TransCmp.isLE_trans (hle.mp hab) (hle.mp hbc))⟩
  exact List.pairwise_insertionSort _ l

/-- What a comparison tells apart has one order. -/
lemma insertionSort_cmp_eq_of_perm {l l' : List α}
    (h : l'.Perm l) (heq : ∀ a ∈ l, ∀ b ∈ l, cmp a b = .eq → a = b) :
    (l'.insertionSort fun a b => cmp a b ≠ .gt) = l.insertionSort fun a b => cmp a b ≠ .gt := by
  refine List.Perm.eq_of_pairwise (fun a b ha hb hab hba => ?_) (pairwise_insertionSort_cmp l')
    (pairwise_insertionSort_cmp l)
    (((List.perm_insertionSort _ l').trans h).trans (List.perm_insertionSort _ l).symm)
  have ha' := h.mem_iff.mp ((List.perm_insertionSort _ l').mem_iff.mp ha)
  have hb' := (List.perm_insertionSort _ l).mem_iff.mp hb
  refine heq a ha' b hb' ?_
  cases hcmp : cmp a b with
  | lt => exact absurd (Std.OrientedCmp.gt_iff_lt.mpr hcmp) hba
  | eq => rfl
  | gt => exact absurd hcmp hab

end Cmp

end Sorting
