import Mathlib.Data.List.Sort

/-!
# Sorting by a key

Where the keys are distinct the result does not depend on the order of the list, nor on the sorting
algorithm.
-/

namespace Codeflux.Library

variable {α κ : Type*} [LinearOrder κ] (key : α → κ) {l l' : List α}

/-- The elements in ascending order of their keys. -/
def sortOn (l : List α) : List α := l.insertionSort fun a b => key a ≤ key b

theorem sortOn_perm (l : List α) : (sortOn key l).Perm l := List.perm_insertionSort _ l

theorem mem_sortOn {a : α} : a ∈ sortOn key l ↔ a ∈ l := (sortOn_perm key l).mem_iff

@[simp] theorem length_sortOn (l : List α) : (sortOn key l).length = l.length :=
  (sortOn_perm key l).length_eq

@[simp] theorem isEmpty_sortOn (l : List α) : (sortOn key l).isEmpty = l.isEmpty := by
  rw [Bool.eq_iff_iff, List.isEmpty_iff_length_eq_zero, List.isEmpty_iff_length_eq_zero,
    length_sortOn]

theorem pairwise_sortOn (l : List α) : (sortOn key l).Pairwise (key · ≤ key ·) :=
  List.pairwise_insertionSort _ l

theorem sortOn_of_ascending (h : l.Pairwise (key · ≤ key ·)) : sortOn key l = l :=
  List.Pairwise.insertionSort_eq h

theorem sortOn_sortOn (l : List α) : sortOn key (sortOn key l) = sortOn key l :=
  sortOn_of_ascending key (pairwise_sortOn key l)

theorem pairwise_lt_sortOn_iff : (sortOn key l).Pairwise (key · < key ·) ↔ (l.map key).Nodup := by
  have hnodup : (l.map key).Nodup ↔ (sortOn key l).Pairwise (key · ≠ key ·) := by
    rw [← ((sortOn_perm key l).map key).nodup_iff, List.Nodup, List.pairwise_map]
  rw [hnodup]
  constructor
  · exact fun h => h.imp fun hlt => hlt.ne
  · exact fun h => ((pairwise_sortOn key l).and h).imp fun ⟨hle, hne⟩ => lt_of_le_of_ne hle hne

/-- With distinct keys the result is determined by the elements. -/
theorem sortOn_eq_of_perm (hkeys : (l.map key).Nodup) (h : l.Perm l') :
    sortOn key l = sortOn key l' := by
  have hperm : (sortOn key l).Perm (sortOn key l') :=
    (sortOn_perm key l).trans (h.trans (sortOn_perm key l').symm)
  refine hperm.eq_of_pairwise (fun a b ha hb hab hba => ?_) (pairwise_sortOn key l)
    (pairwise_sortOn key l')
  exact List.inj_on_of_nodup_map hkeys ((mem_sortOn key).1 ha)
    (h.mem_iff.2 ((mem_sortOn key).1 hb)) (le_antisymm hab hba)

end Codeflux.Library
