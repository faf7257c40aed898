import Mathlib.Algebra.Order.BigOperators.Group.List
import Mathlib.Data.List.Nodup

/-!
# Sums over rows

Rows joined with the entry they refer to are summed entry by entry. A second part is about running
totals that have to stay within a range while the terms are added one by one.
-/

namespace Codeflux.Library

variable {α β κ M : Type*}

section AddCommMonoid

variable [AddCommMonoid M]

theorem sum_filter (p : α → Bool) (f : α → M) :
    (l : List α) → ((l.filter p).map f).sum = (l.map fun a => if p a then f a else 0).sum
  | [] => rfl
  | a :: l => by
    by_cases h : p a
    all_goals simp [h, sum_filter p f l]

/-- Over entries with distinct keys, the term of the one entry with the key `k` is the whole sum. -/
theorem sum_of_key [DecidableEq κ] (key : α → κ) (k : κ) (f : α → M) (l : List α)
    (hl : (l.map key).Nodup) :
    (l.map fun a => if k = key a then f a else 0).sum =
      ((l.find? fun a => decide (key a = k)).map f).getD 0 := by
  induction l with
  | nil => rfl
  | cons a l ih =>
    obtain ⟨hne, hl⟩ := List.nodup_cons.1 hl
    by_cases ha : key a = k
    · have hrest : (l.map fun b => if k = key b then f b else 0) = l.map fun _ => (0 : M) := by
        refine List.map_congr_left fun b hb => if_neg ?_
        rintro rfl
        exact hne (ha ▸ List.mem_map_of_mem hb)
      simp [ha, hrest]
    · simp [ha, Ne.symm ha, ih hl]

/-- Rows joined with the entry of the same key, and summed, regrouped by entry. -/
theorem sum_join [DecidableEq κ] (keyOf : α → κ) (key : β → κ) (f : β → α → M) (entries : List α)
    (hd : (entries.map keyOf).Nodup) (rows : List β) :
    ((rows.filterMap fun row =>
        (entries.find? fun a => decide (keyOf a = key row)).map (row, ·)).map
          fun p => f p.1 p.2).sum =
      (entries.map fun a => ((rows.filter fun row => decide (key row = keyOf a)).map
        (f · a)).sum).sum := by
  induction rows with
  | nil => simp
  | cons row rows ih =>
    have hsplit : (entries.map fun a =>
          (((row :: rows).filter fun row => decide (key row = keyOf a)).map (f · a)).sum) =
        entries.map fun a => (if key row = keyOf a then f row a else 0) +
          ((rows.filter fun row => decide (key row = keyOf a)).map (f · a)).sum := by
      refine List.map_congr_left fun a _ => ?_
      by_cases h : key row = keyOf a <;> simp [h]
    rw [hsplit, List.sum_map_add, sum_of_key keyOf (key row) (f row) entries hd, ← ih]
    cases h : entries.find? fun a => decide (keyOf a = key row) with
    | none | some a => simp [h]

end AddCommMonoid

/-- Every partial sum of the list, added to the start value, meets the condition. -/
def PartialSums [Add M] (fits : M → Prop) : M → List M → Prop
  | _, [] => True
  | start, a :: l => fits (start + a) ∧ PartialSums fits (start + a) l

@[simp] theorem partialSums_nil [Add M] (fits : M → Prop) (start : M) :
    PartialSums fits start [] ↔ True := Iff.rfl

@[simp] theorem partialSums_cons [Add M] (fits : M → Prop) (start a : M) (l : List M) :
    PartialSums fits start (a :: l) ↔ fits (start + a) ∧ PartialSums fits (start + a) l :=
  Iff.rfl

theorem partialSums_append [AddMonoid M] (fits : M → Prop) (start : M) (l m : List M) :
    PartialSums fits start (l ++ m) ↔
      PartialSums fits start l ∧ PartialSums fits (start + l.sum) m := by
  induction l generalizing start with
  | nil => simp
  | cons a l ih => simp [ih, add_assoc, and_assoc]

end Codeflux.Library
