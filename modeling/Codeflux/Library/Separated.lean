import Mathlib.Data.List.Basic
import Mathlib.Data.List.Count

/-!
# Fields written with a separator between them

A field may hold the separator itself, so what a reader can recover is the sequence of *segments*:
the fields cut at every separator. The fields are determined by the segments together with the
number of separators in each field.
-/

namespace Codeflux.Library

open List

variable {α : Type*} [DecidableEq α] {sep : α} {xs ys xs' ys' : List (List α)}

/-- The fields, each cut at its separators. -/
def segments (sep : α) (fields : List (List α)) : List (List α) :=
  fields.flatMap (List.splitOn sep)

/-- How often the separator occurs in each field. -/
def marks (sep : α) (fields : List (List α)) : List Nat := fields.map (List.count sep)

@[simp] theorem segments_nil : segments sep ([] : List (List α)) = [] := rfl

@[simp] theorem segments_cons (x : List α) (xs : List (List α)) :
    segments sep (x :: xs) = x.splitOn sep ++ segments sep xs := rfl

@[simp] theorem marks_cons (x : List α) (xs : List (List α)) :
    marks sep (x :: xs) = x.count sep :: marks sep xs := rfl

theorem segments_of_not_mem (h : ∀ x ∈ xs, sep ∉ x) : segments sep xs = xs := by
  induction xs with
  | nil => rfl
  | cons x xs ih =>
    rw [forall_mem_cons] at h
    rw [segments_cons, splitOn_eq_singleton h.1, ih h.2]
    rfl

omit [DecidableEq α] in
theorem intercalate_cons_eq_flatMap (sep : α) (x : List α) (xs : List (List α)) :
    [sep].intercalate (x :: xs) = x ++ xs.flatMap (sep :: ·) := by
  induction xs generalizing x with
  | nil => simp [List.intercalate]
  | cons y ys ih =>
    rw [intercalate_cons_cons, ih y]
    simp

theorem splitOn_intercalate_eq_segments (hne : xs ≠ []) :
    List.splitOn sep ([sep].intercalate xs) = segments sep xs := by
  induction xs with
  | nil => exact absurd rfl hne
  | cons x xs ih =>
    cases xs with
    | nil => simp [List.intercalate]
    | cons y ys =>
      rw [intercalate_cons_cons, append_assoc, singleton_append,
        splitOn_append_cons_self, ih (by simp), segments_cons x]

theorem splitOn_injective (sep : α) : Function.Injective (List.splitOn sep) := by
  intro x y h
  have hjoined := congrArg [sep].intercalate h
  rwa [intercalate_splitOn, intercalate_splitOn] at hjoined

theorem intercalate_eq_iff (hxs : xs ≠ []) (hys : ys ≠ []) :
    [sep].intercalate xs = [sep].intercalate ys ↔ segments sep xs = segments sep ys := by
  rw [← splitOn_intercalate_eq_segments hxs, ← splitOn_intercalate_eq_segments hys]
  exact (splitOn_injective sep).eq_iff.symm

theorem length_splitOn (x : List α) : (x.splitOn sep).length = x.count sep + 1 := by
  induction x with
  | nil => simp
  | cons a x ih =>
    rw [splitOn_cons_eq_if_modifyHead, count_cons]
    split_ifs <;> simp [ih]

/-- Fields with the same numbers of separators are read off the front of the segments. -/
theorem eq_of_segments_append (hmarks : marks sep xs = marks sep ys)
    (h : segments sep (xs ++ xs') = segments sep (ys ++ ys')) :
    xs = ys ∧ segments sep xs' = segments sep ys' := by
  induction xs generalizing ys with
  | nil =>
    cases ys with
    | nil => exact ⟨rfl, h⟩
    | cons y ys => simp [marks] at hmarks
  | cons x xs ih =>
    cases ys with
    | nil => simp [marks] at hmarks
    | cons y ys =>
      rw [marks_cons, marks_cons, List.cons.injEq] at hmarks
      rw [cons_append, cons_append, segments_cons, segments_cons] at h
      have hlength : (x.splitOn sep).length = (y.splitOn sep).length := by
        rw [length_splitOn, length_splitOn, hmarks.1]
      obtain ⟨hsplit, hrest⟩ := append_inj h hlength
      obtain ⟨rfl, hlast⟩ := ih hmarks.2 hrest
      exact ⟨by rw [splitOn_injective sep hsplit], hlast⟩

end Codeflux.Library
