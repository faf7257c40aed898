import Mathlib.Data.List.Range

/-!
# Consecutively numbered lists

A list is numbered by a function that takes consecutive values on it. Selecting the elements above a
bound and cutting pages is then dropping and taking.
-/

namespace Codeflux.Library

open List

variable {α : Type*} {f : α → ℕ} {start : ℕ} {x : α} {xs ys : List α}

/-- The values of `f` on the list are consecutive, from `start` on. -/
def Numbered (f : α → ℕ) : ℕ → List α → Prop
  | _, [] => True
  | start, x :: xs => f x = start ∧ Numbered f (start + 1) xs

theorem numbered_append :
    Numbered f start (xs ++ ys) ↔ Numbered f start xs ∧ Numbered f (start + xs.length) ys := by
  induction xs generalizing start with
  | nil => simp [Numbered]
  | cons x xs ih =>
    rw [cons_append, Numbered, Numbered, ih, length_cons, and_assoc,
      Nat.add_right_comm, Nat.add_assoc]

theorem numbered_iff_map : Numbered f start xs ↔ xs.map f = List.range' start xs.length := by
  induction xs generalizing start with
  | nil => simp [Numbered]
  | cons x xs ih =>
    rw [Numbered, ih, map_cons, length_cons, List.range'_succ, List.cons.injEq]

namespace Numbered

section

variable (h : Numbered f start xs)

include h

theorem drop (n : ℕ) (hn : n ≤ xs.length) : Numbered f (start + n) (xs.drop n) := by
  rw [← take_append_drop n xs, numbered_append, length_take, Nat.min_eq_left hn] at h
  exact h.2

theorem take (n : ℕ) : Numbered f start (xs.take n) := by
  rw [← take_append_drop n xs, numbered_append] at h
  exact h.1

theorem bounds (hx : x ∈ xs) : start ≤ f x ∧ f x < start + xs.length := by
  induction xs generalizing start with
  | nil => cases hx
  | cons y ys ih =>
    rw [length_cons]
    rcases mem_cons.1 hx with rfl | hx
    · exact ⟨h.1.ge, by rw [h.1]; omega⟩
    · have := ih h.2 hx
      omega

theorem pairwise_lt : xs.Pairwise (f · < f ·) := by
  induction xs generalizing start with
  | nil => exact List.Pairwise.nil
  | cons y ys ih =>
    refine List.Pairwise.cons (fun z hz => ?_) (ih h.2)
    have := (bounds h.2 hz).1
    rw [h.1]
    omega

theorem filter_lt (bound : ℕ) : xs.filter (bound < f ·) = xs.drop (bound + 1 - start) := by
  induction xs generalizing start with
  | nil => simp
  | cons y ys ih =>
    by_cases hlow : start ≤ bound
    · rw [filter_cons_of_neg (by simpa [h.1] using hlow), ih h.2,
        show bound + 1 - start = (bound + 1 - (start + 1)) + 1 by omega, drop_succ_cons]
    · rw [filter_cons_of_pos (by simpa [h.1] using hlow), ih h.2,
        show bound + 1 - start = 0 by omega, show bound + 1 - (start + 1) = 0 by omega]
      rfl

end

end Numbered

end Codeflux.Library
