import Mathlib.Data.List.AList

/-!
# Assembling keyed fragments

Fragments of several things arrive in any order, each with the key of the thing it belongs to. What
the table holds for a key depends only on the fragments of that key and their order among
themselves.
-/

namespace Codeflux.Library

variable {κ φ τ : Type} [DecidableEq κ] (key : φ → κ) (init : τ) (step : τ → φ → τ)

variable (table : AList fun _ : κ => τ)

theorem lookup_insert_eq (a k : κ) (entry : τ) :
    (table.insert a entry).lookup k = if k = a then some entry else table.lookup k := by
  split_ifs with h
  · rw [h, AList.lookup_insert]
  · exact AList.lookup_insert_ne h

theorem forall_lookup_insert {table : AList fun _ : κ => τ} {P : κ → τ → Prop} {a : κ} {entry : τ}
    (h : ∀ k e, table.lookup k = some e → P k e) (hnew : P a entry) :
    ∀ k e, (table.insert a entry).lookup k = some e → P k e := by
  intro k e he
  rw [lookup_insert_eq] at he
  split_ifs at he with hk
  · cases he
    exact hk ▸ hnew
  · exact h k e he

/-- Add one fragment to the entry of its key. -/
def assemble (fragment : φ) : AList fun _ : κ => τ :=
  table.insert (key fragment) (step ((table.lookup (key fragment)).getD init) fragment)

/-- **The entry of a key is made from its own fragments, whatever stands between them.** -/
theorem lookup_foldl_assemble (fragments : List φ) (k : κ) :
    (fragments.foldl (assemble key init step) table).lookup k =
      if fragments.filter (key · = k) = [] then table.lookup k
      else some ((fragments.filter (key · = k)).foldl step ((table.lookup k).getD init)) := by
  induction fragments generalizing table with
  | nil => rfl
  | cons fragment rest ih =>
    rw [List.foldl_cons, ih]
    by_cases hkey : key fragment = k
    · subst hkey
      have hlookup : (assemble key init step table fragment).lookup (key fragment) =
          some (step ((table.lookup (key fragment)).getD init) fragment) := AList.lookup_insert _
      rw [hlookup, List.filter_cons_of_pos (by simp), List.foldl_cons]
      split_ifs with hrest hcons
      · exact absurd hcons (by simp)
      · rw [hrest, List.foldl_nil]
      · exact absurd ‹_› (by simp)
      · rfl
    · have hlookup : (assemble key init step table fragment).lookup k = table.lookup k :=
        AList.lookup_insert_ne (Ne.symm hkey)
      rw [hlookup, List.filter_cons_of_neg (by simpa using hkey)]

theorem mem_foldl_assemble (fragments : List φ) (k : κ) :
    k ∈ fragments.foldl (assemble key init step) table ↔
      k ∈ table ∨ ∃ fragment ∈ fragments, key fragment = k := by
  induction fragments generalizing table with
  | nil => simp
  | cons fragment rest ih =>
    rw [List.foldl_cons, ih, assemble, AList.mem_insert, List.exists_mem_cons_iff, eq_comm]
    tauto

end Codeflux.Library
