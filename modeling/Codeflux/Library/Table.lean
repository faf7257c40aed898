import Codeflux.Library.Outcome
import Mathlib.Data.List.Pairwise
import Mathlib.Data.List.Sort

/-!
# Tables with constraints

A table is a list of rows under a schema: a condition on each row, and a condition that keeps two
rows apart. It carries the proof that its rows meet both, and an insert or an update that would
break one is refused.
-/

namespace Codeflux.Library

open List

/-- The constraints on the rows of a table. -/
structure Schema (α : Type*) where
  /-- The condition a single row has to meet. -/
  check : α → Bool
  /-- Two rows that the keys of the table keep apart. -/
  conflict : α → α → Bool
  conflict_comm : ∀ a b, conflict a b = conflict b a

/-- Which constraint a write would break. -/
inductive Violation
  | check
  | unique

/-- Rows that meet a schema. -/
@[ext] structure Table {α : Type*} (S : Schema α) where
  rows : List α
  checked : ∀ r ∈ rows, S.check r = true
  distinct : rows.Pairwise fun a b => S.conflict a b = false

namespace Table

variable {α : Type*} {S : Schema α}

/-- The table without rows. -/
def empty : Table S := ⟨[], by simp, List.Pairwise.nil⟩

@[simp] theorem empty_rows : (empty : Table S).rows = [] := rfl

/-- A row that the table can take in. -/
def Admits (t : Table S) (r : α) : Prop :=
  S.check r = true ∧ ∀ a ∈ t.rows, S.conflict a r = false

/-- Insert a row, or say which constraint it breaks. -/
def insert (t : Table S) (r : α) : Except Violation (Table S) :=
  if hc : S.check r = true then
    if hu : ∀ a ∈ t.rows, S.conflict a r = false then
      .ok {
        rows := t.rows ++ [r]
        checked := by
          intro a ha
          rcases mem_append.1 ha with ha | ha
          · exact t.checked a ha
          · rwa [mem_singleton.1 ha]
        distinct := by
          refine pairwise_append.2 ⟨t.distinct, pairwise_singleton _ _, ?_⟩
          intro a ha b hb
          rw [mem_singleton.1 hb]
          exact hu a ha }
    else .error .unique
  else .error .check

variable {t t' : Table S} {r a : α} {f : α → α} {p : α → Bool}

/-- An insert succeeds exactly when the row is admissible, and appends it. -/
theorem insert_ok_iff : t.insert r = .ok t' ↔ t.Admits r ∧ t'.rows = t.rows ++ [r] := by
  unfold insert Admits
  split_ifs with hc hu
  · constructor
    · intro h
      cases h
      exact ⟨⟨hc, hu⟩, rfl⟩
    · rintro ⟨_, hrows⟩
      exact congrArg Except.ok (Table.ext hrows.symm)
  · simp [hc, hu]
  · simp [hc]

theorem insert_of_admits (h : t.Admits r) :
    ∃ t', t.insert r = .ok t' ∧ t'.rows = t.rows ++ [r] := by
  unfold insert
  exact ⟨_, by rw [dif_pos h.1, dif_pos h.2], rfl⟩

/-- Map the rows of a table, or say which constraint the result would break. -/
def update [DecidableEq α] (t : Table S) (f : α → α) : Except Violation (Table S) :=
  if hc : ∀ r ∈ t.rows.map f, S.check r = true then
    if hu : (t.rows.map f).Pairwise fun a b => S.conflict a b = false then
      .ok ⟨t.rows.map f, hc, hu⟩
    else .error .unique
  else .error .check

theorem update_ok [DecidableEq α] (h : t.update f = .ok t') : t'.rows = t.rows.map f := by
  unfold update at h
  split_ifs at h
  cases h
  rfl

/-- An update that leaves the keys alone succeeds once the new rows meet the row condition. -/
theorem update_of_keys [DecidableEq α] (hc : ∀ r ∈ t.rows, S.check (f r) = true)
    (hk : ∀ a b, S.conflict (f a) (f b) = S.conflict a b) :
    ∃ t', t.update f = .ok t' ∧ t'.rows = t.rows.map f := by
  have hc' : ∀ r ∈ t.rows.map f, S.check r = true := by
    intro r hr
    obtain ⟨a, ha, rfl⟩ := mem_map.1 hr
    exact hc a ha
  have hu : (t.rows.map f).Pairwise fun a b => S.conflict a b = false := by
    rw [pairwise_map]
    exact t.distinct.imp fun h => by rw [hk]; exact h
  exact ⟨⟨t.rows.map f, hc', hu⟩, by rw [update, dif_pos hc', dif_pos hu], rfl⟩

theorem eq_of_conflict {b : α} (ha : a ∈ t.rows) (hb : b ∈ t.rows) (hab : S.conflict a b = true) :
    a = b := by
  by_contra hne
  have : Std.Symm fun a b => S.conflict a b = false :=
    ⟨fun a b h => by rw [S.conflict_comm]; exact h⟩
  have hfalse := t.distinct.forall ha hb hne
  rw [hab] at hfalse
  cases hfalse

theorem filter_eq_singleton (ha : a ∈ t.rows) (hp : p a)
    (hkey : ∀ a b, p a → p b → S.conflict a b = true) : t.rows.filter p = [a] := by
  have hmem : a ∈ t.rows.filter p := mem_filter.2 ⟨ha, hp⟩
  have hpair : (t.rows.filter p).Pairwise fun _ _ => False :=
    (t.distinct.filter p).imp_of_mem fun hb hc hfalse => by
      rw [hkey _ _ (mem_filter.1 hb).2 (mem_filter.1 hc).2] at hfalse
      cases hfalse
  generalize t.rows.filter p = rows at hmem hpair
  match rows with
  | [] => cases hmem
  | [b] => rw [mem_singleton.1 hmem]
  | b :: c :: rest => exact ((pairwise_cons.1 hpair).1 c mem_cons_self).elim

theorem find_eq_some (ha : a ∈ t.rows) (hp : p a) (hkey : ∀ a b, p a → p b → S.conflict a b = true)
    : t.rows.find? p = some a := by
  rw [← head?_filter, filter_eq_singleton ha hp hkey]
  rfl

theorem find_eq_some_iff (hkey : ∀ a b, p a → p b → S.conflict a b = true) :
    t.rows.find? p = some a ↔ a ∈ t.rows ∧ p a :=
  ⟨fun h => ⟨mem_of_find?_eq_some h, find?_some h⟩,
    fun h => find_eq_some h.1 h.2 hkey⟩

end Table

/-- The rows in ascending order of a creation time, and of their identifiers where the times
agree. -/
def orderBy {α : Type*} (time : α → Int) (id : α → String) (rows : List α) : List α :=
  rows.insertionSort fun a b => time a < time b ∨ time a = time b ∧ id a ≤ id b

theorem orderBy_perm {α : Type*} (time : α → Int) (id : α → String) (rows : List α) :
    (orderBy time id rows).Perm rows :=
  perm_insertionSort _ rows

@[simp] theorem mem_orderBy {α : Type*} {time : α → Int} {id : α → String} {rows : List α}
    {a : α} : a ∈ orderBy time id rows ↔ a ∈ rows :=
  (orderBy_perm time id rows).mem_iff

end Codeflux.Library
