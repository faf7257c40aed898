import Mathlib.Data.List.Sublists

/-!
# Bounded queues that coalesce

While there is room an element is appended. When the queue is full an ephemeral element takes the
place of the last one of its own stream, or is dropped if there is none; any other element takes the
place of the first ephemeral one, and is refused if there is none.
-/

namespace Codeflux.Library

open List

/-- Which elements may be coalesced, and into which. -/
structure QueuePolicy (α : Type*) where
  ephemeral : α → Bool
  sameStream : α → α → Bool
  ephemeral_of_sameStream : ∀ {a b}, sameStream a b = true → ephemeral a = true

/-- The list without its first element that satisfies `p`, if it has one. -/
def removeFirst {α : Type*} (p : α → Bool) : List α → Option (List α)
  | [] => none
  | a :: as => if p a then some as else (removeFirst p as).map (a :: ·)

/-- The list without its last element that satisfies `p`, if it has one. -/
def removeLast {α : Type*} (p : α → Bool) (as : List α) : Option (List α) :=
  (removeFirst p as.reverse).map List.reverse

section Remove

variable {α : Type*} {p : α → Bool}

theorem removeFirst_eq_some {as bs : List α} (h : removeFirst p as = some bs) :
    ∃ front a back, p a = true ∧ as = front ++ a :: back ∧ bs = front ++ back := by
  induction as generalizing bs with
  | nil => simp [removeFirst] at h
  | cons a as ih =>
    unfold removeFirst at h
    split at h
    · next hp =>
      cases h
      exact ⟨[], a, as, hp, rfl, rfl⟩
    · obtain ⟨cs, hcs, rfl⟩ := Option.map_eq_some_iff.1 h
      obtain ⟨front, b, back, hb, rfl, rfl⟩ := ih hcs
      exact ⟨a :: front, b, back, hb, rfl, rfl⟩

theorem removeFirst_eq_none {as : List α} : removeFirst p as = none ↔ ∀ a ∈ as, p a = false := by
  induction as with
  | nil => simp [removeFirst]
  | cons a as ih =>
    unfold removeFirst
    split
    · next hp => simp [hp]
    · next hp => simp [ih, hp]

theorem removeLast_eq_some {as bs : List α} (h : removeLast p as = some bs) :
    ∃ front a back, p a = true ∧ as = front ++ a :: back ∧ bs = front ++ back := by
  obtain ⟨cs, hcs, rfl⟩ := Option.map_eq_some_iff.1 h
  obtain ⟨front, a, back, ha, has, rfl⟩ := removeFirst_eq_some hcs
  refine ⟨back.reverse, a, front.reverse, ha, ?_, reverse_append⟩
  rw [← reverse_reverse as, has, reverse_append, reverse_cons, append_assoc]
  rfl

end Remove

namespace QueuePolicy

variable {α : Type*} (P : QueuePolicy α) {capacity : ℕ} {queue rest xs : List α} {a : α}

/-- The queue after one offer, with whether the element counts as delivered and whether something
was coalesced. -/
def offer (capacity : ℕ) (queue : List α) (a : α) : List α × Bool × Bool :=
  if queue.length < capacity then (queue ++ [a], true, false)
  else if P.ephemeral a then
    match removeLast (P.sameStream · a) queue with
    | some rest => (rest ++ [a], true, true)
    | none => (queue, true, true)
  else
    match removeFirst P.ephemeral queue with
    | some rest => (rest ++ [a], true, true)
    | none => (queue, false, false)

/-- The elements that are not ephemeral. -/
def kept (queue : List α) : List α := queue.filter (!P.ephemeral ·)

@[simp] theorem kept_append (xs ys : List α) : P.kept (xs ++ ys) = P.kept xs ++ P.kept ys :=
  filter_append ..

theorem kept_sublist (xs : List α) : (P.kept xs).Sublist xs := filter_sublist

theorem mem_kept {x : α} : x ∈ P.kept queue ↔ x ∈ queue ∧ P.ephemeral x = false := by
  simp [kept]

/-- **What an offer can do.** The queue is extended, or is full and keeps the element in the place
of an ephemeral one, drops it as ephemeral, or refuses it. -/
theorem offer_cases (capacity : ℕ) (queue : List α) (a : α) :
    (queue.length < capacity ∧ P.offer capacity queue a = (queue ++ [a], true, false)) ∨
    (capacity ≤ queue.length ∧ ∃ front b back, P.ephemeral b = true ∧
      queue = front ++ b :: back ∧
      P.offer capacity queue a = (front ++ back ++ [a], true, true)) ∨
    (capacity ≤ queue.length ∧ P.ephemeral a = true ∧
      P.offer capacity queue a = (queue, true, true)) ∨
    (capacity ≤ queue.length ∧ P.ephemeral a = false ∧ (∀ b ∈ queue, P.ephemeral b = false) ∧
      P.offer capacity queue a = (queue, false, false)) := by
  fun_cases P.offer capacity queue a with
  | case1 hroom => exact .inl ⟨hroom, rfl⟩
  | case2 hroom ha rest hlast =>
    obtain ⟨front, b, back, hb, hqueue, rfl⟩ := removeLast_eq_some hlast
    exact .inr (.inl ⟨Nat.le_of_not_lt hroom, front, b, back, P.ephemeral_of_sameStream hb, hqueue,
      rfl⟩)
  | case3 hroom ha => exact .inr (.inr (.inl ⟨Nat.le_of_not_lt hroom, ha, rfl⟩))
  | case4 hroom ha rest hfirst =>
    obtain ⟨front, b, back, hb, hqueue, rfl⟩ := removeFirst_eq_some hfirst
    exact .inr (.inl ⟨Nat.le_of_not_lt hroom, front, b, back, hb, hqueue, rfl⟩)
  | case5 hroom ha hfirst =>
    exact .inr (.inr (.inr ⟨Nat.le_of_not_lt hroom, by simpa using ha,
      removeFirst_eq_none.1 hfirst, rfl⟩))

theorem offer_sublist (capacity : ℕ) (queue : List α) (a : α) :
    (P.offer capacity queue a).1.Sublist (queue ++ [a]) := by
  rcases P.offer_cases capacity queue a with ⟨-, h⟩ | ⟨-, front, b, back, -, rfl, h⟩ | ⟨-, -, h⟩ |
    ⟨-, -, -, h⟩
  · rw [h]
  · rw [h]
    exact ((List.Sublist.refl front).append (sublist_cons_self b back)).append (.refl [a])
  all_goals
    rw [h]
    exact sublist_append_left queue [a]

theorem offer_kept (h : (P.offer capacity queue a).2.1 = true) :
    P.kept (P.offer capacity queue a).1 = P.kept (queue ++ [a]) := by
  rcases P.offer_cases capacity queue a with ⟨-, ho⟩ | ⟨-, front, b, back, hb, rfl, ho⟩ |
    ⟨-, ha, ho⟩ | ⟨-, -, -, ho⟩
  · rw [ho]
  · simp [ho, kept, hb]
  · rw [ho, kept_append]
    simp [kept, ha]
  · simp [ho] at h

theorem mem_offer {x : α} (h : (P.offer capacity queue a).2.1 = true) (hx : x ∈ queue ++ [a])
    (hkept : P.ephemeral x = false) : x ∈ (P.offer capacity queue a).1 := by
  have hmem := P.mem_kept.2 ⟨hx, hkept⟩
  rw [← P.offer_kept h] at hmem
  exact (P.mem_kept.1 hmem).1

theorem offer_refused (h : (P.offer capacity queue a).2.1 = false) :
    (P.offer capacity queue a).1 = queue ∧ P.ephemeral a = false ∧ capacity ≤ queue.length ∧
      P.kept queue = queue := by
  rcases P.offer_cases capacity queue a with ⟨-, ho⟩ | ⟨-, front, b, back, -, -, ho⟩ |
    ⟨-, -, ho⟩ | ⟨hfull, ha, hall, ho⟩
  · simp [ho] at h
  · simp [ho] at h
  · simp [ho] at h
  · exact ⟨by rw [ho], ha, hfull, filter_eq_self.2 fun b hb => by simp [hall b hb]⟩

theorem offer_length (hbound : queue.length ≤ capacity)
    (h : (P.offer capacity queue a).2.1 = true) :
    (P.offer capacity queue a).1.length = min capacity (queue.length + 1) := by
  rcases P.offer_cases capacity queue a with ⟨hroom, ho⟩ | ⟨hfull, front, b, back, -, rfl, ho⟩ |
    ⟨hfull, -, ho⟩ | ⟨-, -, -, ho⟩
  · rw [ho]
    simp only [length_append, length_singleton]
    omega
  · rw [ho]
    simp only [length_append, length_cons, length_nil] at hbound hfull ⊢
    omega
  · rw [ho, Nat.min_eq_left (by omega)]
    exact Nat.le_antisymm hbound hfull
  · simp [ho] at h

/-- The elements in turn, until one is refused. -/
def offerAll (capacity : ℕ) : List α → List α → Option (List α)
  | queue, [] => some queue
  | queue, a :: rest =>
    match P.offer capacity queue a with
    | (queue', true, _) => offerAll capacity queue' rest
    | (_, false, _) => none

theorem offerAll_cons (capacity : ℕ) (queue : List α) (a : α) (rest : List α) :
    P.offerAll capacity queue (a :: rest) =
      if (P.offer capacity queue a).2.1 = true then
        P.offerAll capacity (P.offer capacity queue a).1 rest
      else none := by
  rw [offerAll]
  rcases P.offer capacity queue a with ⟨queue', delivered, coalesced⟩
  cases delivered <;> rfl

theorem offerAll_append (capacity : ℕ) (queue xs ys : List α) :
    P.offerAll capacity queue (xs ++ ys) =
      (P.offerAll capacity queue xs).bind (P.offerAll capacity · ys) := by
  induction xs generalizing queue with
  | nil => rfl
  | cons a xs ih =>
    rw [cons_append, offerAll_cons, offerAll_cons]
    split
    · exact ih _
    · rfl

variable {queue' : List α}

/-- What is in the queue once a list was taken. -/
theorem offerAll_spec (h : P.offerAll capacity queue xs = some queue') :
    queue'.Sublist (queue ++ xs) ∧ P.kept queue' = P.kept (queue ++ xs) ∧
      (queue.length ≤ capacity → queue'.length = min capacity (queue.length + xs.length)) := by
  induction xs generalizing queue with
  | nil =>
    rw [offerAll, Option.some_inj] at h
    rw [h, append_nil, length_nil]
    exact ⟨.refl _, rfl, by omega⟩
  | cons a xs ih =>
    rw [offerAll_cons] at h
    split at h
    · next hdelivered =>
      obtain ⟨hsublist, hkept, hlength⟩ := ih h
      rw [append_cons]
      refine ⟨hsublist.trans ((P.offer_sublist capacity queue a).append (.refl xs)), ?_, ?_⟩
      · rw [hkept, kept_append, P.offer_kept hdelivered, ← kept_append]
      · intro hbound
        have hone := P.offer_length hbound hdelivered
        rw [hlength (by omega), hone, length_cons]
        omega
    · cases h

theorem offerAll_of_room (hroom : queue.length + xs.length ≤ capacity) :
    P.offerAll capacity queue xs = some (queue ++ xs) := by
  induction xs generalizing queue with
  | nil => rw [offerAll, append_nil]
  | cons a xs ih =>
    rw [length_cons] at hroom
    have hone : P.offer capacity queue a = (queue ++ [a], true, false) := by
      rw [offer, if_pos (by omega)]
    have hroom' : (queue ++ [a]).length + xs.length ≤ capacity := by
      rw [length_append, length_singleton]
      omega
    rw [offerAll_cons, hone, if_pos rfl, ih hroom', append_assoc, singleton_append]

/-- **When a list is taken.** The elements that are not ephemeral stay, so they have to fit; and
whenever they do, nothing is refused. -/
theorem offerAll_isSome_iff (hbound : queue.length ≤ capacity) :
    (P.offerAll capacity queue xs).isSome = true ↔
      (P.kept (queue ++ xs)).length ≤ capacity := by
  constructor
  · intro h
    obtain ⟨queue', hq⟩ := Option.isSome_iff_exists.1 h
    obtain ⟨-, hkept, hlength⟩ := P.offerAll_spec hq
    rw [← hkept]
    calc (P.kept queue').length ≤ queue'.length := (P.kept_sublist queue').length_le
      _ ≤ capacity := by rw [hlength hbound]; exact min_le_left _ _
  · intro hfit
    induction xs generalizing queue with
    | nil => rfl
    | cons a xs ih =>
      rw [offerAll_cons]
      split
      · next hdelivered =>
        have hlength := P.offer_length hbound hdelivered
        refine ih (by omega) ?_
        rw [kept_append, P.offer_kept hdelivered, ← kept_append, append_assoc,
          singleton_append]
        exact hfit
      · next hrefused =>
        -- a refused element would be one more than the queue can keep
        obtain ⟨-, ha, hfull, hall⟩ := P.offer_refused (by simpa using hrefused)
        rw [kept_append, hall, length_append] at hfit
        have hone : 1 ≤ (P.kept (a :: xs)).length := by
          rw [kept, filter_cons_of_pos (by simp [ha]), length_cons]
          omega
        omega

end QueuePolicy

end Codeflux.Library
