import Mathlib.Algebra.Order.Ring.Int
import Mathlib.Data.List.Basic

/-!
# Fallible computations

The guard `ensure`, and the inversion lemmas that take a successful sequence of guards and bound
calls apart, so that no proof unfolds the monad.
-/

namespace Codeflux.Library

universe u v

variable {ε : Type u} {α β σ : Type v}

/-- Succeed when `p` holds and fail with `e` otherwise. -/
def ensure (p : Prop) [Decidable p] (e : ε) : Except ε Unit :=
  if p then .ok () else .error e

variable {p : Prop} {x : Except ε α} {f : σ → α → Except ε σ} {b : β} {a : α} {s t : σ}
  {xs : List α}

@[simp] theorem ensure_ok_iff [Decidable p] {e : ε} {u : Unit} : ensure p e = .ok u ↔ p := by
  unfold ensure
  split_ifs with hp <;> simp [hp]

theorem ensure_of [Decidable p] (hp : p) (e : ε) : ensure p e = .ok () :=
  if_pos hp

theorem ensure_of_not [Decidable p] (hp : ¬p) (e : ε) : (ensure p e : Except ε Unit) = .error e :=
  if_neg hp

@[simp] theorem bind_ok_iff {f : α → Except ε β} :
    x >>= f = .ok b ↔ ∃ a, x = .ok a ∧ f a = .ok b := by
  cases x with
  | error e | ok a => simp [bind, Except.bind]

/-- A sequence succeeds when its first part does, and the rest does whatever the first returned. -/
theorem bind_succeeds_iff {f : α → Except ε β} {q : Prop} (hx : (∃ a, x = .ok a) ↔ p)
    (hf : ∀ a, x = .ok a → ((∃ b, f a = .ok b) ↔ q)) : (∃ b, (x >>= f) = .ok b) ↔ p ∧ q := by
  cases x with
  | error e => simp [← hx]
  | ok a => simpa [← hx] using hf a rfl

@[simp] theorem map_ok_iff {f : α → β} : f <$> x = .ok b ↔ ∃ a, x = .ok a ∧ f a = b := by
  cases x with
  | error e | ok a => simp [Functor.map, Except.map]

@[simp] theorem mapError_ok_iff {ε' : Type u} {f : ε → ε'} : x.mapError f = .ok a ↔ x = .ok a := by
  cases x with
  | error e | ok b => simp [Except.mapError]

@[simp] theorem ok_bind (a : α) (f : α → Except ε β) : (Except.ok a >>= f) = f a := rfl

@[simp] theorem error_bind (e : ε) (f : α → Except ε β) : (Except.error e >>= f) = .error e := rfl

@[simp] theorem pure_ok_iff {b : α} : (pure a : Except ε α) = .ok b ↔ a = b := by
  simp [pure, Except.pure]

/-- **What a successful run says of its parts**: of a sequence, of a guard and of a returned
value. -/
theorem run_ok_iff :
    (∀ {ε α β : Type} {x : Except ε α} {f : α → Except ε β} {b : β},
      x >>= f = .ok b ↔ ∃ a, x = .ok a ∧ f a = .ok b) ∧
    (∀ {ε : Type} {p : Prop} [Decidable p] {e : ε} {u : Unit}, ensure p e = .ok u ↔ p) ∧
    ∀ {ε α : Type} {a b : α}, (pure a : Except ε α) = .ok b ↔ a = b :=
  ⟨bind_ok_iff, ensure_ok_iff, pure_ok_iff⟩

theorem forM_ok_iff {γ : Type*} {f : γ → Except ε PUnit} {xs : List γ} {u : PUnit} :
    xs.forM f = .ok u ↔ ∀ x ∈ xs, f x = .ok ⟨⟩ := by
  induction xs with
  | nil => simp [List.forM, pure, Except.pure]
  | cons x xs ih =>
    have hcons : (x :: xs).forM f = f x >>= fun _ => xs.forM f := rfl
    rw [hcons, bind_ok_iff, List.forall_mem_cons, ih]
    exact Unique.exists_iff

theorem foldlM_append_ok_iff {ys : List α} :
    (xs ++ ys).foldlM f s = .ok t ↔
      ∃ m, xs.foldlM f s = .ok m ∧ ys.foldlM f m = .ok t := by
  rw [List.foldlM_append, bind_ok_iff]

/-- **Induction over a successful fold.** The state it ends in is fixed. -/
@[elab_as_elim]
theorem foldlM_induction {motive : List α → σ → Prop} (h : xs.foldlM f s = .ok t)
    (hnil : motive [] t)
    (hcons : ∀ a xs s m, f s a = .ok m → motive xs m → motive (a :: xs) s) : motive xs s := by
  induction xs generalizing s with
  | nil => exact pure_ok_iff.1 h ▸ hnil
  | cons a xs ih =>
    rw [List.foldlM_cons, bind_ok_iff] at h
    obtain ⟨m, hm, h⟩ := h
    exact hcons a xs s m hm (ih h)

/-- What each step does to an observation of the state, a successful fold does to it step by
step. -/
theorem foldlM_observe {ω : Type*} (observe : σ → ω) (next : ω → α → ω)
    (hstep : ∀ s a t, f s a = .ok t → observe t = next (observe s) a) (h : xs.foldlM f s = .ok t) :
    observe t = xs.foldl next (observe s) := by
  refine foldlM_induction h rfl fun a xs s m hm ih => ?_
  rw [ih, hstep s a m hm, List.foldl_cons]

theorem foldlM_keeps {P : σ → Prop} (hstep : ∀ s a t, f s a = .ok t → P s → P t)
    (h : xs.foldlM f s = .ok t) (hs : P s) : P t := by
  revert hs
  exact foldlM_induction h id fun a xs s m hm ih hs => ih (hstep s a m hm hs)

/-- The state a transaction leaves: its result when it commits, the state it started from when it
is rolled back. -/
def settled (s : σ) : Except ε σ → σ
  | .ok t => t
  | .error _ => s

@[simp] theorem settled_ok (s t : σ) : settled s (.ok t : Except ε σ) = t := rfl

@[simp] theorem settled_error (s : σ) (e : ε) : settled s (.error e : Except ε σ) = s := rfl

theorem settled_cases (s : σ) (x : Except ε σ) : settled s x = s ∨ x = .ok (settled s x) := by
  cases x with
  | error e => exact .inl rfl
  | ok t => exact .inr rfl

end Codeflux.Library
