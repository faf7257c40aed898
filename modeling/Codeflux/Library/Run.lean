import Mathlib.Logic.Relation

/-!
# Reachable states of a transition system

The induction over the reachable states of a transition system, packaged once.
-/

namespace Codeflux.Library

variable {σ : Type*}

/-- The states reached from an initial state by finitely many steps. -/
inductive Reachable (Init : σ → Prop) (Step : σ → σ → Prop) : σ → Prop
  | init {s : σ} : Init s → Reachable Init Step s
  | step {s t : σ} : Reachable Init Step s → Step s t → Reachable Init Step t

namespace Reachable

variable {Init Init' : σ → Prop} {Step Step' : σ → σ → Prop} {I J : σ → Prop} {s : σ}

/-- **Invariant rule.** What holds in every initial state and survives every step holds in every
reachable state. -/
theorem invariant (h : Reachable Init Step s) (start : ∀ s, Init s → I s)
    (keep : ∀ s t, I s → Step s t → I t) : I s := by
  induction h with
  | init hs => exact start _ hs
  | step _ hst ih => exact keep _ _ ih hst

end Reachable

/-- **Exact conditions on runs.** When a step from a good state leads to a good state exactly if it
is admissible there, the states of a run are all good exactly if its steps are all admissible. -/
theorem forall_prefix_iff {α : Type*} {step : σ → α → σ} {Inv Good : σ → Prop} {Ok : α → σ → Prop}
    (keep : ∀ s a, Inv s → Inv (step s a))
    (good_iff : ∀ s a, Inv s → Good s → (Good (step s a) ↔ Ok a s)) {s : σ} (hinv : Inv s)
    (hgood : Good s) (run : List α) :
    (∀ k, Good ((run.take k).foldl step s)) ↔
      ∀ k a, run[k]? = some a → Ok a ((run.take k).foldl step s) := by
  induction run generalizing s with
  | nil => simp [hgood]
  | cons a run ih =>
    have hstep := good_iff s a hinv hgood
    constructor
    · intro h k b hb
      have hnext : Good (step s a) := h 1
      cases k with
      | zero =>
        obtain rfl : a = b := by simpa using hb
        exact hstep.1 hnext
      | succ k => exact (ih (keep s a hinv) hnext).1 (fun k => h (k + 1)) k b hb
    · intro h k
      have hnext : Good (step s a) := hstep.2 (h 0 a rfl)
      cases k with
      | zero => exact hgood
      | succ k => exact (ih (keep s a hinv) hnext).2 (fun k => h (k + 1)) k

end Codeflux.Library
