import Mathlib.Data.List.Basic

/-!
# Computations with a state that survives failure

Unlike a transaction an effect keeps what it had done to the state when it fails. A triple names
what holds before the effect, what holds after it succeeds, and what holds after it fails.
-/

namespace Codeflux.Library

universe u v w

/-- A computation that changes a state of type `σ` and returns a value or fails. -/
def Effect (σ : Type u) (ε : Type v) (α : Type w) : Type (max u v w) :=
  σ → Except ε α × σ

namespace Effect

variable {σ ε ε' α β : Type}

/-- Return a value. -/
protected def pure (a : α) : Effect σ ε α := fun s => (.ok a, s)

/-- Run `m`, then `f` on its value, unless `m` fails. -/
protected def bind (m : Effect σ ε α) (f : α → Effect σ ε β) : Effect σ ε β := fun s =>
  match m s with
  | (.ok a, t) => f a t
  | (.error e, t) => (.error e, t)

instance : Monad (Effect σ ε) where
  pure := Effect.pure
  bind := Effect.bind

/-- Fail. -/
def fail (e : ε) : Effect σ ε α := fun s => (.error e, s)

/-- Return the outcome of a computation that does not look at the state. -/
def lift (x : Except ε α) : Effect σ ε α := fun s => (x, s)

/-- Change the state. -/
def modify (f : σ → σ) : Effect σ ε Unit := fun s => (.ok (), f s)

/-- Ask the state a question that may fail. -/
def query (f : σ → Except ε α) : Effect σ ε α := fun s => (f s, s)

/-- Run a computation on the state that leaves it alone when it fails. -/
def transaction (f : σ → Except ε (α × σ)) : Effect σ ε α := fun s =>
  match f s with
  | .ok (a, t) => (.ok a, t)
  | .error e => (.error e, s)

/-- Run `m`, and after a failure of it the handler. -/
def recover (m : Effect σ ε α) (handler : ε → Effect σ ε' α) : Effect σ ε' α := fun s =>
  match m s with
  | (.ok a, t) => (.ok a, t)
  | (.error e, t) => handler e t

section Success

variable {s t u : σ} {a b : α} {c : β}

theorem pure_ok_iff : (Pure.pure a : Effect σ ε α) s = (.ok b, t) ↔ a = b ∧ s = t := by
  simp [Pure.pure, Effect.pure]

theorem bind_ok_iff {m : Effect σ ε α} {f : α → Effect σ ε β} :
    (m >>= f) s = (.ok c, u) ↔ ∃ a t, m s = (.ok a, t) ∧ f a t = (.ok c, u) := by
  show Effect.bind m f s = _ ↔ _
  unfold Effect.bind
  rcases m s with ⟨_ | _, _⟩ <;> simp

theorem lift_ok_iff {x : Except ε α} : lift x s = (.ok a, t) ↔ x = .ok a ∧ s = t := by
  simp [lift]

theorem query_ok_iff {f : σ → Except ε α} : query f s = (.ok a, t) ↔ f s = .ok a ∧ s = t := by
  simp [query]

theorem modify_bind {g : σ → σ} {f : Unit → Effect σ ε β} : (modify g >>= f) s = f () (g s) := rfl

theorem lift_bind {x : Except ε α} {f : α → Effect σ ε β} (h : x = .ok a) :
    (lift x >>= f) s = f a s := by
  rw [h]
  rfl

theorem query_bind {q : σ → Except ε α} {f : α → Effect σ ε β} :
    (query q >>= f) s = (lift (q s) >>= f) s := rfl

theorem transaction_ok_iff {f : σ → Except ε (α × σ)} :
    transaction f s = (.ok a, t) ↔ f s = .ok (a, t) := by
  unfold transaction
  rcases f s with _ | ⟨_, _⟩ <;> simp

end Success

end Effect

variable {σ ε ε' α β : Type}

/-- What holds of the end of an effect: `Q` of its value and the state when it succeeded, `E` of its
error and the state when it failed. -/
def Ends (Q : α → σ → Prop) (E : ε → σ → Prop) : Except ε α × σ → Prop
  | (.ok a, t) => Q a t
  | (.error e, t) => E e t

/-- From a state with `P`, the effect `m` ends in a state with `Q` of its value when it succeeds,
and in a state with `E` of its error when it fails. -/
def Triple (P : σ → Prop) (m : Effect σ ε α) (Q : α → σ → Prop) (E : ε → σ → Prop) : Prop :=
  ∀ s, P s → Ends Q E (m s)

variable {x : Except ε α} {handler : ε → Effect σ ε' α}

namespace Triple

variable {P P' : σ → Prop} {Q Q' : α → σ → Prop} {R : β → σ → Prop} {E E' : ε → σ → Prop}
  {E'' : ε' → σ → Prop} {m : Effect σ ε α} {f : α → Effect σ ε β}

theorem pure {a : α} (h : ∀ s, P s → Q a s) : Triple P (Pure.pure a : Effect σ ε α) Q E :=
  h

theorem fail {e : ε} (h : ∀ s, P s → E e s) : Triple P (Effect.fail e : Effect σ ε α) Q E :=
  h

theorem modify {g : σ → σ} {Q : Unit → σ → Prop} (h : ∀ s, P s → Q () (g s)) :
    Triple P (Effect.modify g : Effect σ ε Unit) Q E :=
  h

theorem lift (hok : ∀ a, x = .ok a → ∀ s, P s → Q a s)
    (herror : ∀ e, x = .error e → ∀ s, P s → E e s) : Triple P (Effect.lift x) Q E := by
  intro s hs
  cases x with
  | ok a => exact hok a rfl s hs
  | error e => exact herror e rfl s hs

/-- **Sequencing.** -/
theorem bind (hm : Triple P m Q E) (hf : ∀ a, Triple (Q a) (f a) R E) : Triple P (m >>= f) R E := by
  intro s hs
  have hrun := hm s hs
  show Ends R E (Effect.bind m f s)
  unfold Effect.bind
  generalize m s = r at hrun
  rcases r with ⟨e | a, t⟩
  · exact hrun
  · exact hf a t hrun

theorem lift_bind (herror : ∀ e s, P s → E e s)
    (hf : ∀ a, x = .ok a → Triple P (f a) R E) : Triple P (Effect.lift x >>= f) R E := by
  have hlift : Triple P (Effect.lift x) (fun a s => x = .ok a ∧ P s) E :=
    Triple.lift (fun _ ha _ hs => ⟨ha, hs⟩) fun e _ s hs => herror e s hs
  exact hlift.bind fun a s hs => hf a hs.1 s hs.2

/-- **Handlers.** -/
theorem recover (hm : Triple P m Q E)
    (hhandler : ∀ e, Triple (E e) (handler e) Q E'') : Triple P (m.recover handler) Q E'' := by
  intro s hs
  have hrun := hm s hs
  unfold Effect.recover
  generalize m s = r at hrun
  rcases r with ⟨e | a, t⟩
  · exact hhandler e t hrun
  · exact hrun

/-- **Consequence.** -/
theorem conseq (hm : Triple P m Q E) (hP : ∀ s, P' s → P s) (hQ : ∀ a s, Q a s → Q' a s)
    (hE : ∀ e s, E e s → E' e s) : Triple P' m Q' E' := by
  intro s hs
  have hrun := hm s (hP s hs)
  generalize m s = r at hrun ⊢
  rcases r with ⟨e | a, t⟩
  · exact hE e t hrun
  · exact hQ a t hrun

theorem ite {c : Prop} [Decidable c] {m₁ m₂ : Effect σ ε α} (h₁ : c → Triple P m₁ Q E)
    (h₂ : ¬c → Triple P m₂ Q E) : Triple P (if c then m₁ else m₂) Q E := by
  split_ifs with hc
  · exact h₁ hc
  · exact h₂ hc

/-- **Loops.** -/
theorem forM_append {γ : Type} {Q R : σ → Prop} {step : γ → Effect σ ε PUnit} {xs ys : List γ}
    (hxs : Triple P (xs.forM step) (fun _ => Q) E) (hys : Triple Q (ys.forM step) (fun _ => R) E) :
    Triple P ((xs ++ ys).forM step) (fun _ => R) E := by
  intro s hs
  have hrun := hxs s hs
  clear hxs hs
  induction xs generalizing s with
  | nil => exact hys s hrun
  | cons x xs ih =>
    show Ends _ E (Effect.bind (step x) (fun _ => (xs ++ ys).forM step) s)
    change Ends _ E (Effect.bind (step x) (fun _ => xs.forM step) s) at hrun
    unfold Effect.bind at hrun ⊢
    generalize step x s = r at hrun ⊢
    rcases r with ⟨e | a, t⟩
    · exact hrun
    · exact ih t hrun

theorem ok_of {s t : σ} {a : α} (hm : Triple P m Q E) (hs : P s) (h : m s = (.ok a, t)) :
    Q a t := by
  have hrun := hm s hs
  rwa [h] at hrun

theorem error_of {s t : σ} {e : ε} (hm : Triple P m Q E) (hs : P s) (h : m s = (.error e, t)) :
    E e t := by
  have hrun := hm s hs
  rwa [h] at hrun

end Triple

/-- An effect that keeps `I`, whether it succeeds or fails. -/
def Keeps (I : σ → Prop) (m : Effect σ ε α) : Prop :=
  Triple I m (fun _ => I) fun _ => I

namespace Keeps

variable {I : σ → Prop} {m : Effect σ ε α} {f : α → Effect σ ε β}

theorem pure (a : α) : Keeps I (Pure.pure a : Effect σ ε α) :=
  fun _ hs => hs

theorem fail (e : ε) : Keeps I (Effect.fail e : Effect σ ε α) :=
  fun _ hs => hs

theorem bind (hm : Keeps I m) (hf : ∀ a, Keeps I (f a)) : Keeps I (m >>= f) :=
  Triple.bind hm hf

theorem lift_bind (hf : ∀ a, x = .ok a → Keeps I (f a)) : Keeps I (Effect.lift x >>= f) :=
  Triple.lift_bind (fun _ _ hs => hs) hf

theorem ite {c : Prop} [Decidable c] {m₁ m₂ : Effect σ ε α} (h₁ : c → Keeps I m₁)
    (h₂ : ¬c → Keeps I m₂) : Keeps I (if c then m₁ else m₂) :=
  Triple.ite h₁ h₂

end Keeps

end Codeflux.Library
