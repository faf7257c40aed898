import Mathlib.Algebra.Order.BigOperators.Group.List
import Mathlib.Algebra.Order.Ring.Nat
import Mathlib.Data.List.Nodup

/-!
# A pool of workers with a bounded number of slots

A worker takes a slot, calls its task, records what the call returned, gives its slot back and
reports that it is done; the workers interleave in any way. When all are done, every task was called
exactly once and has exactly one result.
-/

namespace Codeflux.Library

open List

variable {α β : Type}

/-- A call of a task begins or ends. -/
inductive CallEvent (α : Type)
  | started (task : α)
  | ended (task : α)

/-- The task of a call. -/
def CallEvent.task : CallEvent α → α
  | started a => a
  | ended a => a

/-- How far the worker of a task has come. -/
inductive WorkerState (β : Type)
  | waiting | admitted | calling
  | returned (result : β)
  | recorded | released | finished

namespace WorkerState

/-- Does the worker hold a slot? -/
def holdsSlot : WorkerState β → Bool
  | admitted | calling | returned _ | recorded => true
  | waiting | released | finished => false

/-- Has the worker recorded its result? -/
def hasRecorded : WorkerState β → Bool
  | recorded | released | finished => true
  | waiting | admitted | calling | returned _ => false

/-- The number of steps that are left to the worker. -/
def remaining : WorkerState β → Nat
  | waiting => 6
  | admitted => 5
  | calling => 4
  | returned _ => 3
  | recorded => 2
  | released => 1
  | finished => 0

/-- The events of the task so far. -/
def events (a : α) : WorkerState β → List (CallEvent α)
  | waiting | admitted => []
  | calling => [.started a]
  | returned _ | recorded | released | finished => [.started a, .ended a]

end WorkerState

/-- One step of the worker of `a`, with the events and the results that it adds. -/
inductive Advance (Yields : α → β → Prop) (a : α) :
    WorkerState β → List (CallEvent α) → List (α × β) → WorkerState β → Prop
  | acquire : Advance Yields a .waiting [] [] .admitted
  | call : Advance Yields a .admitted [.started a] [] .calling
  | finish (b : β) (h : Yields a b) : Advance Yields a .calling [.ended a] [] (.returned b)
  | record (b : β) : Advance Yields a (.returned b) [] [(a, b)] .recorded
  | release : Advance Yields a .recorded [] [] .released
  | done : Advance Yields a .released [] [] .finished

namespace Advance

variable {Yields : α → β → Prop} {a : α} {state next : WorkerState β}
  {events : List (CallEvent α)} {results : List (α × β)}

theorem remaining_lt (h : Advance Yields a state events results next) :
    next.remaining < state.remaining := by
  cases h <;> simp [WorkerState.remaining]

theorem events_eq (h : Advance Yields a state events results next) :
    next.events a = state.events a ++ events ∧ ∀ event ∈ events, event.task = a := by
  cases h <;> simp [WorkerState.events, CallEvent.task]

end Advance

/-- Tasks with their workers, the results in the order in which they were recorded, and all that was
called. -/
structure Pool (α β : Type) where
  tasks : List α
  workers : α → WorkerState β
  results : List (α × β)
  trace : List (CallEvent α)

namespace Pool

/-- A pool in which no worker has begun. -/
def start (tasks : List α) (trace : List (CallEvent α)) : Pool α β :=
  ⟨tasks, fun _ => .waiting, [], trace⟩

/-- The slots in use. -/
def slotsHeld (pool : Pool α β) : Nat :=
  pool.tasks.countP fun a => (pool.workers a).holdsSlot

/-- The pool is done: `Wait` returns. -/
def Finished (pool : Pool α β) : Prop :=
  ∀ a ∈ pool.tasks, pool.workers a = .finished

/-- The steps left. -/
def remaining (pool : Pool α β) : Nat :=
  (pool.tasks.map fun a => (pool.workers a).remaining).sum

variable [DecidableEq α]

/-- The pool after the worker of `a` took a step. -/
def advance (pool : Pool α β) (a : α) (events : List (CallEvent α)) (results : List (α × β))
    (next : WorkerState β) : Pool α β where
  tasks := pool.tasks
  workers := Function.update pool.workers a next
  results := pool.results ++ results
  trace := pool.trace ++ events

/-- One worker takes a step. A waiting worker needs a free slot, unless there is no limit. -/
inductive Step (Yields : α → β → Prop) (limit : Option Nat) (pool : Pool α β) : Pool α β → Prop
  | step {a : α} {events : List (CallEvent α)} {results : List (α × β)} {next : WorkerState β}
      (hmem : a ∈ pool.tasks) (hadvance : Advance Yields a (pool.workers a) events results next)
      (hslot : pool.workers a = .waiting → ∀ n ∈ limit, pool.slotsHeld < n) :
      Step Yields limit pool (pool.advance a events results next)

/-- The results and the calls are those of the workers. The trace `before` is from before the
pool. -/
structure Sound (Yields : α → β → Prop) (before : List (CallEvent α)) (pool : Pool α β) : Prop where
  outside : ∀ a ∉ pool.tasks, pool.workers a = .waiting
  called : ∃ segment, pool.trace = before ++ segment ∧
    ∀ a, segment.filter (·.task = a) = (pool.workers a).events a
  pending : ∀ a b, pool.workers a = .returned b → Yields a b
  yields : ∀ entry ∈ pool.results, Yields entry.1 entry.2
  distinct : (pool.results.map Prod.fst).Nodup
  recorded : ∀ a, a ∈ pool.results.map Prod.fst ↔ (pool.workers a).hasRecorded = true

variable {Yields : α → β → Prop} {limit : Option Nat} {before : List (CallEvent α)}
  {pool pool' : Pool α β}

theorem sound_start (tasks : List α) : (start tasks before : Pool α β).Sound Yields before where
  outside _ _ := rfl
  called := ⟨[], (append_nil before).symm, fun _ => rfl⟩
  pending _ _ h := nomatch h
  yields _ h := absurd h not_mem_nil
  distinct := nodup_nil
  recorded a := by simp [start, WorkerState.hasRecorded]

omit [DecidableEq α] in
theorem finished_or_step (hyields : ∀ a, ∃ b, Yields a b) (a : α) (state : WorkerState β) :
    state = .finished ∨ ∃ events results next, Advance Yields a state events results next := by
  cases state with
  | waiting => exact .inr ⟨_, _, _, .acquire⟩
  | admitted => exact .inr ⟨_, _, _, .call⟩
  | calling =>
    obtain ⟨b, hb⟩ := hyields a
    exact .inr ⟨_, _, _, .finish b hb⟩
  | returned b => exact .inr ⟨_, _, _, .record b⟩
  | recorded => exact .inr ⟨_, _, _, .release⟩
  | released => exact .inr ⟨_, _, _, .done⟩
  | finished => exact .inl rfl

/-- **No deadlock.** A pool that is not done can go on, when there is a slot at all. -/
theorem progress (hyields : ∀ a, ∃ b, Yields a b) (hlimit : ∀ n ∈ limit, 0 < n)
    (pool : Pool α β) : pool.Finished ∨ ∃ pool', Step Yields limit pool pool' := by
  by_cases hbusy : ∃ a ∈ pool.tasks, pool.workers a ≠ .waiting ∧ pool.workers a ≠ .finished
  · obtain ⟨a, hmem, hwaiting, hunfinished⟩ := hbusy
    obtain ⟨events, results, next, hadvance⟩ :=
      (finished_or_step hyields a (pool.workers a)).resolve_left hunfinished
    exact .inr ⟨_, .step hmem hadvance fun h => absurd h hwaiting⟩
  · -- nobody holds a slot, so whoever waits can have one
    have hfree : pool.slotsHeld = 0 := by
      refine countP_eq_zero.2 fun a hmem hholds => hbusy ⟨a, hmem, ?_, ?_⟩
      all_goals
        intro hstate
        rw [hstate] at hholds
        exact nomatch hholds
    by_cases hwaiting : ∃ a ∈ pool.tasks, pool.workers a = .waiting
    · obtain ⟨a, hmem, hstate⟩ := hwaiting
      have hadvance : Advance Yields a (pool.workers a) [] [] .admitted := hstate ▸ .acquire
      refine .inr ⟨_, .step hmem hadvance fun _ n hn => ?_⟩
      rw [hfree]
      exact hlimit n hn
    · refine .inl fun a hmem => ?_
      by_contra hunfinished
      exact hbusy ⟨a, hmem, fun hstate => hwaiting ⟨a, hmem, hstate⟩, hunfinished⟩

theorem Step.tasks_eq (h : Step Yields limit pool pool') : pool'.tasks = pool.tasks := by
  cases h
  rfl

/-- Each step brings the pool closer to its end. -/
theorem remaining_lt (h : Step Yields limit pool pool') : pool'.remaining < pool.remaining := by
  cases h with
  | @step a events results next hmem hadvance _ =>
    refine sum_lt_sum _ _ (fun b _ => ?_) ⟨a, hmem, ?_⟩
    · by_cases hb : b = a
      · subst hb
        simpa [advance] using hadvance.remaining_lt.le
      · simp [advance, hb]
    · simpa [advance] using hadvance.remaining_lt

/-- **Each step keeps the invariant.** -/
theorem Sound.step (h : pool.Sound Yields before) (hstep : Step Yields limit pool pool') :
    pool'.Sound Yields before := by
  cases hstep with
  | @step a events results next hmem hadvance _ =>
    obtain ⟨segment, htrace, hsegment⟩ := h.called
    obtain ⟨hevents, htask⟩ := hadvance.events_eq
    have hother : ∀ {b}, b ≠ a → (pool.advance a events results next).workers b = pool.workers b :=
      fun hb => Function.update_of_ne hb _ _
    have hself : (pool.advance a events results next).workers a = next := Function.update_self _ _ _
    refine ⟨fun b hb => ?_, ⟨segment ++ events, ?_, fun b => ?_⟩, fun b result hb => ?_,
      fun entry hentry => ?_, ?_, fun b => ?_⟩
    · rw [hother fun heq => hb (heq ▸ hmem)]
      exact h.outside b hb
    · rw [advance, htrace, append_assoc]
    · rw [filter_append, hsegment]
      by_cases hb : b = a
      · subst hb
        rw [hself, hevents, filter_eq_self.2 fun event hevent => by simp [htask event hevent]]
      · rw [hother hb, filter_eq_nil_iff.2 fun event hevent => ?_, append_nil]
        simpa [htask event hevent] using Ne.symm hb
    · by_cases hba : b = a
      · subst hba
        rw [hself] at hb
        subst hb
        generalize pool.workers b = state at hadvance
        cases hadvance with
        | finish _ hyield => exact hyield
      · rw [hother hba] at hb
        exact h.pending b result hb
    · rcases mem_append.1 hentry with hold | hnew
      · exact h.yields entry hold
      · have hpending := h.pending a
        generalize pool.workers a = state at hadvance hpending
        cases hadvance with
        | record b =>
          obtain rfl := mem_singleton.1 hnew
          exact hpending b rfl
        | _ => exact absurd hnew not_mem_nil
    · have hrecorded := h.recorded a
      show ((pool.results ++ results).map Prod.fst).Nodup
      generalize pool.workers a = state at hadvance hrecorded
      cases hadvance with
      | record b =>
        rw [map_append, nodup_append]
        refine ⟨h.distinct, nodup_singleton _, fun c hc d hd heq => ?_⟩
        obtain rfl := mem_singleton.1 hd
        exact nomatch hrecorded.1 (heq ▸ hc)
      | _ => simpa using h.distinct
    · show b ∈ (pool.results ++ results).map Prod.fst ↔ _
      rw [map_append, mem_append, h.recorded b]
      by_cases hb : b = a
      · subst hb
        rw [hself]
        generalize pool.workers b = state at hadvance
        cases hadvance <;> simp [WorkerState.hasRecorded]
      · rw [hother hb, or_iff_left]
        intro hnew
        generalize pool.workers a = state at hadvance
        cases hadvance with
        | record _ => exact hb (mem_singleton.1 hnew)
        | _ => exact absurd hnew not_mem_nil

end Pool

end Codeflux.Library
