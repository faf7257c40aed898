import Codeflux.Providers.Retry

/-!
# Every prepared attempt is completed, unless its admission fails

The trace of a run is made of whole cycles, one for each attempt in turn: prepared, admitted, made,
completed. It may end early: before an attempt, after one that could not be prepared, or after one
that was prepared and then not admitted.
-/

namespace Codeflux.Providers

open Library Go Domain List

/-- The events of a whole attempt. -/
def cycle (number : Nat) : List AttemptEvent :=
  [.prepared number true, .admitted number true, .attempted number, .completed number]

/-- The attempt that an event asks the recorder to prepare. -/
def AttemptEvent.preparing? : AttemptEvent → Option Nat
  | .prepared number _ => some number
  | _ => none

/-- How a run may end after `done` whole attempts; only where `Acquire` can fail is one refused. -/
inductive Tail {σ : Type} (ports : RetryPorts σ) (done : Nat) : List AttemptEvent → Prop
  | clean : Tail ports done []
  | unprepared : Tail ports done [.prepared (done + 1) false]
  | refused {env : σ} (h : (ports.acquire env).1 ≠ none) :
      Tail ports done [.prepared (done + 1) true, .admitted (done + 1) false]

/-- Whole attempts, and then an end. -/
def Shape {σ : Type} (ports : RetryPorts σ) (trace : List AttemptEvent) : Prop :=
  ∃ done tail, Tail ports done tail ∧ trace = (List.range' 1 done).flatMap cycle ++ tail

/-! ### The trace of a run -/

section Rounds

variable {σ : Type} {ports : RetryPorts σ} {policy : RetryPolicy} {identity : RequestIdentity}
  {attempt : PhysicalAttempt → σ → AttemptOutcome × σ} {trace : List AttemptEvent}
  {E : Returned → Observed σ AttemptEvent → Prop}

theorem Triple.stopOn_bind {β : Type} {P : Observed σ AttemptEvent → Prop} {result : RetryResult}
    {failure : Option Failure} {f : Unit → Step σ β} {R : β → Observed σ AttemptEvent → Prop}
    (hstop : ∀ reason, failure = some reason → ∀ s, P s → E (result, some reason) s)
    (hgo : failure = none → Triple P (f ()) R E) : Triple P (stopOn result failure >>= f) R E := by
  cases failure with
  | some reason => exact fun s hs => hstop reason rfl s hs
  | none => exact hgo rfl

theorem retryDelay_keeps (number : Nat) (outcome : AttemptOutcome) :
    Triple (At trace) (retryDelay ports policy number outcome) (fun _ => At trace) E :=
  Triple.ite
    (fun _ => Triple.ite (fun _ => Triple.pure fun _ hs => hs) fun _ => Triple.silent)
    fun _ => Triple.pure fun _ hs => hs

theorem narrowOnBackpressure_keeps (disposition : AttemptDisposition) (outcome : AttemptOutcome) :
    Triple (At trace) (narrowOnBackpressure ports disposition outcome) (fun _ => At trace) E :=
  Triple.ite (fun _ => Triple.disturb) fun _ => Triple.pure fun _ hs => hs

theorem withinDeadline_keeps (delay : Int) :
    Triple (At trace) (withinDeadline ports delay) (fun _ => At trace) E := by
  unfold withinDeadline
  split
  · exact Triple.pure fun _ hs => hs
  · exact Triple.silent.bind fun _ => Triple.pure fun _ hs => hs

theorem decideAttempt_keeps (number : Nat) (wait : Int) (outcome : AttemptOutcome) :
    Triple (At trace) (decideAttempt ports policy identity number wait outcome) (fun _ => At trace)
      E := by
  have hreturn : ∀ decision : AttemptDisposition × Int × Option Failure,
      Triple (At trace) (pure decision : Step σ _) (fun _ => At trace) E :=
    fun decision => Triple.pure fun _ hs => hs
  unfold decideAttempt
  split
  · exact hreturn _
  · refine Triple.silent.bind fun canceled => ?_
    refine Triple.ite (fun _ => hreturn _) fun _ => ?_
    refine Triple.ite (fun _ => hreturn _) fun _ => ?_
    refine Triple.ite (fun _ => hreturn _) fun _ => ?_
    refine Triple.ite (fun _ => hreturn _) fun _ => ?_
    refine Triple.ite (fun _ => hreturn _) fun _ => ?_
    refine (retryDelay_keeps number outcome).bind fun delay => ?_
    refine Triple.ite (fun _ => hreturn _) fun _ => ?_
    refine (withinDeadline_keeps delay).bind fun inTime => ?_
    exact Triple.ite (fun _ => hreturn _) fun _ => hreturn _

theorem makeAttempt_trace (result : RetryResult) (number : Nat)
    (hclean : ∀ returned s, At trace s → E returned s)
    (hunprepared : ∀ returned s, At (trace ++ [.prepared number false]) s → E returned s)
    (hrefused : ∀ env, (ports.acquire env).1 ≠ none → ∀ returned s,
      At (trace ++ [.prepared number true] ++ [.admitted number false]) s → E returned s) :
    Triple (At trace) (makeAttempt ports identity attempt result number)
      (fun made => fun s => made.1.number = number ∧
        At (trace ++ [.prepared number true] ++ [.admitted number true] ++ [.attempted number]) s)
      E := by
  unfold makeAttempt
  refine Triple.silent.bind fun canceled => ?_
  refine Triple.stopOn_bind (fun _ _ s hs => hclean _ s hs) fun _ => ?_
  refine Triple.silent.bind fun startedAt => ?_
  refine Triple.observe.bind fun refused => ?_
  refine Triple.stopOn_bind ?_ fun hprepared => ?_
  · intro reason hreason s hs
    obtain ⟨cause, rfl, -⟩ := Option.map_eq_some_iff.1 hreason
    exact hunprepared _ s hs
  rw [Option.map_eq_none_iff] at hprepared
  subst hprepared
  refine Triple.observe_answer.bind fun blocked => ?_
  refine Triple.stopOn_bind ?_ fun hadmitted => ?_
  · rintro reason hreason s ⟨⟨env, hanswer⟩, hs⟩
    obtain ⟨cause, rfl, -⟩ := Option.map_eq_some_iff.1 hreason
    exact hrefused env (by simp [hanswer]) _ s hs
  rw [Option.map_eq_none_iff] at hadmitted
  subst hadmitted
  refine Triple.bind (Triple.observe.conseq (fun _ hs => hs.2) (fun _ _ hs => hs)
    fun _ _ hs => hs) fun outcome => ?_
  refine Triple.disturb.bind fun _ => ?_
  exact Triple.pure fun s hs => ⟨rfl, hs⟩

/-- An attempt that was made is completed, whatever follows from it. -/
theorem finishAttempt_trace (before : RetryResult) (physical : PhysicalAttempt)
    (outcome : AttemptOutcome)
    (hcompleted : ∀ returned s, At (trace ++ [.completed physical.number]) s → E returned s) :
    Triple (At trace) (finishAttempt ports policy identity before physical outcome)
      (fun _ => At (trace ++ [.completed physical.number])) E := by
  unfold finishAttempt
  refine Triple.silent.bind fun finishedAt => ?_
  refine (decideAttempt_keeps _ _ outcome).bind fun decision => ?_
  obtain ⟨disposition, delay, terminalErr⟩ := decision
  refine (narrowOnBackpressure_keeps disposition outcome).bind fun _ => ?_
  refine Triple.observe.bind fun unrecorded => ?_
  refine Triple.stopOn_bind (fun _ _ s hs => hcompleted _ s hs) fun _ => ?_
  refine Triple.stopOn_bind (fun _ _ s hs => hcompleted _ s hs) fun _ => ?_
  refine Triple.ite (fun _ => Triple.fail fun s hs => hcompleted _ s hs) fun _ => ?_
  refine Triple.ite (fun _ => Triple.fail fun s hs => hcompleted _ s hs) fun _ => ?_
  refine Triple.silent.bind fun interrupted => ?_
  refine Triple.stopOn_bind (fun _ _ s hs => hcompleted _ s hs) fun _ => ?_
  exact Triple.pure fun _ hs => hs

theorem range'_flatMap_succ (done : Nat) :
    (List.range' 1 (done + 1)).flatMap cycle =
      (List.range' 1 done).flatMap cycle ++ cycle (done + 1) := by
  rw [List.range'_concat, flatMap_append, Nat.one_mul, Nat.add_comm 1 done]
  simp

/-- **A round adds a whole attempt to the trace, or the run returns with a trace of the given
shape.** -/
theorem attemptRound_trace (result : RetryResult) (done : Nat) :
    Triple (At ((List.range' 1 done).flatMap cycle))
      (attemptRound ports policy identity attempt result (done + 1))
      (fun _ => At ((List.range' 1 (done + 1)).flatMap cycle))
      (fun _ s => Shape ports s.trace) := by
  have hshape : ∀ {tail : List AttemptEvent}, Tail ports done tail → ∀ s : Observed σ AttemptEvent,
      At ((List.range' 1 done).flatMap cycle ++ tail) s → Shape ports s.trace :=
    fun htail s hs => ⟨done, _, htail, hs⟩
  unfold attemptRound
  refine Triple.bind (makeAttempt_trace result (done + 1) ?_ ?_ ?_) fun made => ?_
  · intro _ s hs
    exact hshape .clean s (by rwa [append_nil])
  · intro _ s hs
    exact hshape .unprepared s hs
  · intro env hrefuses _ s hs
    exact hshape (.refused hrefuses) s (by rwa [append_assoc] at hs)
  · obtain ⟨physical, outcome⟩ := made
    rintro s ⟨hnumber, hs⟩
    refine (finishAttempt_trace result physical outcome ?_).conseq (fun _ h => h) ?_
      (fun _ _ h => h) s hs
    · intro _ s hs
      refine ⟨done + 1, [], .clean, ?_⟩
      rw [range'_flatMap_succ, append_nil, show s.trace = _ from hs, hnumber]
      simp [cycle]
    · intro _ s hs
      show s.trace = _
      rw [range'_flatMap_succ, show s.trace = _ from hs, hnumber]
      simp [cycle]

theorem rounds_trace (count done : Nat) (result : RetryResult) :
    Triple (At ((List.range' 1 done).flatMap cycle))
      ((List.range' (done + 1) count).foldlM (attemptRound ports policy identity attempt) result)
      (fun _ s => Shape ports s.trace) (fun _ s => Shape ports s.trace) := by
  induction count generalizing done result with
  | zero =>
    refine Triple.pure fun s hs => ⟨done, [], .clean, ?_⟩
    rwa [append_nil]
  | succ count ih =>
    rw [List.range'_succ, foldlM_cons]
    exact (attemptRound_trace result done).bind fun next => ih (done + 1) next

end Rounds

/-- **The trace of every run is made of whole attempts and one of the three ends.** -/
theorem execute_trace {σ : Type} (ports : RetryPorts σ) (policy : RetryPolicy)
    (identity : RequestIdentity) (attempt : Option (PhysicalAttempt → σ → AttemptOutcome × σ))
    (env : σ) : Shape ports (execute ports policy identity attempt env).2.trace := by
  have hempty : Shape ports [] := ⟨0, [], .clean, rfl⟩
  unfold execute
  split
  · exact hempty
  · exact hempty
  · next attempt _ =>
    have hrounds := @rounds_trace σ ports policy identity attempt policy.maximumAttempts 0
      { identity } ⟨env, []⟩ rfl
    simp only [Nat.zero_add] at hrounds
    simp only
    split
    · next returned final hrun =>
      rwa [hrun] at hrounds
    · next result final hrun =>
      rwa [hrun] at hrounds

/-- Attempts are prepared as 1, 2, … without gaps; each one that was prepared is completed exactly
once, before the next one is prepared; and each is made at most once, after it was prepared. -/
structure Accounted (trace : List AttemptEvent) : Prop where
  gapless : ∃ count, trace.filterMap AttemptEvent.preparing? = List.range' 1 count
  completedOnce : ∀ number, .prepared number true ∈ trace → trace.count (.completed number) = 1
  completedInTime : ∀ before number after, trace = before ++ .prepared number true :: after →
    ∃ between rest, after = between ++ .completed number :: rest ∧
      ∀ next accepted, AttemptEvent.prepared next accepted ∉ between
  attemptedOnce : ∀ number, trace.count (.attempted number) ≤ 1
  attemptedPrepared : ∀ number, .attempted number ∈ trace → .prepared number true ∈ trace

/-- No attempt is kept from being admitted: no answer of `Acquire` in the trace is an error. -/
def Admits (trace : List AttemptEvent) : Prop := ∀ number, .admitted number false ∉ trace

variable {event : AttemptEvent} {number : Nat} {numbers : List Nat} {tail : List AttemptEvent}

theorem count_cycles (h : ∀ first, (cycle first).count event = if first = number then 1 else 0)
    (numbers : List Nat) : (numbers.flatMap cycle).count event = numbers.count number := by
  induction numbers with
  | nil => rfl
  | cons first rest ih =>
    rw [flatMap_cons, count_append, h, ih, count_cons, Nat.add_comm]
    simp

theorem count_completed_cycles (numbers : List Nat) (number : Nat) :
    (numbers.flatMap cycle).count (.completed number) = numbers.count number :=
  count_cycles (fun first => by simp [cycle, count_cons]) numbers

theorem count_attempted_cycles (numbers : List Nat) (number : Nat) :
    (numbers.flatMap cycle).count (.attempted number) = numbers.count number :=
  count_cycles (fun first => by simp [cycle, count_cons]) numbers

theorem preparing_cycles (numbers : List Nat) :
    (numbers.flatMap cycle).filterMap AttemptEvent.preparing? = numbers := by
  induction numbers with
  | nil => rfl
  | cons first rest ih =>
    rw [flatMap_cons, filterMap_append, ih]
    rfl

theorem mem_cycles : event ∈ numbers.flatMap cycle ↔ ∃ number ∈ numbers, event ∈ cycle number :=
  mem_flatMap

/-- In whole attempts, one that was prepared is completed before the next is prepared. -/
theorem completed_cycles {before after : List AttemptEvent} (htail : .prepared number true ∉ tail)
    (h : numbers.flatMap cycle ++ tail = before ++ .prepared number true :: after) :
    ∃ between rest, after = between ++ .completed number :: rest ∧
      ∀ next accepted, AttemptEvent.prepared next accepted ∉ between := by
  induction numbers generalizing before with
  | nil =>
    rw [flatMap_nil, nil_append] at h
    exact absurd (h ▸ mem_append_right _ (mem_cons_self ..)) htail
  | cons first rest ih =>
    -- the four events of the first attempt, of which only the first can be the one found
    rcases before with _ | ⟨e₁, _ | ⟨e₂, _ | ⟨e₃, _ | ⟨e₄, before⟩⟩⟩⟩
    · simp only [flatMap_cons, cycle, cons_append, nil_append, List.cons.injEq,
        AttemptEvent.prepared.injEq, and_true] at h
      obtain ⟨rfl, rfl⟩ := h
      exact ⟨[.admitted first true, .attempted first], _, rfl, by simp⟩
    · simp [cycle] at h
    · simp [cycle] at h
    · simp [cycle] at h
    · simp only [flatMap_cons, cycle, cons_append, nil_append, List.cons.injEq] at h
      exact ih h.2.2.2.2

/-- **Whole attempts are accounted, also before an attempt that could not be prepared.** -/
theorem Tail.accounted {σ : Type} {ports : RetryPorts σ} {done : Nat}
    (htail : Tail ports done tail) (hadmits : Admits tail) :
    Accounted ((List.range' 1 done).flatMap cycle ++ tail) := by
  have hcount : ∀ number, (List.range' 1 done).count number ≤ 1 := fun number =>
    nodup_iff_count.1 nodup_range' number
  have hprepared : ∀ number, .prepared number true ∉ tail := by
    cases htail with
    | clean | unprepared => simp
    | refused => exact absurd (by simp) (hadmits (done + 1))
  have htail₀ : ∀ number,
      tail.count (.completed number) = 0 ∧ tail.count (.attempted number) = 0 := by
    cases htail <;> simp
  refine ⟨?_, ?_, ?_, ?_, ?_⟩
  · rw [filterMap_append, preparing_cycles]
    cases htail with
    | clean => exact ⟨done, by simp⟩
    | unprepared | refused =>
      exact ⟨done + 1, by rw [List.range'_concat, Nat.one_mul, Nat.add_comm 1]; rfl⟩
  · intro number hmem
    rw [count_append, count_completed_cycles, (htail₀ number).1, Nat.add_zero]
    obtain ⟨made, hmade, hevent⟩ := mem_cycles.1
      ((mem_append.1 hmem).resolve_right (hprepared number))
    have hnumber : number = made := by simpa [cycle] using hevent
    exact le_antisymm (hcount number) (count_pos_iff.2 (hnumber ▸ hmade))
  · intro before number after h
    exact completed_cycles (hprepared number) h
  · intro number
    rw [count_append, count_attempted_cycles, (htail₀ number).2, Nat.add_zero]
    exact hcount number
  · intro number hmem
    have hnot : .attempted number ∉ tail := count_eq_zero.1 (htail₀ number).2
    obtain ⟨made, hmade, hevent⟩ := mem_cycles.1
      ((mem_append.1 hmem).resolve_right hnot)
    have hnumber : number = made := by simpa [cycle] using hevent
    exact mem_append_left _ (mem_cycles.2 ⟨made, hmade, by simp [cycle, hnumber]⟩)

theorem admits_append_iff : Admits (numbers.flatMap cycle ++ tail) ↔ Admits tail := by
  simp [Admits, cycle]

/-- **A run completes every attempt it prepares, once and in time, exactly when no attempt that it
prepared is kept from being admitted.** -/
theorem execute_accounted_iff {σ : Type} (ports : RetryPorts σ) (policy : RetryPolicy)
    (identity : RequestIdentity) (attempt : Option (PhysicalAttempt → σ → AttemptOutcome × σ))
    (env : σ) :
    Accounted (execute ports policy identity attempt env).2.trace ↔
      Admits (execute ports policy identity attempt env).2.trace := by
  obtain ⟨done, tail, htail, htrace⟩ := execute_trace ports policy identity attempt env
  rw [htrace, admits_append_iff]
  refine ⟨fun haccounted => ?_, htail.accounted⟩
  cases htail with
  | clean | unprepared => simp [Admits]
  | refused =>
    have honce := haccounted.completedOnce (done + 1) (by simp)
    rw [count_append, count_completed_cycles] at honce
    have hnot : done + 1 ∉ List.range' 1 done := by
      rw [mem_range'_1]
      omega
    simp [count_eq_zero.2 hnot] at honce

/-- Where `Acquire` never answers with an error, every run admits its attempts. -/
theorem admits_of_acquire {σ : Type} {ports : RetryPorts σ}
    (h : ∀ env, (ports.acquire env).1 = none) (policy : RetryPolicy) (identity : RequestIdentity)
    (attempt : Option (PhysicalAttempt → σ → AttemptOutcome × σ)) (env : σ) :
    Admits (execute ports policy identity attempt env).2.trace := by
  obtain ⟨done, tail, htail, htrace⟩ := execute_trace ports policy identity attempt env
  rw [htrace, admits_append_iff]
  cases htail with
  | clean | unprepared => simp [Admits]
  | refused hrefuses => exact absurd (h _) hrefuses

/-- A provider. -/
def sampleProvider : ProviderIdentity where
  adapter := "opencompat"
  adapterVersion := "1"
  provider := "local"
  providerVersion := "1"

/-- A request. -/
def sampleIdentity : RequestIdentity where
  modelRequestID := ⟨"mrq_0190a5b0-0000-7000-8000-000000000041", .inr (by decide)⟩
  provider := sampleProvider
  model := ⟨sampleProvider, "coder", "1"⟩
  idempotency := ⟨false, "", ""⟩
  idempotencyKey := "request-1"
  requestHash := "0123456789abcdef0123456789abcdef0123456789abcdef0123456789abcdef"

/-- Three attempts. -/
def samplePolicy : RetryPolicy where
  maximumAttempts := 3
  initialDelay := 250 * 10 ^ 6
  maximumBackoff := 5 * 10 ^ 9
  maximumCumulativeWait := 15 * 10 ^ 9

/-- An environment in which the context is done while the request waits for a free slot, and every
other call succeeds. -/
def canceledWhileWaiting : RetryPorts Unit where
  ctxErr _ := (none, ())
  deadline := none
  now _ := (0, ())
  prepareProviderAttempt _ _ := (none, ())
  acquire _ := (some errContextCanceled, ())
  release _ := ()
  narrow _ := ()
  completeProviderAttempt _ _ := (none, ())
  jitter base _ := (base, ())
  sleep _ _ := (none, ())

/-- The attempt is prepared, waits for admission, and is never completed. -/
theorem waitingAttempt_unaccounted :
    let run := execute canceledWhileWaiting samplePolicy sampleIdentity
      (some fun _ _ => ({}, ())) ()
    run.1.2 = some (.wrap "admit physical provider attempt" errContextCanceled) ∧
      run.2.trace = [.prepared 1 true, .admitted 1 false] ∧ ¬Accounted run.2.trace := by
  have hvalid : validateRequestIdentity sampleIdentity = .ok () := by decide
  have hrun : (execute canceledWhileWaiting samplePolicy sampleIdentity
      (some fun _ _ => ({}, ())) ()) =
      (({ identity := sampleIdentity },
        some (.wrap "admit physical provider attempt" errContextCanceled)),
        ⟨(), [.prepared 1 true, .admitted 1 false]⟩) := by
    unfold execute
    rw [hvalid]
    rfl
  intro run
  refine ⟨by rw [show run = _ from hrun], by rw [show run = _ from hrun], ?_⟩
  rw [show run = _ from hrun]
  intro haccounted
  exact absurd (haccounted.completedOnce 1 (by simp)) (by decide)

end Codeflux.Providers
