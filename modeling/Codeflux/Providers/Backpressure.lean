import Codeflux.Providers.Admission
import Codeflux.Providers.Retry

/-!
# Narrowing under backpressure

An attempt whose retry is scheduled because the provider is overloaded reads the shared ceiling, and
narrows it to one less. The two are critical sections of their own, so that other calls may narrow
in between.
-/

namespace Codeflux.Providers

open Library AdmissionController

/-- The admission point of one executor. An attempt is named by its ticket; `readings` holds the
ceilings read by attempts that have not narrowed yet. -/
structure SharedExecutor where
  admission : AdmissionController
  judged : List Nat := []
  readings : List (Nat × Nat) := []

/-- The atomic steps of the calls. -/
inductive ExecutorStep
  /-- A step of `Acquire`, of a release or of a narrowing in the critical section. -/
  | admission (op : AdmissionStep)
  /-- The attempt that held the ticket is judged, and reads the ceiling if it is to be narrowed. -/
  | judge (ticket : Nat) (disposition : AttemptDisposition) (outcome : AttemptOutcome)
  /-- The attempt narrows to one less than what it has read. -/
  | narrow (ticket : Nat)

/-- The narrowings that have taken effect: those that have returned, and one that still drains. -/
def AdmissionController.narrowings (a : AdmissionController) : Nat :=
  a.narrowed.length + if a.outsideNarrow then 0 else 1

namespace SharedExecutor

/-- One atomic step, when it is possible. Only `narrow` enters a narrowing, and an attempt is judged
once, after its slot has been released. -/
def step (s : SharedExecutor) : ExecutorStep → Option SharedExecutor
  | .admission op =>
    match op with
    | .narrow _ => none
    | op => (s.admission.step op).map fun a => { s with admission := a }
  | .judge ticket disposition outcome =>
    if s.admission.released[ticket]? = some true ∧ ticket ∉ s.judged then
      if disposition = .retryScheduled ∧ outcome.err.any isProviderBackpressureFailure then
        -- `Ceiling` takes the lock
        if s.admission.critical = .free then
          some { s with
            judged := ticket :: s.judged
            readings := (ticket, s.admission.ceiling) :: s.readings }
        else none
      else some { s with judged := ticket :: s.judged }
    else none
  | .narrow ticket =>
    match s.readings.find? (·.1 = ticket) with
    | none => none
    | some reading => (s.admission.step (.narrow ((reading.2 : Int) - 1))).map fun a =>
        { s with admission := a, readings := s.readings.erase reading }

/-- The state after a step; a step that is not possible is not taken. -/
def next (s : SharedExecutor) (op : ExecutorStep) : SharedExecutor := (s.step op).getD s

end SharedExecutor

/-- The ceiling is the first one less a slot for every narrowing, and at least one. -/
def Counted (first : Int) (s : SharedExecutor) : Prop :=
  (s.admission.ceiling : Int) = max 1 (first - s.admission.narrowings)

/-- A narrowing that can be taken has read the ceiling that it finds, or finds it at one. -/
def Fresh : ExecutorStep → SharedExecutor → Prop
  | .narrow ticket, s => ∀ reading, s.readings.find? (·.1 = ticket) = some reading →
      s.admission.critical = .free → reading.2 = s.admission.ceiling ∨ s.admission.ceiling = 1
  | _, _ => True

/-- The ceiling is never above what has been read of it. -/
structure Read (s : SharedExecutor) : Prop where
  conserved : Conserved s.admission
  above : ∀ reading ∈ s.readings, s.admission.ceiling ≤ reading.2

variable {a b : AdmissionController} {s t : SharedExecutor} {op : ExecutorStep}

/-! ### What a step does to the ceiling -/

/-- Apart from the entry of a narrowing, no step changes the ceiling or the count. -/
theorem ceiling_eq_of_step {op : AdmissionStep} (h : a.step op = some b)
    (hop : ∀ n, op ≠ .narrow n) : b.ceiling = a.ceiling ∧ b.narrowings = a.narrowings := by
  cases moves_of_step h with
  | widen n | narrow n => exact absurd rfl (hop n)
  | keep ticket hflag hfree hdebt => simp [narrowings, outsideNarrow, hfree]
  | send ticket hcritical hroom | leave n hcritical hdone =>
    simp [narrowings, outsideNarrow, hcritical]
  | _ => exact ⟨rfl, rfl⟩

theorem ceiling_of_narrow {n : Int} (h : a.step (.narrow n) = some b) :
    a.critical = .free ∧ b.narrowings = a.narrowings + 1 ∧
      (b.ceiling : Int) = min (a.ceiling : Int) (max 1 n) := by
  cases moves_of_step h with
  | widen n hfree hceiling =>
    refine ⟨hfree, by simp [narrowings, outsideNarrow, hfree], ?_⟩
    show (a.ceiling : Int) = _
    omega
  | narrow n hfree hceiling =>
    refine ⟨hfree, by simp [narrowings, outsideNarrow, hfree], ?_⟩
    show ((max 1 n).toNat : Int) = _
    omega

/-- **A step keeps what is known of the readings, and keeps the count exactly when it is fresh.** -/
theorem Read.step (hs : Read s) (h : s.step op = some t) :
    Read t ∧ ∀ first, Counted first s → (Counted first t ↔ Fresh op s) := by
  cases op with
  | admission op =>
    simp only [SharedExecutor.step] at h
    split at h
    · cases h
    · next hop =>
      obtain ⟨a, ha, rfl⟩ := Option.map_eq_some_iff.1 h
      obtain ⟨hceiling, hcount⟩ := ceiling_eq_of_step ha hop
      refine ⟨⟨hs.conserved.step ha, ?_⟩, fun _ hcounted => iff_of_true ?_ trivial⟩
      · rw [hceiling]
        exact hs.above
      · rwa [Counted, hceiling, hcount]
  | judge ticket disposition outcome =>
    simp only [SharedExecutor.step] at h
    split_ifs at h <;> cases h
    · exact ⟨⟨hs.conserved, List.forall_mem_cons.2 ⟨le_rfl, hs.above⟩⟩,
        fun _ hcounted => iff_of_true hcounted trivial⟩
    · exact ⟨⟨hs.conserved, hs.above⟩, fun _ hcounted => iff_of_true hcounted trivial⟩
  | narrow ticket =>
    simp only [SharedExecutor.step] at h
    split at h
    · cases h
    · next reading hfind =>
      obtain ⟨a, ha, rfl⟩ := Option.map_eq_some_iff.1 h
      obtain ⟨hfree, hcount, hceiling⟩ := ceiling_of_narrow ha
      refine ⟨⟨hs.conserved.step ha, fun other hother => (ceiling_le_of_step ha).trans
        (hs.above other (List.mem_of_mem_erase hother))⟩, fun _ hcounted => ?_⟩
      have habove := hs.above reading (List.mem_of_find?_eq_some hfind)
      have hpositive := hs.conserved.positive
      have hfresh : Fresh (.narrow ticket) s ↔
          reading.2 = s.admission.ceiling ∨ s.admission.ceiling = 1 := by
        simp only [Fresh, hfind, Option.some.injEq, hfree, forall_const, forall_eq']
      rw [hfresh]
      simp only [Counted] at hcounted ⊢
      rw [hceiling, hcount]
      omega

/-- **The ceiling counts every narrowing, in every state of a run of the calls that share it,
exactly when each narrowing of the run is fresh where it is taken.** -/
theorem narrowings_counted_iff (maximumConcurrency : Int) (a : AdmissionController)
    (hnew : newAdmissionController maximumConcurrency = .ok a) (run : List ExecutorStep) :
    (∀ k, Counted maximumConcurrency ((run.take k).foldl SharedExecutor.next { admission := a })) ↔
      ∀ k op, run[k]? = some op →
        Fresh op ((run.take k).foldl SharedExecutor.next { admission := a }) := by
  have hread : Read { admission := a } := ⟨newAdmissionController_conserved hnew, by simp⟩
  refine forall_prefix_iff (fun s op (hs : Read s) => ?_) ?_ hread ?_ run
  · show Read (s.next op)
    cases hstep : s.step op with
    | none => simpa [SharedExecutor.next, hstep] using hs
    | some t => simpa [SharedExecutor.next, hstep] using (hs.step hstep).1
  · intro s op hs hcounted
    cases hstep : s.step op with
    | some t => simpa [SharedExecutor.next, hstep] using (hs.step hstep).2 _ hcounted
    | none =>
      refine iff_of_true (by simpa [SharedExecutor.next, hstep] using hcounted) ?_
      cases op with
      | narrow ticket =>
        intro reading hfind hfree
        simp [SharedExecutor.step, hfind, AdmissionController.step, hfree] at hstep
      | _ => trivial
  · simp only [newAdmissionController, run_ok_iff] at hnew
    obtain ⟨_, hone, rfl⟩ := hnew
    show (maximumConcurrency.toNat : Int) = max 1 (maximumConcurrency - 0)
    omega

/-- An attempt that was rate limited. -/
def rateLimitedOutcome : AttemptOutcome := { err := some ⟨errRateLimited, none⟩ }

/-- Two attempts are rate limited, and both read the ceiling before either narrows it. -/
def simultaneous : List ExecutorStep :=
  [.admission .acquire, .admission .acquire,
   .admission (.release 0), .admission .send, .admission (.release 1), .admission .send,
   .judge 0 .retryScheduled rateLimitedOutcome, .judge 1 .retryScheduled rateLimitedOutcome,
   .narrow 0, .admission .drain, .admission .leave, .narrow 1]

theorem narrowings_counted_simultaneous :
    ∃ a, newAdmissionController 3 = .ok a ∧
      ((∀ k, Counted 3 ((simultaneous.take k).foldl SharedExecutor.next { admission := a })) ↔
        ∀ k op, simultaneous[k]? = some op →
          Fresh op ((simultaneous.take k).foldl SharedExecutor.next { admission := a })) :=
  ⟨{ maximum := 3, idle := 3, ceiling := 3 }, by decide,
    narrowings_counted_iff 3 _ (by decide) simultaneous⟩

/-- Both narrowings of a ceiling of three have returned, and the ceiling is two. -/
theorem simultaneous_narrowing_lost :
    ∃ a, newAdmissionController 3 = .ok a ∧
      let s := simultaneous.foldl SharedExecutor.next { admission := a }
      s.judged = [1, 0] ∧ s.readings = [] ∧ s.admission.critical = .free ∧
        s.admission.narrowed.length = 2 ∧ s.admission.ceiling = 2 ∧ ¬Counted 3 s := by
  refine ⟨{ maximum := 3, idle := 3, ceiling := 3 }, by decide, ?_⟩
  unfold Counted
  decide

end Codeflux.Providers
