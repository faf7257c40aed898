import Codeflux.Events.Snapshot
import Codeflux.Frontend.TaskProjection

/-!
# Agreement of the server's and the browser's reducers

Server and browser fold the same durable events of a task into projections of their own. The browser
is stricter in two places: a task becomes ready only with a projected plan and a granted approval,
and a checkpoint of an earlier task revision is refused. It is laxer in one: its revisions wrap
around. Apart from these the two agree.
-/

namespace Codeflux.Frontend

open Library Domain Events Go

/-! ### The same facts -/

/-- The projected checkpoint as the server keeps it, with its revision. -/
def CheckpointProjection.fact (c : CheckpointProjection) : Option (Checkpoint × UInt64) :=
  if c.present then some (⟨c.id, c.taskRevision, c.planStep⟩, c.revision) else none

/-- The projected validation as the server keeps it, with its revision. -/
def ValidationProjection.fact (v : ValidationProjection) : Option (Validation × UInt64) :=
  if v.present then
    some (⟨v.id, v.state, v.safeSummary, v.required, v.acknowledged, v.diffRevision⟩, v.revision)
  else none

/-- The projected acceptance as the server keeps it, with its revision. -/
def AcceptanceProjection.fact (a : AcceptanceProjection) : Option (ChangeAcceptance × UInt64) :=
  if a.present then some (⟨a.state, a.bindings⟩, a.revision) else none

/-- Snapshot and projection are about the same task and have the same facts of it. -/
structure SameFacts (s : SessionSnapshot) (p : TaskProjection) : Prop where
  taskID : s.taskID = some p.taskID
  state : p.state = s.taskState
  revision : p.revision = s.taskRevision
  checkpoint : p.checkpoint.fact = s.checkpoint.map (·, s.checkpointRevision)
  validation : p.validation.fact = s.validation.map (·, s.validationRevision)
  acceptance : p.acceptance.fact = s.changeAcceptance.map (·, s.changeAcceptanceRevision)

/-- Snapshot and projection have the same facts, through the same sequence. -/
structure Agrees (s : SessionSnapshot) (p : TaskProjection) : Prop extends SameFacts s p where
  lastSequence : p.lastSequence = s.throughSequence

/-! ### What the browser asks for beyond the server -/

/-- A transition that makes a planned task ready needs a projected plan and a granted approval. -/
def PlanGuarded (p : TaskProjection) (event : SessionEvent) : Prop :=
  event.kind = .declared .taskStateChanged → ∀ change ∈ event.payload.taskStateChanged,
    change.source = TaskState.awaitingPlanApproval → change.target = TaskState.ready →
      p.plan.present = true ∧ change.approval = ApprovalRequestState.granted

/-- The task revision of the checkpoint an event reports. -/
def checkpointTaskRevision (event : SessionEvent) : Option UInt64 :=
  if event.kind = .declared .checkpointCreated then
    event.payload.checkpoint.map (·.taskRevision)
  else none

/-- The checkpoints, from the projected one on, are of task revisions that do not decrease. -/
def CheckpointsAdvance (s : SessionSnapshot) (events : List SessionEvent) : Prop :=
  List.IsChain (· ≤ ·)
    ((s.checkpoint.map (·.taskRevision)).toList ++ events.filterMap checkpointTaskRevision)

theorem next_iff {current incoming : UInt64} :
    incoming = current + 1 ∧ incoming ≠ 0 ↔ current < incoming ∧ incoming = current + 1 := by
  constructor
  · rintro ⟨rfl, hne⟩
    refine ⟨?_, rfl⟩
    rw [UInt64.lt_iff_toNat_lt]
    have hbound := current.toNat_lt
    have hsum : (current + 1).toNat = (current.toNat + 1) % 2 ^ 64 := UInt64.toNat_add current 1
    have hne' : (current + 1).toNat ≠ 0 := fun hc => hne (UInt64.toNat_inj.1 (by simpa using hc))
    omega
  · rintro ⟨hlt, rfl⟩
    refine ⟨rfl, fun hzero => ?_⟩
    rw [hzero] at hlt
    exact absurd hlt (UInt64.not_lt.2 UInt64.zero_le)

variable {revision serverRevision : UInt64}

theorem fact_cases {α : Type} {present : Bool} {f : α} {fact : Option α}
    (h : (if present then some (f, revision) else none) = fact.map (·, serverRevision)) :
    present = false ∧ fact = none ∨ present = true ∧ fact = some f ∧ revision = serverRevision := by
  cases present <;> cases fact <;> simp_all

theorem nextRevision_eq {α : Type} {present : Bool} {fact : Option α} {f : α} {ValidFact : α → Prop}
    (hserver : SessionSnapshot.Projected ValidFact fact serverRevision)
    (h : (if present then some (f, revision) else none) = fact.map (·, serverRevision)) :
    nextRevision present revision = serverRevision + 1 := by
  rcases fact_cases h with ⟨rfl, rfl⟩ | ⟨rfl, rfl, rfl⟩
  · have hzero : serverRevision = 0 := hserver
    rw [hzero]
    rfl
  · rfl

/-! ### One event -/

/-- What the browser asks of one event beyond the server. -/
structure Guarded (s : SessionSnapshot) (p : TaskProjection) (event : SessionEvent) : Prop where
  plan : PlanGuarded p event
  checkpoint : ∀ r ∈ checkpointTaskRevision event, ∀ c ∈ s.checkpoint, c.taskRevision ≤ r

/-- The two reducers on one event of the session's task, before the sequence advances. -/
structure StepAgrees (s : SessionSnapshot) (p : TaskProjection) (event : SessionEvent)
    (adapted : ProjectionEvent) : Prop where
  accepts : ((∃ p', reduceEvent p adapted = .ok p') ∧ event.revision ≠ 0) ↔
    ((∃ s', applyServerProjectionEvent s event = .ok s') ∧ Guarded s p event)
  facts : ∀ p' s', reduceEvent p adapted = .ok p' → applyServerProjectionEvent s event = .ok s' →
    SameFacts s' p'
  frame : ∀ p', reduceEvent p adapted = .ok p' →
    p'.plan.present = p.plan.present ∧ p'.taskID = p.taskID
  identity : ∀ s', applyServerProjectionEvent s event = .ok s' →
    s'.sessionID = s.sessionID ∧ s'.threadID = s.threadID
  checkpoint : ∀ s', applyServerProjectionEvent s event = .ok s' →
    s'.checkpoint.map (·.taskRevision) =
      (checkpointTaskRevision event).or (s.checkpoint.map (·.taskRevision))

section Step

variable {s : SessionSnapshot} {p : TaskProjection} {event : SessionEvent}

theorem bindSnapshotTask_bound (h : SameFacts s p) (htask : event.taskID = some p.taskID)
    (initial : OpenEnum TaskState) : bindSnapshotTask s event initial = .ok s :=
  bindSnapshotTask_ok_iff.2 ⟨p.taskID, htask, .inr ⟨h.taskID, rfl⟩⟩

/-- The two reducers agree on an event when they ask for the next revision and the same check, the
browser for its guard in addition, and the results have the same facts. -/
theorem StepAgrees.of_results {adapted : ProjectionEvent} (current : UInt64) (check : Prop)
    {t : SessionSnapshot} {q : TaskProjection}
    (hserver : ∀ s', applyServerProjectionEvent s event = .ok s' ↔
      (current < event.revision ∧ event.revision = current + 1) ∧ check ∧ t = s')
    (hbrowser : ∀ p', reduceEvent p adapted = .ok p' ↔
      event.revision = current + 1 ∧ check ∧ Guarded s p event ∧ q = p') (hfacts : SameFacts t q)
    (hframe : q.plan.present = p.plan.present ∧ q.taskID = p.taskID)
    (hidentity : t.sessionID = s.sessionID ∧ t.threadID = s.threadID)
    (hcheckpoint : t.checkpoint.map (·.taskRevision) =
      (checkpointTaskRevision event).or (s.checkpoint.map (·.taskRevision))) :
    StepAgrees s p event adapted where
  accepts := by
    simp only [hserver, hbrowser, ← next_iff]
    constructor
    · rintro ⟨⟨_, hrev, hcheck, hguard, _⟩, hne⟩
      exact ⟨⟨_, ⟨hrev, hne⟩, hcheck, rfl⟩, hguard⟩
    · rintro ⟨⟨_, ⟨hrev, hne⟩, hcheck, _⟩, hguard⟩
      exact ⟨⟨_, hrev, hcheck, hguard, rfl⟩, hne⟩
  facts p' s' hp' hs' := by
    obtain ⟨_, _, rfl⟩ := (hserver s').1 hs'
    obtain ⟨_, _, _, rfl⟩ := (hbrowser p').1 hp'
    exact hfacts
  frame p' hp' := by
    obtain ⟨_, _, _, rfl⟩ := (hbrowser p').1 hp'
    exact hframe
  identity s' hs' := by
    obtain ⟨_, _, rfl⟩ := (hserver s').1 hs'
    exact hidentity
  checkpoint s' hs' := by
    obtain ⟨_, _, rfl⟩ := (hserver s').1 hs'
    exact hcheckpoint

/-- The plan after a transition. -/
def planAfter (plan : PlanProjection) (change : TaskTransitionEvent) : PlanProjection :=
  if change.source = TaskState.awaitingPlanApproval ∧ change.target = TaskState.ready then
    { plan with approval := .declared .granted }
  else if change.source = TaskState.awaitingPlanApproval ∧
      change.target = TaskState.forecasting ∧ plan.present then
    { plan with approval := .declared .cancelled }
  else plan

theorem applyTaskTransition_ok_iff {change : TaskTransitionEvent} {p' : TaskProjection} :
    applyTaskTransition p change = .ok p' ↔
      change.revision = p.revision + 1 ∧ change.source = p.state ∧
      validateTaskTransition ⟨change.source, change.target, change.approval⟩ = .ok () ∧
      (change.source = TaskState.awaitingPlanApproval → change.target = TaskState.ready →
        p.plan.present = true ∧ change.approval = ApprovalRequestState.granted) ∧
      { p with state := change.target, revision := change.revision,
               plan := planAfter p.plan change } = p' := by
  simp only [applyTaskTransition, run_ok_iff, mapError_ok_iff, Unique.exists_iff,
    PUnit.default_eq_unit]
  refine and_congr_right fun _ => and_congr_right fun _ => and_congr_right fun _ => ?_
  unfold planAfter
  by_cases hready : change.source = TaskState.awaitingPlanApproval ∧ change.target = TaskState.ready
  · simp [hready]
  · rw [if_neg hready, if_neg hready]
    have hvacuous : change.source = TaskState.awaitingPlanApproval →
        change.target = TaskState.ready →
          p.plan.present = true ∧ change.approval = ApprovalRequestState.granted :=
      fun h1 h2 => absurd ⟨h1, h2⟩ hready
    rw [and_iff_right hvacuous]
    split_ifs <;> exact pure_ok_iff

/-- An event of one kind asks nothing more of the browser when it is neither a state change nor a
checkpoint. -/
theorem guarded_of_kind {kind : Kind} (hkind : event.kind = .declared kind)
    (hstate : kind ≠ .taskStateChanged) (hcheckpoint : kind ≠ .checkpointCreated) :
    Guarded s p event where
  plan hc := absurd (hkind.symm.trans hc) (by simp [hstate])
  checkpoint r hr := by simp [checkpointTaskRevision, hkind, hcheckpoint] at hr

/-- The browser's check that one validation may follow another is the server's. -/
theorem checkValidation_ok_iff (h : SameFacts s p) (v : Validation) (expected revision : UInt64)
    {u : Unit} :
    checkValidation p.validation expected ⟨v.validationID, v.state, v.required, v.acknowledged,
        v.redactedSummary, revision, v.diffRevision⟩ = .ok u ↔
      checkValidationUpdate s.validation v = .ok () := by
  unfold checkValidation checkValidationUpdate checkValidationStart
  rcases fact_cases h.validation with ⟨hp, hnone⟩ | ⟨hp, hsome, _⟩
  · simp only [hp, hnone, ensure_ok_iff, Bool.false_eq_true, if_false]
    rfl
  · simp only [hp, hsome, if_true, run_ok_iff, exists_const]
    refine and_congr_right fun _ => ?_
    split_ifs with hsame
    · simp
    · simp only [ensure_ok_iff]
      rfl

theorem checkAcceptance_ok_iff (h : SameFacts s p) (a : ChangeAcceptance)
    (expected revision : UInt64) {u : Unit} :
    checkAcceptance p.acceptance expected ⟨a.state, revision, a.bindings⟩ = .ok u ↔
      checkAcceptanceUpdate s.changeAcceptance a = .ok () := by
  unfold checkAcceptance checkAcceptanceUpdate
  rcases fact_cases h.acceptance with ⟨hp, hnone⟩ | ⟨hp, hsome, _⟩
  · simp [hp, hnone]
  · simp [hp, hsome]

section

variable (hs : s.WellFormed) (h : SameFacts s p) (hevent : event.Valid)
  (htask : event.taskID = some p.taskID)

include h hevent htask

theorem taskTransition_agrees (hkind : event.kind = .declared .taskStateChanged)
    {change : TaskStateChanged} (hchange : event.payload.taskStateChanged = some change) :
    StepAgrees s p event
      (.taskTransition ⟨change.source, change.target, event.revision, change.approval⟩) := by
  have hvalid := hevent.payload
  rw [hkind, validatePayload, hchange, validateTaskState] at hvalid
  have hguard : Guarded s p event ↔ (change.source = TaskState.awaitingPlanApproval →
      change.target = TaskState.ready →
        p.plan.present = true ∧ change.approval = ApprovalRequestState.granted) := by
    constructor
    · intro hg
      exact hg.plan hkind change hchange
    · intro hg
      refine ⟨fun _ c hc => ?_, fun r hr => ?_⟩
      · obtain rfl : change = c := by simpa [hchange] using hc
        exact hg
      · simp [checkpointTaskRevision, hkind] at hr
  refine .of_results s.taskRevision (change.source = s.taskState)
    (t := { s with taskState := change.target, taskRevision := event.revision })
    (q := { p with
      state := change.target
      revision := event.revision
      plan := planAfter p.plan
        ⟨change.source, change.target, event.revision, change.approval⟩ })
    (fun s' => ?_) (fun p' => ?_) { h with state := rfl, revision := rfl }
    ⟨by unfold planAfter; split_ifs <;> rfl, rfl⟩ ⟨rfl, rfl⟩
    (by simp [checkpointTaskRevision, hkind])
  · simp [applyServerProjectionEvent, hkind, applyTaskStateChanged, hchange,
      bindSnapshotTask_bound h htask, requireNextEntityRevision_ok_iff]
  · simp [reduceEvent, applyTaskTransition_ok_iff, hguard, hvalid, h.state, h.revision]

include hs

theorem checkpoint_agrees (hkind : event.kind = .declared .checkpointCreated)
    {c : Checkpoint} (hc : event.payload.checkpoint = some c) :
    StepAgrees s p event
      (.checkpoint ⟨c.checkpointID, c.taskRevision, c.planStep, event.timestamp,
        event.revision⟩) := by
  have hvalid : c.checkpointID.isZero = false ∧ c.taskRevision ≠ 0 ∧ trimSpace c.planStep ≠ "" := by
    simpa [hkind, validatePayload, hc, validateCheckpoint, and_assoc] using hevent.payload
  have hguard : Guarded s p event ↔ ∀ old ∈ s.checkpoint, old.taskRevision ≤ c.taskRevision := by
    constructor
    · intro hg
      exact hg.checkpoint c.taskRevision (by simp [checkpointTaskRevision, hkind, hc])
    · intro hg
      refine ⟨fun hstate => absurd (hkind.symm.trans hstate) (by simp), fun r hr => ?_⟩
      obtain rfl : c.taskRevision = r := by
        simpa [checkpointTaskRevision, hkind, hc] using hr
      exact hg
  have hregress : (p.checkpoint.present = true → p.checkpoint.taskRevision ≤ c.taskRevision) ↔
      ∀ old ∈ s.checkpoint, old.taskRevision ≤ c.taskRevision := by
    rcases fact_cases h.checkpoint with ⟨hp, hnone⟩ | ⟨hp, hsome, _⟩
    · simp [hp, hnone]
    · simp [hp, hsome]
  refine .of_results s.checkpointRevision (c.taskRevision ≤ s.taskRevision)
    (t := { s with checkpoint := some c, checkpointRevision := event.revision })
    (q := { p with
      checkpoint := ⟨true, c.checkpointID, c.taskRevision, c.planStep, event.timestamp,
        event.revision⟩ })
    (fun s' => ?_) (fun p' => ?_) { h with checkpoint := rfl } ⟨rfl, rfl⟩ ⟨rfl, rfl⟩
    (by simp [checkpointTaskRevision, hkind, hc])
  · simp [applyServerProjectionEvent, hkind, applyCheckpointCreated, hc,
      bindSnapshotTask_bound h htask, requireNextEntityRevision_ok_iff]
  · rw [hguard, ← hregress]
    simp [reduceEvent, applyCheckpointUpdate, nextRevision_eq hs.checkpoint h.checkpoint, hvalid,
      hevent.timestamp, hevent.utc, h.revision, and_assoc]

theorem validation_agrees (hkind : event.kind = .declared .validationUpdated)
    {v : Validation} (hv : event.payload.validation = some v) :
    StepAgrees s p event
      (.validationUpdate ⟨v.validationID, v.state, v.required, v.acknowledged, v.redactedSummary,
        event.revision, v.diffRevision⟩) := by
  have hvalid : v.validationID.isZero = false ∧ v.state.isValid = true ∧ v.diffRevision ≠ 0 := by
    simpa [hkind, validatePayload, hv, validateValidation, and_assoc] using hevent.payload
  have hguard : Guarded s p event := guarded_of_kind hkind (by decide) (by decide)
  refine .of_results s.validationRevision (checkValidationUpdate s.validation v = .ok ())
    (t := { s with validation := some v, validationRevision := event.revision })
    (q := { p with
      validation := ⟨true, v.validationID, v.state, v.required, v.acknowledged,
        v.redactedSummary, event.revision, v.diffRevision⟩ })
    (fun s' => ?_) (fun p' => ?_) { h with validation := rfl } ⟨rfl, rfl⟩ ⟨rfl, rfl⟩
    (by simp [checkpointTaskRevision, hkind])
  · simp [applyServerProjectionEvent, hkind, applyValidationUpdated, hv,
      bindSnapshotTask_bound h htask, requireNextEntityRevision_ok_iff, Unique.exists_iff]
  · simp [reduceEvent, applyValidationUpdate, nextRevision_eq hs.validation h.validation, hvalid,
      checkValidation_ok_iff h, hguard]

theorem acceptance_agrees (hkind : event.kind = .declared .changeAcceptanceUpdated)
    {a : ChangeAcceptance} (ha : event.payload.changeAcceptance = some a) :
    StepAgrees s p event (.acceptanceUpdate ⟨a.state, event.revision, a.bindings⟩) := by
  have hvalid : a.state.isValid = true ∧ a.bindings.complete = true := by
    simpa [hkind, validatePayload, ha, validateChangeAcceptance] using hevent.payload
  have hguard : Guarded s p event := guarded_of_kind hkind (by decide) (by decide)
  refine .of_results s.changeAcceptanceRevision
    (checkAcceptanceUpdate s.changeAcceptance a = .ok ())
    (t := { s with changeAcceptance := some a, changeAcceptanceRevision := event.revision })
    (q := { p with acceptance := ⟨true, a.state, event.revision, a.bindings⟩ })
    (fun s' => ?_) (fun p' => ?_) { h with acceptance := rfl } ⟨rfl, rfl⟩ ⟨rfl, rfl⟩
    (by simp [checkpointTaskRevision, hkind])
  · simp [applyServerProjectionEvent, hkind, applyChangeAcceptanceUpdated, ha,
      bindSnapshotTask_bound h htask, requireNextEntityRevision_ok_iff, Unique.exists_iff]
  · simp [reduceEvent, applyAcceptanceUpdate, nextRevision_eq hs.changeAcceptance h.acceptance,
      hvalid, checkAcceptance_ok_iff h, hguard]

/-- The adapter takes a valid event of the task to a projection event on which the reducers
agree. -/
theorem adapted_agrees (hprojects : event.projectsTask = true) :
    ∃ adapted, projectionEventFromSessionEvent p event = .ok adapted ∧
      StepAgrees s p event adapted := by
  have hpayload := hevent.payload
  have hrequired : requireTaskEvent p event = .ok () := by simp [requireTaskEvent, htask]
  have hvalidate : event.validate = .ok () := SessionEvent.validate_ok_iff.2 hevent
  simp only [projectionEventFromSessionEvent, hvalidate, Except.mapError, htask, hrequired]
  unfold SessionEvent.projectsTask at hprojects
  split at hprojects
  · next hkind =>
    cases hchange : event.payload.taskStateChanged with
    | none => simp [hkind, validatePayload, hchange, validateTaskState] at hpayload
    | some change =>
      refine ⟨_, ?_, taskTransition_agrees h hevent htask hkind hchange⟩
      simp [hkind, payloadField, pure, Except.pure]
  · next hkind =>
    cases hc : event.payload.checkpoint with
    | none => simp [hkind, validatePayload, hc, validateCheckpoint] at hpayload
    | some c =>
      refine ⟨_, ?_, checkpoint_agrees hs h hevent htask hkind hc⟩
      simp [hkind, payloadField, pure, Except.pure]
  · next hkind =>
    cases hv : event.payload.validation with
    | none => simp [hkind, validatePayload, hv, validateValidation] at hpayload
    | some v =>
      refine ⟨_, ?_, validation_agrees hs h hevent htask hkind hv⟩
      simp [hkind, payloadField, pure, Except.pure]
  · next hkind =>
    cases ha : event.payload.changeAcceptance with
    | none => simp [hkind, validatePayload, ha, validateChangeAcceptance] at hpayload
    | some a =>
      refine ⟨_, ?_, acceptance_agrees hs h hevent htask hkind ha⟩
      simp [hkind, payloadField, pure, Except.pure]
  · exact absurd hprojects (by decide)

end

/-- An event of the snapshot's session and task, of one of the four kinds. -/
structure Concerns (s : SessionSnapshot) (p : TaskProjection) (event : SessionEvent) : Prop where
  valid : event.Valid
  sessionID : event.sessionID = s.sessionID
  taskID : event.taskID = some p.taskID
  projectsTask : event.projectsTask = true

theorem step_agrees (hs : s.WellFormed) (h : Agrees s p) (hevent : Concerns s p event) :
    (((∃ p', applySessionEvent p event = .ok p') ∧ event.revision ≠ 0 ∧
        event.threadID = s.threadID) ↔
      (∃ s', reduceTaskEvent s event = .ok s') ∧ Guarded s p event) ∧
    ∀ p' s', applySessionEvent p event = .ok p' → reduceTaskEvent s event = .ok s' →
      Agrees s' p' ∧ (p'.plan.present = p.plan.present ∧ p'.taskID = p.taskID) ∧
        (s'.sessionID = s.sessionID ∧ s'.threadID = s.threadID) ∧
        s'.checkpoint.map (·.taskRevision) =
          (checkpointTaskRevision event).or (s.checkpoint.map (·.taskRevision)) := by
  obtain ⟨adapted, hadapted, hstep⟩ := adapted_agrees hs h.toSameFacts hevent.valid hevent.taskID
    hevent.projectsTask
  have hbrowser : ∀ p', applySessionEvent p event = .ok p' ↔
      event.sequence = s.throughSequence + 1 ∧ ∃ q, reduceEvent p adapted = .ok q ∧
        { q with lastSequence := event.sequence } = p' := by
    intro p'
    simp [applySessionEvent, hadapted, applyEvent, h.lastSequence]
  have hserver : ∀ s', reduceTaskEvent s event = .ok s' ↔ event.threadID = s.threadID ∧
      event.sequence = s.throughSequence + 1 ∧ ∃ t, applyServerProjectionEvent s event = .ok t ∧
        { t with throughSequence := event.sequence } = s' := by
    intro s'
    simp only [reduceTaskEvent, run_ok_iff, SessionEvent.validate_ok_iff, exists_const,
      hevent.valid, hevent.sessionID, true_and]
    have hnext := @next_iff s.throughSequence event.sequence
    have hpositive := hevent.valid.sequence
    tauto
  constructor
  · have haccepts := hstep.accepts
    constructor
    · rintro ⟨⟨p', hp'⟩, hne, hthread⟩
      obtain ⟨hsequence, q, hq, _⟩ := (hbrowser p').1 hp'
      obtain ⟨⟨t, ht⟩, hguard⟩ := haccepts.1 ⟨⟨q, hq⟩, hne⟩
      exact ⟨⟨_, (hserver _).2 ⟨hthread, hsequence, t, ht, rfl⟩⟩, hguard⟩
    · rintro ⟨⟨s', hs'⟩, hguard⟩
      obtain ⟨hthread, hsequence, t, ht, _⟩ := (hserver s').1 hs'
      obtain ⟨⟨q, hq⟩, hne⟩ := haccepts.2 ⟨⟨t, ht⟩, hguard⟩
      exact ⟨⟨_, (hbrowser _).2 ⟨hsequence, q, hq, rfl⟩⟩, hne, hthread⟩
  · intro p' s' hp' hs'
    obtain ⟨_, q, hq, rfl⟩ := (hbrowser p').1 hp'
    obtain ⟨_, _, t, ht, rfl⟩ := (hserver s').1 hs'
    have hfacts := hstep.facts q t hq ht
    exact ⟨{ hfacts with lastSequence := rfl }, hstep.frame q hq, hstep.identity t ht,
      hstep.checkpoint t ht⟩

end Step

theorem planGuarded_congr {p q : TaskProjection} (h : q.plan.present = p.plan.present)
    (event : SessionEvent) : PlanGuarded q event ↔ PlanGuarded p event := by
  unfold PlanGuarded
  rw [h]

variable {event : SessionEvent} {s t : SessionSnapshot} {events : List SessionEvent}

/-- The first checkpoint of a history is compared with the projected one, the rest with it. -/
theorem checkpointsAdvance_cons_iff :
    CheckpointsAdvance s (event :: events) ↔
      (∀ r ∈ checkpointTaskRevision event, ∀ c ∈ s.checkpoint, c.taskRevision ≤ r) ∧
        List.IsChain (· ≤ ·) (((checkpointTaskRevision event).or
          (s.checkpoint.map (·.taskRevision))).toList ++
          events.filterMap checkpointTaskRevision) := by
  unfold CheckpointsAdvance
  cases hevent : checkpointTaskRevision event with
  | none => simp [hevent]
  | some r =>
    cases s.checkpoint with
    | none => simp [hevent]
    | some c => simp [hevent, List.isChain_cons_cons]

theorem folds_agree {p : TaskProjection} (events : List SessionEvent)
    (hs : s.WellFormed) (h : Agrees s p) (hevents : ∀ event ∈ events, Concerns s p event) :
    (((∃ p', events.foldlM applySessionEvent p = .ok p') ∧
        ∀ event ∈ events, event.revision ≠ 0 ∧ event.threadID = s.threadID) ↔
      (∃ s', events.foldlM reduceTaskEvent s = .ok s') ∧
        (∀ event ∈ events, PlanGuarded p event) ∧ CheckpointsAdvance s events) ∧
    ∀ p' s', events.foldlM applySessionEvent p = .ok p' →
      events.foldlM reduceTaskEvent s = .ok s' → Agrees s' p' := by
  induction events generalizing s p with
  | nil =>
    refine ⟨?_, fun p' s' hp' hs' => ?_⟩
    · cases hc : s.checkpoint <;> simp [CheckpointsAdvance, hc, pure, Except.pure]
    · obtain rfl := pure_ok_iff.1 hp'
      obtain rfl := pure_ok_iff.1 hs'
      exact h
  | cons event events ih =>
    obtain ⟨haccepts, hagrees⟩ := step_agrees hs h (hevents event List.mem_cons_self)
    simp only [List.foldlM_cons, bind_ok_iff, List.forall_mem_cons]
    have hrest := fun q t hq ht =>
      have hqt := hagrees q t hq ht
      ih (reduceTaskEvent_advances hs ht).wellFormed hqt.1 fun e he =>
        have hevent := hevents e (List.mem_cons_of_mem _ he)
        ⟨hevent.valid, hevent.sessionID.trans hqt.2.2.1.1.symm, hqt.2.1.2 ▸ hevent.taskID,
          hevent.projectsTask⟩
    constructor
    · constructor
      · rintro ⟨⟨p', q, hq, hp'⟩, hhead, htail⟩
        obtain ⟨⟨t, ht⟩, hguard⟩ := haccepts.1 ⟨⟨q, hq⟩, hhead⟩
        obtain ⟨_, ⟨hplan, _⟩, ⟨_, hthread⟩, hcheckpoint⟩ := hagrees q t hq ht
        obtain ⟨⟨s', hs'⟩, hplans, hchain⟩ :=
          (hrest q t hq ht).1.1 ⟨⟨p', hp'⟩, by simpa only [hthread] using htail⟩
        refine ⟨⟨s', t, ht, hs'⟩, ⟨hguard.plan, fun e he => ?_⟩, ?_⟩
        · exact (planGuarded_congr hplan e).1 (hplans e he)
        · exact checkpointsAdvance_cons_iff.2 ⟨hguard.checkpoint, hcheckpoint ▸ hchain⟩
      · rintro ⟨⟨s', t, ht, hs'⟩, ⟨hheadPlan, htailPlan⟩, hchain⟩
        obtain ⟨hfirst, hchain⟩ := checkpointsAdvance_cons_iff.1 hchain
        obtain ⟨⟨q, hq⟩, hhead⟩ := haccepts.2 ⟨⟨t, ht⟩, hheadPlan, hfirst⟩
        obtain ⟨_, ⟨hplan, _⟩, ⟨_, hthread⟩, hcheckpoint⟩ := hagrees q t hq ht
        rw [← hcheckpoint] at hchain
        obtain ⟨⟨p', hp'⟩, htail⟩ := (hrest q t hq ht).1.2 ⟨⟨s', hs'⟩,
          fun e he => (planGuarded_congr hplan e).2 (htailPlan e he), hchain⟩
        exact ⟨⟨p', q, hq, hp'⟩, hhead, by simpa only [hthread] using htail⟩
    · rintro p' s' ⟨q, hq, hp'⟩ ⟨t, ht, hs'⟩
      exact (hrest q t hq ht).2 p' s' hp' hs'

/-- **The reducers agree.** From a valid snapshot and a projection with the same facts, on every
history of valid events of the session's task of the four kinds: the browser accepts it, with
positive revisions and the session's thread, exactly when the server does, every transition of a
planned task to ready has a projected plan and a granted approval, and the checkpoints' task
revisions do not decrease. Then both have the same facts. -/
theorem reducers_agree (s : SessionSnapshot) (p : TaskProjection) (events : List SessionEvent)
    (hs : s.validate = .ok ()) (h : Agrees s p) (hevents : ∀ event ∈ events, Concerns s p event) :
    (((∃ p', events.foldlM applySessionEvent p = .ok p') ∧
        ∀ event ∈ events, event.revision ≠ 0 ∧ event.threadID = s.threadID) ↔
      (∃ s', reduceTaskEvents s events = .ok s') ∧
        (∀ event ∈ events, PlanGuarded p event) ∧ CheckpointsAdvance s events) ∧
    ∀ p' s', events.foldlM applySessionEvent p = .ok p' → reduceTaskEvents s events = .ok s' →
      Agrees s' p' := by
  have hvalid := SessionSnapshot.validate_ok_iff.1 hs
  simp only [reduceTaskEvents_ok_iff, hvalid, and_true, true_and]
  exact folds_agree events hvalid.1 h hevents

/-- A snapshot of the sample task that awaits the approval of its plan, in task revision two. -/
def awaitingSnapshot : SessionSnapshot :=
  { sampleBase with
    throughSequence := 2
    taskID := some sampleTaskID
    taskState := .declared .awaitingPlanApproval
    taskRevision := 2 }

/-- The projection with the same facts, without a plan. -/
def awaitingProjection : TaskProjection where
  taskID := sampleTaskID
  state := .declared .awaitingPlanApproval
  revision := 2
  lastSequence := 2
  plan := ⟨false, 0, "", .ofText "", []⟩
  tool := ⟨false, "", "", .ofText "", 0, ""⟩
  approval := ⟨false, .zero, .ofText "", "", "", 0⟩
  checkpoint := ⟨false, .zero, 0, "", ⟨0, true⟩, 0⟩
  validation := ⟨false, .zero, .ofText "", false, false, "", 0, 0⟩
  review := ⟨false, 0, ⟨0, 0, 0, 0, 0⟩⟩
  acceptance := ⟨false, .ofText "", 0, ⟨0, 0, 0, 0, 0⟩⟩
  budget := ⟨false, 0, {}, {}, {}⟩
  graph := ⟨false, 0⟩
  recovery := .declared .none
  recoveryDetail :=
    ⟨⟨0, .ofText "", none, "", "", false, false, false, false, ⟨0, 0, 0, 0, 0⟩, [], []⟩, false⟩

theorem awaiting_agrees : Agrees awaitingSnapshot awaitingProjection where
  taskID := rfl
  state := rfl
  revision := rfl
  checkpoint := rfl
  validation := rfl
  acceptance := rfl
  lastSequence := rfl

/-- A checkpoint of the sample task, of the given task revision. -/
def sampleCheckpointCreated (sequence revision taskRevision : UInt64) : SessionEvent :=
  { sampleTaskEvent sequence .checkpointCreated
      { checkpoint := some
          ⟨⟨"ckp_0190a5b0-0000-7000-8000-000000000023", .inr (by decide)⟩, taskRevision,
            "edit"⟩ } with
    revision }

/-- The sample task becomes ready, without approval evidence. -/
def sampleReady (sequence revision : UInt64) : SessionEvent :=
  { sampleTaskEvent sequence .taskStateChanged
      { taskStateChanged := some
          ⟨.declared .awaitingPlanApproval, .declared .ready, .ofText ""⟩ } with
    revision }

/-- A checkpoint and a validation are accepted by the browser because the server accepts them. -/
theorem reducers_agree_on_checkpoint :
    ∃ p', [sampleCheckpointCreated 3 1 2, sampleValidationUpdated 4].foldlM applySessionEvent
      awaitingProjection = .ok p' :=
  ((reducers_agree awaitingSnapshot awaitingProjection
    [sampleCheckpointCreated 3 1 2, sampleValidationUpdated 4] (by decide) awaiting_agrees
    (by
      intro event hevent
      have hvalid : event.validate = .ok () := by
        revert event
        decide
      have hconcerns : event.sessionID = awaitingSnapshot.sessionID ∧
          event.taskID = some awaitingProjection.taskID ∧ event.projectsTask = true := by
        revert event
        decide
      exact ⟨SessionEvent.validate_ok_iff.1 hvalid, hconcerns.1, hconcerns.2.1,
        hconcerns.2.2⟩)).1.2
    ⟨⟨{ awaitingSnapshot with
        throughSequence := 4
        checkpoint := (sampleCheckpointCreated 3 1 2).payload.checkpoint
        checkpointRevision := 1
        validation := some sampleValidation
        validationRevision := 1 }, by decide⟩, by
      constructor
      · intro event hevent hkind
        simp only [List.mem_cons, List.not_mem_nil, or_false] at hevent
        rcases hevent with rfl | rfl <;> cases hkind
      · exact .singleton _⟩).1

/-- From the same facts the server accepts a task that becomes ready without approval evidence, and
a checkpoint of an earlier task revision than the last, and the browser accepts neither. After the
largest task revision the browser accepts revision zero, and the server does not. -/
theorem reducers_disagree :
    (awaitingSnapshot.validate = .ok () ∧ Agrees awaitingSnapshot awaitingProjection) ∧
    ((reduceTaskEvents awaitingSnapshot [sampleReady 3 3]).toBool = true ∧
      ([sampleReady 3 3].foldlM applySessionEvent awaitingProjection).toBool = false) ∧
    ((reduceTaskEvents awaitingSnapshot
        [sampleCheckpointCreated 3 1 2, sampleCheckpointCreated 4 2 1]).toBool = true ∧
      ([sampleCheckpointCreated 3 1 2, sampleCheckpointCreated 4 2 1].foldlM applySessionEvent
        awaitingProjection).toBool = false) ∧
    ((reduceTaskEvents { sampleBase with
          throughSequence := 2, taskID := some sampleTaskID, taskState := .declared .draft,
          taskRevision := 0xFFFFFFFFFFFFFFFF }
        [{ sampleTaskStateChanged 3 with revision := 0 }]).toBool = false ∧
      ([{ sampleTaskStateChanged 3 with revision := 0 }].foldlM applySessionEvent
        { awaitingProjection with
          state := .declared .draft, revision := 0xFFFFFFFFFFFFFFFF }).toBool = true) :=
  ⟨⟨by decide, awaiting_agrees⟩, by decide, by decide, by decide⟩

end Codeflux.Frontend
