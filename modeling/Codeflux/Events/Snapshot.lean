import Codeflux.Events.Session

/-!
# Session snapshots and their replay

A session snapshot is the projection of one task's correctness-bearing facts through a durable
sequence. The task is bound lazily, by the first event of one of four kinds. Binding takes the
task's state from the snapshot when the event is not a change of that state. So a validation or
acceptance update that comes first leaves a snapshot from which no replay can resume.
-/

namespace Codeflux.Events

open Library Domain Go

/-- The revision is not new. -/
def errStaleEntityRevision : Failure := .new "session entity revision is stale"

/-- A revision was skipped. -/
def errEntityRevisionGap : Failure := .new "session entity revision contains a gap"

/-- The state of a task that is not bound: the empty text. -/
def noTaskState : OpenEnum TaskState := .ofText ""

/-- One reconnect base through a durable sequence. Its texts and identities are of the given
types. -/
structure SessionSnapshot (Text : Type := String) (ID : IDKind → Type := TypedID) where
  sessionID : ID .session
  threadID : ID .thread
  throughSequence : UInt64
  taskID : Option (ID .task)
  taskState : OpenEnum TaskState
  taskRevision : UInt64
  checkpoint : Option (Checkpoint Text ID)
  checkpointRevision : UInt64
  validation : Option (Validation Text ID)
  validationRevision : UInt64
  changeAcceptance : Option ChangeAcceptance
  changeAcceptanceRevision : UInt64
  snapshotVersion : UInt32
  createdAt : Timestamp

instance {Text : Type} {ID : IDKind → Type} [DecidableEq Text] [∀ kind, DecidableEq (ID kind)] :
    DecidableEq (SessionSnapshot Text ID)
  | .mk .., .mk .. => decidable_of_iff' _ (.of_eq (SessionSnapshot.mk.injEq ..))

namespace SessionSnapshot

variable {Text : Type} [GoText Text]

/-- The check of the task fields. -/
def validateTask (s : SessionSnapshot Text) : Result Unit :=
  match s.taskID with
  | none =>
    ensure (s.taskState = noTaskState ∧ s.taskRevision = 0)
      (.new "session snapshot task fields are incomplete")
  | some id => do
    ensure (id.isZero = false) (.new "session snapshot task ID must not be empty")
    ensure s.taskState.isValid (.new "session snapshot task state is invalid")

/-- A projected fact and its revision belong together: the revision is zero exactly when there is no
fact, and the fact is a valid one. -/
def Projected {α : Type} (ValidFact : α → Prop) (fact : Option α) (revision : UInt64) : Prop :=
  match fact with
  | some a => revision ≠ 0 ∧ ValidFact a
  | none => revision = 0

/-- The check of a projected fact and its revision. -/
def validateProjected {α : Type} (name : String) (ValidFact : α → Prop) [DecidablePred ValidFact]
    (fact : Option α) (revision : UInt64) : Result Unit :=
  match fact with
  | some a =>
    ensure (revision ≠ 0 ∧ ValidFact a) (.new ("session snapshot " ++ name ++ " is invalid"))
  | none =>
    ensure (revision = 0) (.new ("session snapshot " ++ name ++ " revision has no projection"))

variable {u : Unit}

theorem validateProjected_ok_iff {α : Type} {name : String} {ValidFact : α → Prop}
    [DecidablePred ValidFact] {fact : Option α} {revision : UInt64} :
    validateProjected name ValidFact fact revision = .ok u ↔ Projected ValidFact fact revision := by
  cases fact with
  | none | some a => simp [validateProjected, Projected]

/-- Check a snapshot. -/
def validate (s : SessionSnapshot Text) : Result Unit := do
  ensure (s.sessionID.isZero = false) (.new "session snapshot session ID must not be empty")
  ensure (s.threadID.isZero = false) (.new "session snapshot thread ID must not be empty")
  ensure (s.snapshotVersion = 1) (.new "session snapshot version is unsupported")
  ensure (s.createdAt.isZero = false) (.new "session snapshot timestamp must not be zero")
  ensure s.createdAt.utc (.new "session snapshot timestamp must be UTC")
  s.validateTask
  validateProjected "checkpoint"
    (fun c => validateCheckpoint (some c) = .ok () ∧ c.taskRevision ≤ s.taskRevision)
    s.checkpoint s.checkpointRevision
  validateProjected "validation" (fun v => validateValidation (some v) = .ok ())
    s.validation s.validationRevision
  validateProjected "change acceptance" (fun a => validateChangeAcceptance (some a) = .ok ())
    s.changeAcceptance s.changeAcceptanceRevision

/-- Everything a valid snapshot satisfies, except that a bound task has a state. -/
structure WellFormed (s : SessionSnapshot Text) : Prop where
  sessionID : s.sessionID.isZero = false
  threadID : s.threadID.isZero = false
  snapshotVersion : s.snapshotVersion = 1
  createdAt : s.createdAt.isZero = false
  utc : s.createdAt.utc = true
  unbound : s.taskID = none → s.taskState = noTaskState ∧ s.taskRevision = 0
  taskID : ∀ id ∈ s.taskID, id.isZero = false
  checkpoint : Projected
    (fun c => validateCheckpoint (some c) = .ok () ∧ c.taskRevision ≤ s.taskRevision)
    s.checkpoint s.checkpointRevision
  validation : Projected (fun v => validateValidation (some v) = .ok ())
    s.validation s.validationRevision
  changeAcceptance : Projected (fun a => validateChangeAcceptance (some a) = .ok ())
    s.changeAcceptance s.changeAcceptanceRevision

/-- A bound task has a state. -/
def HasTaskState (s : SessionSnapshot Text) : Prop := s.taskID.isSome → s.taskState.isValid = true

omit [GoText Text] in
theorem validateTask_ok_iff {s : SessionSnapshot Text} :
    s.validateTask = .ok u ↔
      (s.taskID = none → s.taskState = noTaskState ∧ s.taskRevision = 0) ∧
        (∀ id ∈ s.taskID, id.isZero = false) ∧ s.HasTaskState := by
  unfold validateTask HasTaskState
  cases s.taskID with
  | none | some id => simp

theorem validate_ok_iff {s : SessionSnapshot Text} :
    s.validate = .ok u ↔ s.WellFormed ∧ s.HasTaskState := by
  simp only [validate, run_ok_iff, validateTask_ok_iff, validateProjected_ok_iff, exists_const]
  constructor
  · rintro ⟨h1, h2, h3, h4, h5, ⟨h6, h7, h8⟩, h9, h10, h11⟩
    exact ⟨⟨h1, h2, h3, h4, h5, h6, h7, h9, h10, h11⟩, h8⟩
  · rintro ⟨⟨h1, h2, h3, h4, h5, h6, h7, h9, h10, h11⟩, h8⟩
    exact ⟨h1, h2, h3, h4, h5, ⟨h6, h7, h8⟩, h9, h10, h11⟩

end SessionSnapshot

/-! ### Applying one event -/

/-- `requireNextEntityRevision`: each entity's revisions increase by one. -/
def requireNextEntityRevision (current incoming : UInt64) : Result Unit := do
  ensure (current < incoming) (.detail errStaleEntityRevision
    ("event revision " ++ toString incoming ++ " is not after " ++ toString current))
  ensure (incoming = current + 1) (.detail errEntityRevisionGap
    ("event revision " ++ toString incoming ++ " does not follow " ++ toString current))

variable (s : SessionSnapshot) (event : SessionEvent)

/-- `bindSnapshotTask`: the first task-projecting event binds the task, later ones have to be about
it. -/
def bindSnapshotTask (initial : OpenEnum TaskState) : Result SessionSnapshot :=
  match event.taskID with
  | none => .error (.new "task projection event has no task ID")
  | some id =>
    match s.taskID with
    | none => .ok { s with taskID := some id, taskState := initial }
    | some bound => do
      ensure (id = bound) (.new "session replay task identity mismatch")
      pure s

/-- The payload field of an event that passed its check: the field is set, and the code dereferences
it. -/
def required {α : Type} (field : Option α) : Result α :=
  match field with
  | some a => .ok a
  | none => .error (.new "nil pointer dereference")

@[simp] theorem required_ok_iff {α : Type} {field : Option α} {a : α} :
    required field = .ok a ↔ field = some a := by
  cases field <;> simp [required]

/-- Apply a task transition. -/
def applyTaskStateChanged : Result SessionSnapshot := do
  let change ← required event.payload.taskStateChanged
  let s ← bindSnapshotTask s event change.source
  requireNextEntityRevision s.taskRevision event.revision
  ensure (change.source = s.taskState) (.new "task transition replay state mismatch")
  pure { s with taskState := change.target, taskRevision := event.revision }

/-- Apply a new checkpoint. -/
def applyCheckpointCreated : Result SessionSnapshot := do
  let s ← bindSnapshotTask s event s.taskState
  requireNextEntityRevision s.checkpointRevision event.revision
  let checkpoint ← required event.payload.checkpoint
  ensure (checkpoint.taskRevision ≤ s.taskRevision)
    (.new "checkpoint task revision exceeds current task")
  pure { s with checkpoint := some checkpoint, checkpointRevision := event.revision }

/-- The states a validation may start in. -/
def startsValidation (state : OpenEnum ValidationState) : Prop :=
  state = ValidationState.pending ∨ state = ValidationState.running

instance (state : OpenEnum ValidationState) : Decidable (startsValidation state) :=
  inferInstanceAs (Decidable (_ ∨ _))

/-- May `incoming` follow the projected validation? -/
def checkValidationUpdate (current : Option Validation) (incoming : Validation) : Result Unit :=
  match current with
  | some current => do
    ensure (ValidationState.isTerminal current.state ∨
      current.validationID = incoming.validationID) (.new "running validation identity changed")
    if current.validationID = incoming.validationID then
      validateValidationTransition current.state incoming.state
    else
      ensure (startsValidation incoming.state)
        (.new "new validation did not start pending or running")
  | none =>
    ensure (startsValidation incoming.state)
      (.new "initial validation did not start pending or running")

/-- Apply a validation update. -/
def applyValidationUpdated : Result SessionSnapshot := do
  let s ← bindSnapshotTask s event s.taskState
  requireNextEntityRevision s.validationRevision event.revision
  let incoming ← required event.payload.validation
  checkValidationUpdate s.validation incoming
  pure { s with validation := some incoming, validationRevision := event.revision }

/-- May `incoming` follow the projected acceptance? A repair may change the bindings. -/
def checkAcceptanceUpdate (current : Option ChangeAcceptance) (incoming : ChangeAcceptance) :
    Result Unit :=
  match current with
  | none =>
    ensure (incoming.state = ChangeAcceptanceState.pending)
      (.new "initial change acceptance is not pending")
  | some current => do
    ensure (incoming.bindings = current.bindings ∨
      current.state = ChangeAcceptanceState.repairRequested ∧
        incoming.state = ChangeAcceptanceState.pending)
      (.new "change acceptance bindings changed within review")
    validateChangeAcceptanceTransition current.state incoming.state

/-- Apply an acceptance update. -/
def applyChangeAcceptanceUpdated : Result SessionSnapshot := do
  let s ← bindSnapshotTask s event s.taskState
  requireNextEntityRevision s.changeAcceptanceRevision event.revision
  let incoming ← required event.payload.changeAcceptance
  checkAcceptanceUpdate s.changeAcceptance incoming
  pure { s with changeAcceptance := some incoming, changeAcceptanceRevision := event.revision }

/-- The effect of one event on the projection. Events of the other kinds have none. -/
def applyServerProjectionEvent : Result SessionSnapshot :=
  match event.kind with
  | .declared .taskStateChanged => applyTaskStateChanged s event
  | .declared .checkpointCreated => applyCheckpointCreated s event
  | .declared .validationUpdated => applyValidationUpdated s event
  | .declared .changeAcceptanceUpdated => applyChangeAcceptanceUpdated s event
  | _ => .ok s

/-- One round of the replay loop. -/
def reduceTaskEvent : Result SessionSnapshot := do
  event.validate
  ensure (event.sessionID = s.sessionID ∧ event.threadID = s.threadID)
    (.new "session replay identity mismatch")
  ensure (s.throughSequence < event.sequence) (.detail errStaleEntityRevision
    ("event sequence " ++ toString event.sequence ++ " is not after " ++
      toString s.throughSequence))
  ensure (event.sequence = s.throughSequence + 1) (.new "session replay sequence contains a gap")
  let s ← applyServerProjectionEvent s event
  pure { s with throughSequence := event.sequence }

/-- `ReduceTaskEvents`: advances a valid snapshot through a stream of events. -/
def reduceTaskEvents (base : SessionSnapshot) (stream : List SessionEvent) :
    Result SessionSnapshot := do
  base.validate.mapError (.wrap "validate replay base")
  stream.foldlM reduceTaskEvent base

theorem reduceTaskEvents_ok_iff {base result : SessionSnapshot} {stream : List SessionEvent} :
    reduceTaskEvents base stream = .ok result ↔
      (base.WellFormed ∧ base.HasTaskState) ∧ stream.foldlM reduceTaskEvent base = .ok result := by
  simp [reduceTaskEvents, SessionSnapshot.validate_ok_iff]

/-! ### What one event does -/

variable {current incoming : UInt64} {u : Unit} {xs : List SessionEvent}

theorem requireNextEntityRevision_ok_iff :
    requireNextEntityRevision current incoming = .ok u ↔
      current < incoming ∧ incoming = current + 1 := by
  simp [requireNextEntityRevision]

theorem requireNextEntityRevision_ne_zero (h : requireNextEntityRevision current incoming = .ok u) :
    incoming ≠ 0 := by
  rintro rfl
  exact absurd (requireNextEntityRevision_ok_iff.1 h).1 (UInt64.not_lt.2 (UInt64.zero_le))

variable {s t : SessionSnapshot} {initial : OpenEnum TaskState}

theorem bindSnapshotTask_ok_iff {event : SessionEvent} :
    bindSnapshotTask s event initial = .ok t ↔ ∃ id, event.taskID = some id ∧
      (s.taskID = none ∧ { s with taskID := some id, taskState := initial } = t ∨
        s.taskID = some id ∧ s = t) := by
  unfold bindSnapshotTask
  cases event.taskID with
  | none => simp
  | some id =>
    cases s.taskID with
    | none => simp
    | some bound =>
      simp only [run_ok_iff, exists_const, Option.some.injEq, reduceCtorEq, false_and, false_or,
        exists_eq_left']
      exact and_congr_left' eq_comm

/-- Does the event project facts of a task? -/
def SessionEvent.projectsTask : Bool :=
  match event.kind with
  | .declared .taskStateChanged | .declared .checkpointCreated | .declared .validationUpdated
  | .declared .changeAcceptanceUpdated => true
  | _ => false

section Step

variable {event : SessionEvent}

/-- What binding keeps: the facts, and that the snapshot is well-formed. -/
theorem bindSnapshotTask_wellFormed (hs : s.WellFormed)
    (hevent : event.Valid) (h : bindSnapshotTask s event initial = .ok t) :
    t.WellFormed ∧ t.taskID.isSome = true ∧ t.taskRevision = s.taskRevision := by
  obtain ⟨id, hid, ⟨hnone, rfl⟩ | ⟨hsome, rfl⟩⟩ := bindSnapshotTask_ok_iff.1 h
  · have htask : ∀ i ∈ some id, i.isZero = false := by
      rw [← hid]
      exact hevent.taskID
    exact ⟨{ hs with unbound := fun hc => (nomatch hc), taskID := htask }, rfl, rfl⟩
  · exact ⟨hs, by simp [hsome], rfl⟩

theorem applyTaskStateChanged_wellFormed (hs : s.WellFormed) (hevent : event.Valid)
    (hkind : event.kind = .declared .taskStateChanged) (h : applyTaskStateChanged s event = .ok t) :
    t.WellFormed ∧ t.taskID.isSome = true ∧ (t.HasTaskState ↔ s.HasTaskState) := by
  simp only [applyTaskStateChanged, run_ok_iff, required_ok_iff, requireNextEntityRevision_ok_iff,
    exists_const] at h
  obtain ⟨change, hchange, bound, hbind, hnext, hsource, rfl⟩ := h
  obtain ⟨hbound, hsome, hrevision⟩ := bindSnapshotTask_wellFormed hs hevent hbind
  have hpayload := hevent.payload
  rw [hkind, validatePayload, hchange, validateTaskState, validateTaskTransition_ok_iff] at hpayload
  obtain ⟨⟨a, b, ha, hb, _⟩, _⟩ := hpayload
  refine ⟨{ hbound with unbound := fun hc => ?_, checkpoint := ?_ }, hsome, ?_⟩
  · simp [show bound.taskID = none from hc] at hsome
  · -- the task revision only grows, so a checkpoint stays within it
    have hcheckpoint := hbound.checkpoint
    unfold SessionSnapshot.Projected at hcheckpoint ⊢
    cases hc : bound.checkpoint with
    | none => simpa [hc] using hcheckpoint
    | some c =>
      simp only [hc] at hcheckpoint ⊢
      exact ⟨hcheckpoint.1, hcheckpoint.2.1,
        UInt64.le_trans hcheckpoint.2.2 (UInt64.le_of_lt hnext.1)⟩
  · have htarget : (change.target).isValid = true := by rw [show change.target = _ from hb]; rfl
    have hstate : bound.taskState.isValid = true := by
      rw [← hsource, show change.source = _ from ha]
      rfl
    refine ⟨fun _ hc => ?_, fun _ _ => htarget⟩
    obtain ⟨id, _, ⟨hnone, _⟩ | ⟨_, rfl⟩⟩ := bindSnapshotTask_ok_iff.1 hbind
    · simp [hnone] at hc
    · exact hstate

/-- What one accepted event does to a well-formed snapshot, its binding and the bound task's state.
-/
structure Advances (s : SessionSnapshot) (event : SessionEvent) (t : SessionSnapshot) : Prop where
  wellFormed : t.WellFormed
  taskID : if event.projectsTask then t.taskID.isSome = true else t.taskID = s.taskID
  hasTaskState : t.HasTaskState ↔ s.HasTaskState ∧
    (s.taskID.isSome = true ∨ event.projectsTask = false ∨
      event.kind = .declared .taskStateChanged)

theorem Advances.throughSequence (h : Advances s event t) (sequence : UInt64) :
    Advances s event { t with throughSequence := sequence } :=
  ⟨{ h.wellFormed with }, h.taskID, h.hasTaskState⟩

section

variable (hs : s.WellFormed) (hevent : event.Valid)

include hs

theorem Advances.of_fact {bound : SessionSnapshot}
    (hbind : bindSnapshotTask s event s.taskState = .ok bound)
    (hprojects : event.projectsTask = true) (hkind : event.kind ≠ .declared .taskStateChanged)
    (ht : t.WellFormed) (hid : t.taskID = bound.taskID) (hstate : t.taskState = bound.taskState) :
    Advances s event t := by
  obtain ⟨id, -, ⟨hnone, rfl⟩ | ⟨hsome, rfl⟩⟩ := bindSnapshotTask_ok_iff.1 hbind
  · have hinvalid : t.taskState.isValid = false := by
      rw [hstate, (hs.unbound hnone).1]
      decide
    refine ⟨ht, by simp [hprojects, hid], ?_⟩
    simp [SessionSnapshot.HasTaskState, hid, hinvalid, hnone, hprojects, hkind]
  · refine ⟨ht, by simp [hprojects, hid, hsome], ?_⟩
    simp [SessionSnapshot.HasTaskState, hid, hstate, hsome]

include hevent

theorem applyCheckpointCreated_advances (hkind : event.kind = .declared .checkpointCreated)
    (h : applyCheckpointCreated s event = .ok t) : Advances s event t := by
  simp only [applyCheckpointCreated, run_ok_iff, required_ok_iff] at h
  obtain ⟨bound, hbind, _, hnext, checkpoint, hcheckpoint, _, hle, rfl⟩ := h
  have hbound := (bindSnapshotTask_wellFormed hs hevent hbind).1
  have hpayload := hevent.payload
  rw [hkind, validatePayload, hcheckpoint] at hpayload
  exact .of_fact hs hbind (by simp [SessionEvent.projectsTask, hkind]) (by simp [hkind])
    { hbound with checkpoint := ⟨requireNextEntityRevision_ne_zero hnext, hpayload, hle⟩ } rfl rfl

theorem applyValidationUpdated_advances (hkind : event.kind = .declared .validationUpdated)
    (h : applyValidationUpdated s event = .ok t) : Advances s event t := by
  simp only [applyValidationUpdated, run_ok_iff, required_ok_iff] at h
  obtain ⟨bound, hbind, _, hnext, incoming, hincoming, _, _, rfl⟩ := h
  have hbound := (bindSnapshotTask_wellFormed hs hevent hbind).1
  have hpayload := hevent.payload
  rw [hkind, validatePayload, hincoming] at hpayload
  exact .of_fact hs hbind (by simp [SessionEvent.projectsTask, hkind]) (by simp [hkind])
    { hbound with validation := ⟨requireNextEntityRevision_ne_zero hnext, hpayload⟩ } rfl rfl

theorem applyChangeAcceptanceUpdated_advances
    (hkind : event.kind = .declared .changeAcceptanceUpdated)
    (h : applyChangeAcceptanceUpdated s event = .ok t) : Advances s event t := by
  simp only [applyChangeAcceptanceUpdated, run_ok_iff, required_ok_iff] at h
  obtain ⟨bound, hbind, _, hnext, incoming, hincoming, _, _, rfl⟩ := h
  have hbound := (bindSnapshotTask_wellFormed hs hevent hbind).1
  have hpayload := hevent.payload
  rw [hkind, validatePayload, hincoming] at hpayload
  exact .of_fact hs hbind (by simp [SessionEvent.projectsTask, hkind]) (by simp [hkind])
    { hbound with changeAcceptance := ⟨requireNextEntityRevision_ne_zero hnext, hpayload⟩ } rfl rfl

end

theorem applyServerProjectionEvent_advances (hs : s.WellFormed) (hevent : event.Valid)
    (h : applyServerProjectionEvent s event = .ok t) : Advances s event t := by
  unfold applyServerProjectionEvent at h
  split at h
  · next hkind =>
    obtain ⟨ht, hsome, hstate⟩ := applyTaskStateChanged_wellFormed hs hevent hkind h
    refine ⟨ht, ?_, ?_⟩
    · rwa [if_pos (by simp [SessionEvent.projectsTask, hkind])]
    · simpa [hkind] using hstate
  · next hkind => exact applyCheckpointCreated_advances hs hevent hkind h
  · next hkind => exact applyValidationUpdated_advances hs hevent hkind h
  · next hkind => exact applyChangeAcceptanceUpdated_advances hs hevent hkind h
  · next h1 h2 h3 h4 =>
    obtain rfl := Except.ok.inj h
    have hother : event.projectsTask = false := by
      unfold SessionEvent.projectsTask
      split <;> simp_all
    refine ⟨hs, ?_, ?_⟩
    · rw [if_neg (by simp [hother])]
    · simp [hother]

theorem reduceTaskEvent_advances (hs : s.WellFormed) (h : reduceTaskEvent s event = .ok t) :
    Advances s event t := by
  simp only [reduceTaskEvent, run_ok_iff, SessionEvent.validate_ok_iff, exists_const] at h
  obtain ⟨hevent, _, _, _, u, happly, rfl⟩ := h
  exact (applyServerProjectionEvent_advances hs hevent happly).throughSequence event.sequence

end Step

/-! ### Resuming a replay -/

/-- Replay can resume after `xs`: the base is bound to a task, or the first event of `xs` that
projects facts of a task is a change of its state. -/
def Resumable (base : SessionSnapshot) (xs : List SessionEvent) : Prop :=
  base.taskID.isSome = true ∨
    ∀ event ∈ xs.find? SessionEvent.projectsTask, event.kind = .declared .taskStateChanged

instance (base : SessionSnapshot) (xs : List SessionEvent) : Decidable (Resumable base xs) := by
  unfold Resumable
  infer_instance

theorem resumable_cons_iff {event : SessionEvent}
    (htask : if event.projectsTask then t.taskID.isSome = true else t.taskID = s.taskID) :
    Resumable s (event :: xs) ↔
      (s.taskID.isSome = true ∨ event.projectsTask = false ∨
        event.kind = .declared .taskStateChanged) ∧ Resumable t xs := by
  unfold Resumable
  cases hprojects : event.projectsTask with
  | true =>
    rw [if_pos hprojects] at htask
    simp [hprojects, htask]
  | false =>
    rw [if_neg (by simp [hprojects])] at htask
    simp [hprojects, htask]

theorem foldlM_reduceTaskEvent_spec {m : SessionSnapshot} (hs : s.WellFormed)
    (h : xs.foldlM reduceTaskEvent s = .ok m) :
    m.WellFormed ∧ (m.HasTaskState ↔ s.HasTaskState ∧ Resumable s xs) := by
  revert hs
  refine foldlM_induction h (fun hm => ⟨hm, by simp [Resumable]⟩) fun event xs s t hstep ih hs => ?_
  have hadvances := reduceTaskEvent_advances hs hstep
  obtain ⟨hm, hmstate⟩ := ih hadvances.wellFormed
  refine ⟨hm, ?_⟩
  rw [hmstate, hadvances.hasTaskState, resumable_cons_iff hadvances.taskID, and_assoc]

/-- **Replay resumes.** A history that the server replays in one go can be cut after `xs` into a
replay to a valid snapshot and a replay from it, with the same result, exactly when the prefix is
resumable. In the other direction two replays in a row are always one. -/
theorem replay_resumes_iff (base : SessionSnapshot) (xs ys : List SessionEvent)
    (hbase : base.validate = .ok ()) :
    (∀ final, reduceTaskEvents base (xs ++ ys) = .ok final →
      ((∃ m, reduceTaskEvents base xs = .ok m ∧ m.validate = .ok () ∧
        reduceTaskEvents m ys = .ok final) ↔ Resumable base xs)) ∧
    ∀ m final, reduceTaskEvents base xs = .ok m → reduceTaskEvents m ys = .ok final →
      reduceTaskEvents base (xs ++ ys) = .ok final := by
  have hvalid := SessionSnapshot.validate_ok_iff.1 hbase
  simp only [reduceTaskEvents_ok_iff, SessionSnapshot.validate_ok_iff, foldlM_append_ok_iff]
  constructor
  · rintro final ⟨_, m, hxs, hys⟩
    obtain ⟨hm, hstate⟩ := foldlM_reduceTaskEvent_spec hvalid.1 hxs
    constructor
    · rintro ⟨m', ⟨_, hxs'⟩, hm', _⟩
      obtain rfl : m = m' := Except.ok.inj (hxs.symm.trans hxs')
      exact (hstate.1 hm'.2).2
    · intro hresumable
      have hmstate := hstate.2 ⟨hvalid.2, hresumable⟩
      exact ⟨m, ⟨hvalid, hxs⟩, ⟨hm, hmstate⟩, ⟨hm, hmstate⟩, hys⟩
  · rintro m final ⟨_, hxs⟩ ⟨_, hys⟩
    exact ⟨hvalid, m, hxs, hys⟩

/-- A task. -/
def sampleTaskID : TaskID :=
  ⟨"tsk_0190a5b0-0000-7000-8000-000000000021", .inr (by decide)⟩

/-- A snapshot of a session before its first event. -/
def sampleBase : SessionSnapshot where
  sessionID := sampleSessionID
  threadID := sampleThreadID
  throughSequence := 0
  taskID := none
  taskState := noTaskState
  taskRevision := 0
  checkpoint := none
  checkpointRevision := 0
  validation := none
  validationRevision := 0
  changeAcceptance := none
  changeAcceptanceRevision := 0
  snapshotVersion := 1
  createdAt := ⟨0, true⟩

/-- An event of the sample task with the given sequence, kind and payload. -/
def sampleTaskEvent (sequence : UInt64) (kind : Kind) (payload : Payload) : SessionEvent where
  sequence
  sessionID := sampleSessionID
  threadID := sampleThreadID
  taskID := some sampleTaskID
  timestamp := ⟨0, true⟩
  kind := .declared kind
  revision := 1
  causationID := none
  correlationID := none
  payloadVersion := 1
  payload

/-- A pending validation. -/
def sampleValidation : Validation where
  validationID := ⟨"val_0190a5b0-0000-7000-8000-000000000022", .inr (by decide)⟩
  state := .declared .pending
  redactedSummary := "unit tests"
  required := true
  acknowledged := false
  diffRevision := 1

/-- Its event. -/
def sampleValidationUpdated (sequence : UInt64) : SessionEvent :=
  sampleTaskEvent sequence .validationUpdated { validation := some sampleValidation }

/-- A change of the task's state. -/
def sampleTaskStateChanged (sequence : UInt64) : SessionEvent :=
  sampleTaskEvent sequence .taskStateChanged
    { taskStateChanged := some ⟨.declared .draft, .declared .forecasting, .ofText ""⟩ }

/-- A replay that starts with a change of the task's state can be cut after it. -/
theorem replay_resumes_after_state_change :
    ∃ m, reduceTaskEvents sampleBase [sampleTaskStateChanged 1] = .ok m ∧ m.validate = .ok () ∧
      reduceTaskEvents m [sampleValidationUpdated 2] = .ok
        { sampleBase with
          throughSequence := 2, taskID := some sampleTaskID, taskState := .declared .forecasting,
          taskRevision := 1, validation := some sampleValidation, validationRevision := 1 } :=
  ((replay_resumes_iff sampleBase [sampleTaskStateChanged 1] [sampleValidationUpdated 2]
    (by decide)).1 _ (by decide)).2 (by decide)

/-- A validation update is the first event of the session and binds its task. The server accepts
it together with the next one, but the snapshot between them has a task without a state, and the
replay of the next event from it fails. -/
theorem replay_not_resumed_after_validation :
    let bound : SessionSnapshot :=
      { sampleBase with
        throughSequence := 1, taskID := some sampleTaskID, validation := some sampleValidation,
        validationRevision := 1 }
    let rename : SessionEvent :=
      { sampleTaskEvent 2 .threadRenamed { threadRenamed := some ⟨"a", "b"⟩ } with taskID := none }
    sampleBase.validate = .ok () ∧
      reduceTaskEvents sampleBase ([sampleValidationUpdated 1] ++ [rename]) =
        .ok { bound with throughSequence := 2 } ∧
      reduceTaskEvents sampleBase [sampleValidationUpdated 1] = .ok bound ∧
      bound.validate = .error (.new "session snapshot task state is invalid") ∧
      reduceTaskEvents bound [rename] =
        .error (.wrap "validate replay base" (.new "session snapshot task state is invalid")) := by
  decide

end Codeflux.Events
