import Codeflux.Frontend.Agreement
import Codeflux.Library.Run

/-!
# Validity of the browser's task projection

A snapshot of a task is checked as a whole before the browser takes it over. The events that follow
are checked by the handler of their entity only. A handler keeps the projection valid except in the
following cases, which the source accepts.

* A revision that follows the largest one is zero, and no entity may have revision zero.
* The first acceptance is taken with whatever bindings it has.
* A recovery of revision zero changes the classification and leaves the detail as it is.
* A recovery detail is taken with whatever related events and files it has.

A session event has had its payload checked, which leaves the first and the third.
-/

namespace Codeflux.Frontend

open Library Domain Events Go

/-! ### The check of each entity -/

/-- Check the plan. -/
def PlanProjection.Valid (plan : PlanProjection) : Prop :=
  plan.present = true →
    plan.revision ≠ 0 ∧ trimSpace plan.redactedSummary ≠ "" ∧ plan.approval.isValid = true

/-- Check the tool. -/
def ToolProjection.Valid (tool : ToolProjection) : Prop :=
  tool.present = true →
    tool.revision ≠ 0 ∧ trimSpace tool.executionID ≠ "" ∧ trimSpace tool.commandName ≠ "" ∧
      tool.state.isValid = true

/-- Check the approval. -/
def ApprovalProjection.Valid (approval : ApprovalProjection) : Prop :=
  approval.present = true →
    approval.revision ≠ 0 ∧ approval.id.isZero = false ∧ approval.state.isValid = true

/-- Check the validation. -/
def ValidationProjection.Valid (validation : ValidationProjection) : Prop :=
  validation.present = true →
    validation.revision ≠ 0 ∧ validation.id.isZero = false ∧ validation.state.isValid = true ∧
      validation.diffRevision ≠ 0

/-- A checkpoint of a task at the given revision. -/
def CheckpointProjection.Valid (taskRevision : UInt64) (checkpoint : CheckpointProjection) : Prop :=
  checkpoint.present = true →
    checkpoint.revision ≠ 0 ∧ checkpoint.id.isZero = false ∧ checkpoint.taskRevision ≠ 0 ∧
      checkpoint.taskRevision ≤ taskRevision ∧ checkpoint.createdAt.isZero = false ∧
      checkpoint.createdAt.utc = true ∧ trimSpace checkpoint.planStep ≠ ""

/-- Check the budget. -/
def BudgetProjection.Valid (budget : BudgetProjection) : Prop :=
  budget.present = true → validAmounts budget.hardLimit budget.reserved budget.actual

/-- Check the review. -/
def ReviewProjection.Valid (review : ReviewProjection) : Prop :=
  review.present = true → review.revision ≠ 0 ∧ review.bindings.complete = true

/-- Check the acceptance. -/
def AcceptanceProjection.Valid (acceptance : AcceptanceProjection) : Prop :=
  acceptance.present = true →
    acceptance.revision ≠ 0 ∧ acceptance.state.isValid = true ∧
      acceptance.bindings.complete = true

/-- Check the graph. -/
def GraphProjection.Valid (graph : GraphProjection) : Prop :=
  graph.present = true → graph.revision ≠ 0

/-- A recovery that says why and how, and offers the action that its class requires. -/
def RecoveryFact.Sound (detail : RecoveryFact) : Prop :=
  (detail.classification.isValid = true ∧ trimSpace detail.safeReason ≠ "" ∧
      trimSpace detail.divergenceSummary ≠ "" ∧ detail.bindings.complete = true ∧
      detail.externalOutcomeAmbiguous =
        decide (detail.classification = RecoveryClass.ambiguousOutcome)) ∧
    (detail.classification = RecoveryClass.safeResume → detail.safeResumeVerified = true) ∧
    (detail.classification = RecoveryClass.needsReconcile → detail.reconcileAvailable = true) ∧
    (detail.classification = RecoveryClass.preserveOnly ∨
      detail.classification = RecoveryClass.ambiguousOutcome → detail.preservePatchAvailable = true)

/-- The events and files that a recovery names. -/
def RecoveryFact.NamesRelated (detail : RecoveryFact) : Prop :=
  (∀ id ∈ detail.relatedEventIDs, id.isZero = false) ∧
    ∀ path ∈ detail.relatedFiles, trimSpace path ≠ ""

/-- The classification that a snapshot without one has. -/
def defaultRecovery (recovery : OpenEnum RecoveryClass) : OpenEnum RecoveryClass :=
  if recovery.toText = "" then .declared .none else recovery

/-- The detail belongs to the classification of the projection. -/
def RecoveryProjection.Valid (recovery : OpenEnum RecoveryClass) (detail : RecoveryProjection) :
    Prop :=
  detail.present = true →
    detail.revision ≠ 0 ∧ detail.Sound ∧ detail.classification = defaultRecovery recovery

section Decidable

variable (revision : UInt64) (recovery : OpenEnum RecoveryClass)

instance : DecidablePred PlanProjection.Valid := fun _ => inferInstanceAs (Decidable (_ → _))
instance : DecidablePred ToolProjection.Valid := fun _ => inferInstanceAs (Decidable (_ → _))
instance : DecidablePred ApprovalProjection.Valid := fun _ => inferInstanceAs (Decidable (_ → _))
instance : DecidablePred ValidationProjection.Valid := fun _ => inferInstanceAs (Decidable (_ → _))
instance : DecidablePred (CheckpointProjection.Valid revision) := fun _ =>
  inferInstanceAs (Decidable (_ → _))
instance : DecidablePred BudgetProjection.Valid := fun _ => inferInstanceAs (Decidable (_ → _))
instance : DecidablePred ReviewProjection.Valid := fun _ => inferInstanceAs (Decidable (_ → _))
instance : DecidablePred AcceptanceProjection.Valid := fun _ => inferInstanceAs (Decidable (_ → _))
instance : DecidablePred GraphProjection.Valid := fun _ => inferInstanceAs (Decidable (_ → _))
instance : DecidablePred RecoveryFact.Sound := fun _ => inferInstanceAs (Decidable (_ ∧ _))
instance : DecidablePred (RecoveryProjection.Valid recovery) := fun _ =>
  inferInstanceAs (Decidable (_ → _))

end Decidable

/-! ### The pending command -/

/-- The status of the pending command. -/
inductive CommandStatus
  | idle | busy | committed | stale | denied | disconnected | failed
deriving DecidableEq

instance : Declared CommandStatus where
  all := [.idle, .busy, .committed, .stale, .denied, .disconnected, .failed]
  text
    | .idle => "idle"
    | .busy => "busy"
    | .committed => "committed"
    | .stale => "stale"
    | .denied => "denied"
    | .disconnected => "disconnected"
    | .failed => "failed"

/-- A command, with the fields that the check of a snapshot reads. -/
structure CommandState where
  (action key : String)
  expectedRevision : UInt64
  status : OpenEnum CommandStatus
deriving DecidableEq

/-- The characters of a command key. -/
def isKeyCharacter (c : Char) : Bool :=
  'a' ≤ c && c ≤ 'z' || 'A' ≤ c && c ≤ 'Z' || '0' ≤ c && c ≤ '9' || c == '-' || c == '_'

/-- Parse an idempotency key. -/
def parseCommandKey (raw : String) : Result String := do
  let raw := trimSpace raw
  ensure (16 ≤ byteLength raw ∧ byteLength raw ≤ 128)
    (.new "command idempotency key length is invalid")
  ensure (raw.toList.all isKeyCharacter)
    (.new "command idempotency key contains an invalid character")
  return raw

/-- Check the pending command. -/
def validateCommandProjection (command : CommandState) : Result Unit :=
  match command.status with
  | .declared .idle =>
    ensure (command.key = "") (.new "idle task command retains an idempotency key")
  | .declared _ =>
    ensure ((parseCommandKey command.key).toBool = true ∧ command.action ≠ "" ∧
      command.expectedRevision ≠ 0) (.new "task snapshot command is invalid")
  | .undeclared _ _ => .error (.new "task snapshot command status is invalid")

/-- The projection of a task with the command that is pending for it. -/
structure LiveTask extends TaskProjection where
  pendingCommand : CommandState
deriving DecidableEq

/-- Check a snapshot. -/
def validateProjection (p : LiveTask) : Result Unit := do
  ensure (p.taskID.isZero = false ∧ p.state.isValid ∧ (p.revision = 0 → p.state = TaskState.draft))
    (.new "task snapshot identity, state, or revision is invalid")
  ensure (defaultRecovery p.recovery).isValid
    (.new "task snapshot recovery classification is invalid")
  ensure p.plan.Valid (.new "task snapshot plan is invalid")
  ensure p.tool.Valid (.new "task snapshot tool is invalid")
  ensure p.approval.Valid (.new "task snapshot approval is invalid")
  ensure p.validation.Valid (.new "task snapshot validation is invalid")
  ensure (p.checkpoint.Valid p.revision) (.new "task snapshot checkpoint is invalid")
  ensure p.budget.Valid (.new "task snapshot budget is invalid")
  ensure p.review.Valid (.new "task snapshot review is invalid")
  ensure p.acceptance.Valid (.new "task snapshot acceptance is invalid")
  ensure p.graph.Valid (.new "task snapshot graph is invalid")
  ensure (p.recoveryDetail.Valid p.recovery) (.new "task snapshot recovery detail is invalid")
  ensure (p.recoveryDetail.present → ∀ id ∈ p.recoveryDetail.relatedEventIDs, id.isZero = false)
    (.new "task snapshot recovery related event is invalid")
  ensure (p.recoveryDetail.present → ∀ path ∈ p.recoveryDetail.relatedFiles, trimSpace path ≠ "")
    (.new "task snapshot recovery related file is invalid")
  validateCommandProjection p.pendingCommand

/-- The status that a snapshot without one has. -/
def defaultStatus (status : OpenEnum CommandStatus) : OpenEnum CommandStatus :=
  if status.toText = "" then .declared .idle else status

/-- Take a snapshot over. -/
def applySnapshot (snapshot : LiveTask) : Result LiveTask := do
  let p := { snapshot with
    recovery := defaultRecovery snapshot.recovery
    pendingCommand.status := defaultStatus snapshot.pendingCommand.status }
  validateProjection p
  return p

/-- The facts of a task that the check of a snapshot asks for. -/
structure ValidFacts (p : TaskProjection) : Prop where
  taskID : p.taskID.isZero = false
  state : p.state.isValid = true
  revision : p.revision = 0 → p.state = TaskState.draft
  recovery : (defaultRecovery p.recovery).isValid = true
  plan : p.plan.Valid
  tool : p.tool.Valid
  approval : p.approval.Valid
  validation : p.validation.Valid
  checkpoint : p.checkpoint.Valid p.revision
  budget : p.budget.Valid
  review : p.review.Valid
  acceptance : p.acceptance.Valid
  graph : p.graph.Valid
  recoveryDetail : p.recoveryDetail.Valid p.recovery
  related : p.recoveryDetail.present = true → p.recoveryDetail.NamesRelated

variable {p : LiveTask}

theorem validateProjection_ok_iff {u : Unit} :
    validateProjection p = .ok u ↔
      ValidFacts p.toTaskProjection ∧ validateCommandProjection p.pendingCommand = .ok () := by
  simp only [validateProjection, run_ok_iff, exists_const]
  constructor
  · rintro ⟨⟨h1, h2, h3⟩, h4, h5, h6, h7, h8, h9, h10, h11, h12, h13, h14, h15, h16, h17⟩
    exact ⟨⟨h1, h2, h3, h4, h5, h6, h7, h8, h9, h10, h11, h12, h13, h14,
      fun h => ⟨h15 h, h16 h⟩⟩, h17⟩
  · rintro ⟨⟨h1, h2, h3, h4, h5, h6, h7, h8, h9, h10, h11, h12, h13, h14, h15⟩, h17⟩
    exact ⟨⟨h1, h2, h3⟩, h4, h5, h6, h7, h8, h9, h10, h11, h12, h13, h14, fun h => (h15 h).1,
      fun h => (h15 h).2, h17⟩

@[simp] theorem defaultRecovery_default (recovery : OpenEnum RecoveryClass) :
    defaultRecovery (defaultRecovery recovery) = defaultRecovery recovery := by
  unfold defaultRecovery
  split_ifs with h h'
  · exact absurd h' (by decide)
  all_goals rfl

theorem applySnapshot_of_valid (h : validateProjection p = .ok ()) :
    applySnapshot p = .ok { p with recovery := defaultRecovery p.recovery } := by
  obtain ⟨hfacts, hcommand⟩ := validateProjection_ok_iff.1 h
  have hstatus : defaultStatus p.pendingCommand.status = p.pendingCommand.status := by
    unfold defaultStatus
    split_ifs with hempty
    · unfold validateCommandProjection at hcommand
      cases hcase : p.pendingCommand.status with
      | declared status =>
        rw [hcase] at hempty
        revert hempty
        cases status <;> decide
      | undeclared raw outside =>
        rw [hcase] at hcommand
        cases hcommand
    · rfl
  have hvalid : validateProjection { p with recovery := defaultRecovery p.recovery } = .ok () := by
    refine validateProjection_ok_iff.2 ⟨?_, hcommand⟩
    exact { hfacts with
      recovery := by simpa using hfacts.recovery
      recoveryDetail := by simpa [RecoveryProjection.Valid] using hfacts.recoveryDetail }
  simp only [applySnapshot, hstatus, hvalid, ok_bind]
  rfl

theorem valid_of_applySnapshot {snapshot base : LiveTask} (h : applySnapshot snapshot = .ok base) :
    validateProjection base = .ok () := by
  simp only [applySnapshot, run_ok_iff] at h
  obtain ⟨_, hvalid, rfl⟩ := h
  exact hvalid

/-! ### One handler against the whole check -/

/-- The condition under which an event keeps a projection valid. -/
def KeepsValid (p : TaskProjection) : ProjectionEvent → Prop
  | .noop | .budgetUpdate _ | .graphSnapshot _ => True
  | .taskTransition event => event.revision ≠ 0
  | .planRevision event => event.revision ≠ 0
  | .toolUpdate event => event.revision ≠ 0
  | .approvalUpdate event => event.revision ≠ 0
  | .checkpoint event => event.revision ≠ 0
  | .validationUpdate event => event.revision ≠ 0
  | .acceptanceUpdate event => event.revision ≠ 0 ∧ event.bindings.complete = true
  | .reviewRevision revision _ => revision ≠ 0
  | .graphPatch _ revision => revision ≠ 0
  | .recoveryUpdate classification detail =>
    if detail.revision = 0 then
      p.recoveryDetail.present = true → p.recoveryDetail.classification = classification
    else detail.NamesRelated

section Handlers

variable {p q : TaskProjection}

theorem ValidFacts.lastSequence_iff (sequence : UInt64) :
    ValidFacts { p with lastSequence := sequence } ↔ ValidFacts p :=
  ⟨fun h => { h with }, fun h => { h with }⟩

theorem ne_draft_of_transition : ∀ change ∈ taskTransitions, change.2 ≠ .draft := by decide

theorem planAfter_valid {plan : PlanProjection} (h : plan.Valid) (change : TaskTransitionEvent) :
    (planAfter plan change).Valid := by
  unfold planAfter
  split_ifs
  · exact fun hpresent => ⟨(h hpresent).1, (h hpresent).2.1, rfl⟩
  · exact fun hpresent => ⟨(h hpresent).1, (h hpresent).2.1, rfl⟩
  · exact h

theorem taskTransition_valid_iff (hp : ValidFacts p) {change : TaskTransitionEvent}
    (h : applyTaskTransition p change = .ok q) : ValidFacts q ↔ change.revision ≠ 0 := by
  obtain ⟨hrevision, -, htransition, -, rfl⟩ := applyTaskTransition_ok_iff.1 h
  obtain ⟨⟨a, b, -, htarget, htable⟩, -⟩ := validateTaskTransition_ok_iff.1 htransition
  replace htarget : change.target = .declared b := htarget
  constructor
  · intro hq hzero
    have hdraft : change.target = TaskState.draft := hq.revision hzero
    rw [htarget, OpenEnum.declared.injEq] at hdraft
    exact ne_draft_of_transition _ htable hdraft
  · intro hne
    exact { hp with
      state := by rw [htarget]; rfl
      revision := fun hzero => absurd hzero hne
      plan := planAfter_valid hp.plan change
      checkpoint := fun hpresent => by
        obtain ⟨h1, h2, h3, hle, h5⟩ := hp.checkpoint hpresent
        refine ⟨h1, h2, h3, UInt64.le_trans hle ?_, h5⟩
        exact UInt64.le_of_lt (next_iff.1 ⟨hrevision, hne⟩).1 }

theorem planRevision_valid_iff (hp : ValidFacts p) {event : PlanRevisionEvent}
    (h : applyPlanRevision p event = .ok q) : ValidFacts q ↔ event.revision ≠ 0 := by
  simp only [applyPlanRevision, run_ok_iff, exists_const] at h
  obtain ⟨⟨-, hsummary⟩, rfl⟩ := h
  exact ⟨fun hq => (hq.plan rfl).1,
    fun hne => { hp with plan := fun _ => ⟨hne, by simpa using hsummary, rfl⟩ }⟩

theorem applyToolUpdate_eq {event : ToolEvent} (h : applyToolUpdate p event = .ok q) :
    q = { p with tool := ⟨true, event.executionID, event.commandName, event.state, event.revision,
      event.safeSummary⟩ } := by
  simp only [applyToolUpdate, bind_ok_iff] at h
  split_ifs at h
  all_goals simp only [run_ok_iff] at h; grind

theorem toolUpdate_valid_iff (hp : ValidFacts p) {event : ToolEvent}
    (h : applyToolUpdate p event = .ok q) : ValidFacts q ↔ event.revision ≠ 0 := by
  rw [applyToolUpdate_eq h]
  simp only [applyToolUpdate, run_ok_iff, exists_const] at h
  obtain ⟨⟨-, hchecked⟩, -⟩ := h
  exact ⟨fun hq => (hq.tool rfl).1, fun hne => { hp with tool := fun _ => ⟨hne, hchecked⟩ }⟩

variable {event : ApprovalEvent}

theorem applyApprovalUpdate_eq (h : applyApprovalUpdate p event = .ok q) :
    q = { p with approval := ⟨true, event.id, event.state, event.scope, event.safeReason,
      event.revision⟩ } := by
  simp only [applyApprovalUpdate, bind_ok_iff] at h
  split_ifs at h
  all_goals simp only [run_ok_iff] at h; grind

section

variable (hp : ValidFacts p)

include hp

theorem approvalUpdate_valid_iff
    (h : applyApprovalUpdate p event = .ok q) : ValidFacts q ↔ event.revision ≠ 0 := by
  rw [applyApprovalUpdate_eq h]
  simp only [applyApprovalUpdate, run_ok_iff, exists_const] at h
  obtain ⟨⟨-, hchecked⟩, -⟩ := h
  exact ⟨fun hq => (hq.approval rfl).1,
    fun hne => { hp with approval := fun _ => ⟨hne, hchecked⟩ }⟩

theorem checkpointUpdate_valid_iff {event : CheckpointEvent}
    (h : applyCheckpointUpdate p event = .ok q) : ValidFacts q ↔ event.revision ≠ 0 := by
  simp only [applyCheckpointUpdate, run_ok_iff, exists_const] at h
  obtain ⟨⟨-, hchecked⟩, -, rfl⟩ := h
  exact ⟨fun hq => (hq.checkpoint rfl).1,
    fun hne => { hp with checkpoint := fun _ => ⟨hne, hchecked⟩ }⟩

theorem validationUpdate_valid_iff {event : ValidationEvent}
    (h : applyValidationUpdate p event = .ok q) : ValidFacts q ↔ event.revision ≠ 0 := by
  simp only [applyValidationUpdate, run_ok_iff, exists_const] at h
  obtain ⟨⟨-, hchecked⟩, -, -, rfl⟩ := h
  exact ⟨fun hq => (hq.validation rfl).1,
    fun hne => { hp with validation := fun _ => ⟨hne, hchecked⟩ }⟩

theorem acceptanceUpdate_valid_iff {event : AcceptanceEvent}
    (h : applyAcceptanceUpdate p event = .ok q) :
    ValidFacts q ↔ event.revision ≠ 0 ∧ event.bindings.complete = true := by
  simp only [applyAcceptanceUpdate, run_ok_iff, exists_const] at h
  obtain ⟨⟨-, hstate⟩, -, -, rfl⟩ := h
  exact ⟨fun hq => ⟨(hq.acceptance rfl).1, (hq.acceptance rfl).2.2⟩,
    fun h => { hp with acceptance := fun _ => ⟨h.1, hstate, h.2⟩ }⟩

theorem budgetUpdate_valid {event : BudgetEvent}
    (h : applyBudgetUpdate p event = .ok q) : ValidFacts q := by
  simp only [applyBudgetUpdate, run_ok_iff, exists_const] at h
  obtain ⟨⟨-, hamounts⟩, rfl⟩ := h
  exact { hp with budget := fun _ => hamounts }

theorem reviewRevision_valid_iff {revision : UInt64} {bindings : RevisionBindings}
    (h : applyReviewRevision p revision bindings = .ok q) : ValidFacts q ↔ revision ≠ 0 := by
  simp only [applyReviewRevision, run_ok_iff, exists_const] at h
  obtain ⟨⟨-, hcomplete⟩, rfl⟩ := h
  exact ⟨fun hq => (hq.review rfl).1, fun hne => { hp with review := fun _ => ⟨hne, hcomplete⟩ }⟩

theorem graphPatch_valid_iff {baseRevision revision : UInt64}
    (h : applyGraphPatch p baseRevision revision = .ok q) : ValidFacts q ↔ revision ≠ 0 := by
  simp only [applyGraphPatch, run_ok_iff, exists_const] at h
  obtain ⟨-, rfl⟩ := h
  exact ⟨fun hq => hq.graph rfl, fun hne => { hp with graph := fun _ => hne }⟩

theorem graphSnapshot_valid {revision : UInt64}
    (h : applyGraphSnapshot p revision = .ok q) : ValidFacts q := by
  simp only [applyGraphSnapshot, run_ok_iff, exists_const] at h
  obtain ⟨⟨hne, -⟩, rfl⟩ := h
  exact { hp with graph := fun _ => hne }

end

theorem defaultRecovery_of_isValid {recovery : OpenEnum RecoveryClass}
    (h : recovery.isValid = true) : defaultRecovery recovery = recovery := by
  obtain ⟨a, rfl⟩ := OpenEnum.isValid_iff.1 h
  exact if_neg (by cases a <;> decide)

variable {classification : OpenEnum RecoveryClass}

/-- A recovery without a revision changes the classification, and the detail has to be of the same
one. -/
theorem recoveryUpdate_valid_iff (hp : ValidFacts p)
    (h : applyRecoveryUpdate p classification = .ok q) :
    ValidFacts q ↔
      (p.recoveryDetail.present = true → p.recoveryDetail.classification = classification) := by
  simp only [applyRecoveryUpdate, run_ok_iff, exists_const] at h
  obtain ⟨hvalid, rfl⟩ := h
  have hdefault := defaultRecovery_of_isValid hvalid
  constructor
  · intro hq hpresent
    exact (hq.recoveryDetail hpresent).2.2.trans hdefault
  · intro hsame
    exact { hp with
      recovery := by rw [hdefault]; exact hvalid
      recoveryDetail := fun hpresent => ⟨(hp.recoveryDetail hpresent).1,
        (hp.recoveryDetail hpresent).2.1, (hsame hpresent).trans hdefault.symm⟩ }

/-- A recovery with a revision replaces the detail, whatever the classification was before. -/
theorem recoveryDetailUpdate_valid_iff (hp : ValidFacts p)
    {detail : RecoveryFact} (hne : detail.revision ≠ 0)
    (h : applyRecoveryDetailUpdate { p with recovery := classification } detail = .ok q) :
    ValidFacts q ↔ detail.NamesRelated := by
  simp only [applyRecoveryDetailUpdate, run_ok_iff, exists_const] at h
  obtain ⟨⟨-, hfacts⟩, haction, rfl⟩ := h
  have hdefault := defaultRecovery_of_isValid hfacts.1
  constructor
  · intro hq
    exact hq.related rfl
  · intro hrelated
    exact { hp with
      recovery := by rw [hdefault]; exact hfacts.1
      recoveryDetail := fun _ => ⟨hne, ⟨hfacts, haction⟩, hdefault.symm⟩
      related := fun _ => hrelated }

/-- **One event.** What an event leaves of a valid projection is valid exactly when the event meets
its condition. -/
theorem validFacts_reduceEvent_iff (hp : ValidFacts p) {event : ProjectionEvent}
    (h : reduceEvent p event = .ok q) : ValidFacts q ↔ KeepsValid p event := by
  cases event with
  | noop =>
    cases h
    exact iff_of_true hp trivial
  | taskTransition event => exact taskTransition_valid_iff hp h
  | planRevision event => exact planRevision_valid_iff hp h
  | toolUpdate event => exact toolUpdate_valid_iff hp h
  | approvalUpdate event => exact approvalUpdate_valid_iff hp h
  | checkpoint event => exact checkpointUpdate_valid_iff hp h
  | validationUpdate event => exact validationUpdate_valid_iff hp h
  | acceptanceUpdate event => exact acceptanceUpdate_valid_iff hp h
  | budgetUpdate event => exact iff_of_true (budgetUpdate_valid hp h) trivial
  | reviewRevision revision bindings => exact reviewRevision_valid_iff hp h
  | graphSnapshot revision => exact iff_of_true (graphSnapshot_valid hp h) trivial
  | graphPatch baseRevision revision => exact graphPatch_valid_iff hp h
  | recoveryUpdate classification detail =>
    simp only [reduceEvent, bind_ok_iff] at h
    obtain ⟨next, hnext, h⟩ := h
    by_cases hzero : detail.revision = 0
    · rw [if_neg (by rw [hzero]; decide), pure_ok_iff] at h
      rw [KeepsValid, if_pos hzero, ← h]
      exact recoveryUpdate_valid_iff hp hnext
    · rw [if_pos (UInt64.pos_iff_ne_zero.2 hzero)] at h
      simp only [applyRecoveryUpdate, run_ok_iff, exists_const]
        at hnext
      obtain ⟨-, rfl⟩ := hnext
      rw [KeepsValid, if_neg hzero]
      exact recoveryDetailUpdate_valid_iff hp hzero h

/-! ### Session events -/

/-- The condition under which a session event keeps a projection valid. -/
def SessionKeepsValid (p : TaskProjection) (event : SessionEvent) : Prop :=
  match event.kind with
  | .declared .planCreated | .declared .planChanged | .declared .toolStarted
  | .declared .toolProgress | .declared .toolCompleted | .declared .approvalRequested
  | .declared .approvalResolved | .declared .taskStateChanged | .declared .checkpointCreated
  | .declared .validationUpdated | .declared .changeAcceptanceUpdated | .declared .graphPatch =>
    event.revision ≠ 0
  | .declared .recoveryRequired =>
    event.revision = 0 → p.recoveryDetail.present = true →
      ∀ recovery ∈ event.payload.recoveryRequired,
        recovery.classification.toText = p.recoveryDetail.classification.toText
  | _ => True

theorem payloadField_ok_iff {α : Type} {field : Option α} {a : α} :
    payloadField field = .ok a ↔ field = some a := by
  cases field with
  | none | some b => simp [payloadField]

/-- The payload of a session event has been checked, which leaves of the condition what depends on
the projection and on the revision of the envelope. -/
theorem keepsValid_adapted_iff {event : SessionEvent} {adapted : ProjectionEvent}
    (h : projectionEventFromSessionEvent p event = .ok adapted) :
    KeepsValid p adapted ↔ SessionKeepsValid p event := by
  simp only [projectionEventFromSessionEvent, run_ok_iff, mapError_ok_iff, exists_const] at h
  obtain ⟨_, hvalid, -, h⟩ := h
  have hpayload := (SessionEvent.validate_ok_iff.1 hvalid).payload
  unfold SessionKeepsValid
  cases hkind : event.kind with
  | undeclared raw outside =>
    rw [hkind] at h
    cases h
  | declared kind =>
    rw [hkind] at h hpayload
    cases kind
    all_goals
      simp only [run_ok_iff, payloadField_ok_iff, exists_const] at h ⊢
    case planCreated | planChanged =>
      obtain ⟨-, -, plan, -, hrevision, rfl⟩ := h
      rw [KeepsValid, hrevision]
    case toolStarted | toolProgress | toolCompleted | approvalRequested | approvalResolved |
        taskStateChanged | checkpointCreated | validationUpdated | budgetUpdated =>
      obtain ⟨-, -, fact, -, rfl⟩ := h
      exact Iff.rfl
    case changeAcceptanceUpdated =>
      obtain ⟨-, -, acceptance, hfield, rfl⟩ := h
      simp only [validatePayload, hfield, validateChangeAcceptance, ensure_ok_iff, Option.any_some,
        Bool.and_eq_true] at hpayload
      exact and_iff_left hpayload.2
    case graphPatch =>
      obtain ⟨-, -, h⟩ := h
      split_ifs at h with hpositive
      · cases h
        exact Iff.rfl
      · cases h
        have hzero : event.revision = 0 := not_not.1 fun hne =>
          hpositive (UInt64.pos_iff_ne_zero.2 hne)
        rw [KeepsValid, hzero]
    case recoveryRequired =>
      obtain ⟨-, -, recovery, hfield, rfl⟩ := h
      simp only [validatePayload, hfield, validateRecovery, run_ok_iff, exists_const] at hpayload
      by_cases hzero : event.revision = 0
      · simp only [KeepsValid, hzero, if_true, hfield, Option.mem_def, Option.some.injEq,
          forall_eq', forall_true_left]
        refine imp_congr_right fun _ => ?_
        rw [← OpenEnum.toText_injective.eq_iff, OpenEnum.toText_ofText, eq_comm]
      · simp only [KeepsValid, hzero, if_false, false_imp_iff, iff_true]
        exact hpayload.2.2.2.2
    case graphSnapshot =>
      obtain ⟨-, -, rfl⟩ := h
      exact Iff.rfl
    case taskProjectionInvalidated =>
      obtain ⟨-, -, h⟩ := h
      cases h
    all_goals
      subst h
      exact Iff.rfl

end Handlers

/-! ### Runs of events -/

/-- Something that the browser applies: an event of the reducer, or one of the session. -/
inductive BrowserEvent
  | projection (sequence : UInt64) (event : ProjectionEvent)
  | session (event : SessionEvent)

/-- Apply an event of either kind. -/
def TaskProjection.apply (p : TaskProjection) : BrowserEvent → Outcome TaskProjection
  | .projection sequence event => applyEvent p sequence event
  | .session event => applySessionEvent p event

/-- The reducer on the whole projection: no event touches the pending command. -/
def LiveTask.apply (p : LiveTask) (event : BrowserEvent) : Outcome LiveTask := do
  let task ← p.toTaskProjection.apply event
  return { p with toTaskProjection := task }

/-- The projection after an event, which is the old one when the event is refused. -/
def LiveTask.step (p : LiveTask) (event : BrowserEvent) : LiveTask := settled p (p.apply event)

/-- The condition under which an event keeps a projection valid. -/
def LiveTask.Keeps (p : LiveTask) : BrowserEvent → Prop
  | .projection _ event => KeepsValid p.toTaskProjection event
  | .session event => SessionKeepsValid p.toTaskProjection event

/-- The event is refused, or it meets its condition. -/
def LiveTask.KeepsIfApplied (event : BrowserEvent) (p : LiveTask) : Prop :=
  ∀ q, p.apply event = .ok q → p.Keeps event

theorem validFacts_applyEvent_iff {p q : TaskProjection} (hp : ValidFacts p) {sequence : UInt64}
    {event : ProjectionEvent} (h : applyEvent p sequence event = .ok q) :
    ValidFacts q ↔ KeepsValid p event := by
  simp only [applyEvent, run_ok_iff, exists_const] at h
  obtain ⟨-, next, hnext, rfl⟩ := h
  rw [ValidFacts.lastSequence_iff]
  exact validFacts_reduceEvent_iff hp hnext

theorem LiveTask.valid_apply_iff {q : LiveTask} (hp : validateProjection p = .ok ())
    {event : BrowserEvent} (h : p.apply event = .ok q) :
    validateProjection q = .ok () ↔ p.Keeps event := by
  obtain ⟨hfacts, hcommand⟩ := validateProjection_ok_iff.1 hp
  simp only [LiveTask.apply, run_ok_iff] at h
  obtain ⟨task, htask, rfl⟩ := h
  rw [validateProjection_ok_iff, and_iff_left hcommand]
  cases event with
  | projection sequence event => exact validFacts_applyEvent_iff hfacts htask
  | session event =>
    simp only [TaskProjection.apply, applySessionEvent, bind_ok_iff] at htask
    obtain ⟨adapted, hadapted, happly⟩ := htask
    exact (validFacts_applyEvent_iff hfacts happly).trans (keepsValid_adapted_iff hadapted)

/-- A projection that is valid, and so can be taken over as a snapshot. -/
def LiveTask.Reapplies (p : LiveTask) : Prop :=
  validateProjection p = .ok () ∧ ∃ q, applySnapshot p = .ok q

theorem LiveTask.reapplies_iff : p.Reapplies ↔ validateProjection p = .ok () :=
  ⟨And.left, fun h => ⟨h, _, applySnapshot_of_valid h⟩⟩

theorem LiveTask.reapplies_step_iff (p : LiveTask) (event : BrowserEvent) (hp : p.Reapplies) :
    (p.step event).Reapplies ↔ KeepsIfApplied event p := by
  rw [LiveTask.reapplies_iff] at hp ⊢
  unfold LiveTask.step KeepsIfApplied
  cases happly : p.apply event with
  | error failure => simpa using hp
  | ok q =>
    rw [settled_ok, LiveTask.valid_apply_iff hp happly]
    simp

/-- **Validity of the projection.** A successful event leaves a valid projection valid exactly
when it meets its condition. So the projections of a run from an accepted snapshot can all be
taken over as snapshots exactly when every successful event of the run meets its condition. -/
theorem projection_valid_iff {snapshot base : LiveTask} (hbase : applySnapshot snapshot = .ok base)
    (run : List BrowserEvent) :
    (∀ (p q : LiveTask) (event : BrowserEvent), validateProjection p = .ok () →
      p.apply event = .ok q → (validateProjection q = .ok () ↔ p.Keeps event)) ∧
    ((∀ k, ((run.take k).foldl LiveTask.step base).Reapplies) ↔
      ∀ k event, run[k]? = some event →
        LiveTask.KeepsIfApplied event ((run.take k).foldl LiveTask.step base)) := by
  refine ⟨fun p q event hp h => LiveTask.valid_apply_iff hp h, ?_⟩
  have hstep : ∀ p event, True → p.Reapplies →
      ((p.step event).Reapplies ↔ LiveTask.KeepsIfApplied event p) :=
    fun p event _ hp => p.reapplies_step_iff event hp
  exact forall_prefix_iff (fun _ _ _ => trivial) hstep trivial
    (LiveTask.reapplies_iff.2 (valid_of_applySnapshot hbase)) run

/-- The task of `awaitingProjection`, without a pending command. -/
def awaitingTask : LiveTask where
  toTaskProjection := awaitingProjection
  pendingCommand := ⟨"", "", 0, .declared .idle⟩

/-- A recovery of the given class that can only be preserved. -/
def sampleRecovery (classification : RecoveryClassification) : RecoveryRequired where
  redactedReason := "the worktree differs"
  checkpointID := none
  classification := .declared classification
  divergenceSummary := "one file"
  externalOutcomeAmbiguous := false
  safeResumeVerified := true
  reconcileAvailable := true
  preservePatchAvailable := true
  bindings := ⟨1, 1, 1, 1, 1⟩
  relatedEventIDs := []
  relatedFiles := []

/-- The recovery as a session event. -/
def sampleRecoveryRequired (sequence revision : UInt64) (classification : RecoveryClassification) :
    SessionEvent :=
  { sampleTaskEvent sequence .recoveryRequired
      { recoveryRequired := some (sampleRecovery classification) } with
    revision }

theorem projection_valid_after_recovery :
    validateProjection (awaitingTask.step (.session (sampleRecoveryRequired 3 1 .safeResume))) =
        .ok () ∧
      ∀ k, (([.session (sampleRecoveryRequired 3 1 .safeResume)].take k).foldl LiveTask.step
        awaitingTask).Reapplies := by
  have hkeeps : awaitingTask.Keeps (.session (sampleRecoveryRequired 3 1 .safeResume)) :=
    fun hzero => absurd hzero (by decide)
  have hsnapshot : applySnapshot awaitingTask = .ok awaitingTask := by decide
  have hrun := (projection_valid_iff hsnapshot
    [.session (sampleRecoveryRequired 3 1 .safeResume)]).2.2 <| by
      intro k event hevent q _
      cases k with
      | zero =>
        cases hevent
        exact hkeeps
      | succ k => simp at hevent
  exact ⟨(hrun 1).1, hrun⟩

/-- The projection with the detail of a recovery that is safe to resume. -/
def recoveredTask : LiveTask :=
  awaitingTask.step (.session (sampleRecoveryRequired 3 1 .safeResume))

/-- An acceptance without bindings. -/
def unboundAcceptance : BrowserEvent :=
  .projection 3 (.acceptanceUpdate ⟨.declared .pending, 1, ⟨0, 0, 0, 0, 0⟩⟩)

/-- A recovery of revision zero, whose class is not that of the detail. -/
def unrevisedRecovery : BrowserEvent := .session (sampleRecoveryRequired 4 0 .preserveOnly)

/-- Both events are taken. The projection is then invalid, and cannot be taken over as a
snapshot. -/
theorem projection_becomes_invalid :
    (validateProjection awaitingTask = .ok () ∧
      awaitingTask.apply unboundAcceptance = .ok (awaitingTask.step unboundAcceptance) ∧
      validateProjection (awaitingTask.step unboundAcceptance) =
        .error (.new "task snapshot acceptance is invalid") ∧
      applySnapshot (awaitingTask.step unboundAcceptance) =
        .error (.new "task snapshot acceptance is invalid")) ∧
    validateProjection recoveredTask = .ok () ∧
      recoveredTask.apply unrevisedRecovery = .ok (recoveredTask.step unrevisedRecovery) ∧
      validateProjection (recoveredTask.step unrevisedRecovery) =
        .error (.new "task snapshot recovery detail is invalid") ∧
      applySnapshot (recoveredTask.step unrevisedRecovery) =
        .error (.new "task snapshot recovery detail is invalid") := by
  decide

end Codeflux.Frontend
