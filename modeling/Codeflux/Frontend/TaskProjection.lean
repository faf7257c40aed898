import Codeflux.Events.Session

/-!
# The browser's projection of a task

The frontend folds ordered events into its own projection of one live task. A fact that does not fit
makes it ask for a fresh snapshot, so every refusal is an inconsistency.
-/

namespace Codeflux.Frontend

open Library Domain Events Go

/-- An inconsistency of the projection, or a session event that has no projection. -/
inductive ProjectionFailure
  | inconsistency (code entity : String) (expected observed : UInt64) (source target : String)
      (cause : Failure)
  | unsupported (kind : OpenEnum Kind) (missing : List String)
deriving DecidableEq

/-! ### The projection -/

/-- The plan, as projected. -/
structure PlanProjection where
  present : Bool
  revision : UInt64
  redactedSummary : String
  approval : OpenEnum ApprovalRequestState
  priorRevisions : List UInt64
deriving DecidableEq

/-- The last tool execution. -/
structure ToolProjection where
  present : Bool
  (executionID commandName : String)
  state : OpenEnum CommandExecutionState
  revision : UInt64
  safeSummary : String
deriving DecidableEq

/-- Is a tool running? -/
def ToolProjection.active (tool : ToolProjection) : Bool :=
  tool.present && !CommandExecutionState.isTerminal tool.state

/-- The last approval request. -/
structure ApprovalProjection where
  present : Bool
  id : ApprovalID
  state : OpenEnum ApprovalRequestState
  (scope safeReason : String)
  revision : UInt64
deriving DecidableEq

/-- Is an approval pending? -/
def ApprovalProjection.pending (approval : ApprovalProjection) : Bool :=
  approval.present && decide (approval.state = ApprovalRequestState.pending)

/-- The last checkpoint. -/
structure CheckpointProjection where
  present : Bool
  id : CheckpointID
  taskRevision : UInt64
  planStep : String
  createdAt : Timestamp
  revision : UInt64
deriving DecidableEq

/-- The last validation. -/
structure ValidationProjection where
  present : Bool
  id : ValidationID
  state : OpenEnum ValidationState
  (required acknowledged : Bool)
  safeSummary : String
  (revision diffRevision : UInt64)
deriving DecidableEq

/-- The revisions under review. -/
structure ReviewProjection where
  present : Bool
  revision : UInt64
  bindings : RevisionBindings
deriving DecidableEq

/-- The state of the review. -/
structure AcceptanceProjection where
  present : Bool
  state : OpenEnum ChangeAcceptanceState
  revision : UInt64
  bindings : RevisionBindings
deriving DecidableEq

/-- The budget, as projected. -/
structure BudgetProjection where
  present : Bool
  revision : UInt64
  (hardLimit reserved actual : Money)
deriving DecidableEq

/-- The revision of the graph. -/
structure GraphProjection where
  present : Bool
  revision : UInt64
deriving DecidableEq

/-- The browser's recovery classes: those of the session events, and none. -/
inductive RecoveryClass
  | none | safeResume | needsReconcile | preserveOnly | ambiguousOutcome
deriving DecidableEq

instance : Declared RecoveryClass where
  all := [.none, .safeResume, .needsReconcile, .preserveOnly, .ambiguousOutcome]
  text
    | .none => "none"
    | .safeResume => "safe-resume"
    | .needsReconcile => "needs-reconcile"
    | .preserveOnly => "preserve-only"
    | .ambiguousOutcome => "ambiguous-outcome"

/-- A recovery as an event reports it and the projection keeps it. -/
structure RecoveryFact where
  revision : UInt64
  classification : OpenEnum RecoveryClass
  checkpointID : Option CheckpointID
  (safeReason divergenceSummary : String)
  (externalOutcomeAmbiguous safeResumeVerified reconcileAvailable preservePatchAvailable : Bool)
  bindings : RevisionBindings
  relatedEventIDs : List EventID
  relatedFiles : List String
deriving DecidableEq

/-- The last recovery. -/
structure RecoveryProjection extends RecoveryFact where
  present : Bool
deriving DecidableEq

/-- What the browser knows of one task. -/
structure TaskProjection where
  taskID : TaskID
  state : OpenEnum TaskState
  (revision lastSequence : UInt64)
  plan : PlanProjection
  tool : ToolProjection
  approval : ApprovalProjection
  checkpoint : CheckpointProjection
  validation : ValidationProjection
  review : ReviewProjection
  acceptance : AcceptanceProjection
  budget : BudgetProjection
  graph : GraphProjection
  recovery : OpenEnum RecoveryClass
  recoveryDetail : RecoveryProjection
deriving DecidableEq

/-- The outcome of a reducer function. -/
abbrev Outcome (α : Type) := Except ProjectionFailure α

/-! ### Events -/

/-- A task transition. -/
structure TaskTransitionEvent where
  (source target : OpenEnum TaskState)
  revision : UInt64
  approval : OpenEnum ApprovalRequestState

/-- A plan revision. -/
structure PlanRevisionEvent where
  revision : UInt64
  redactedSummary : String

/-- A tool update. -/
structure ToolEvent where
  (executionID commandName : String)
  state : OpenEnum CommandExecutionState
  revision : UInt64
  safeSummary : String

/-- An approval update. -/
structure ApprovalEvent where
  id : ApprovalID
  state : OpenEnum ApprovalRequestState
  (scope safeReason : String)
  revision : UInt64

/-- A new checkpoint. -/
structure CheckpointEvent where
  id : CheckpointID
  taskRevision : UInt64
  planStep : String
  createdAt : Timestamp
  revision : UInt64

/-- A validation update. -/
structure ValidationEvent where
  id : ValidationID
  state : OpenEnum ValidationState
  (required acknowledged : Bool)
  safeSummary : String
  (revision diffRevision : UInt64)

/-- An acceptance update. -/
structure AcceptanceEvent where
  state : OpenEnum ChangeAcceptanceState
  revision : UInt64
  bindings : RevisionBindings

/-- A budget update. -/
structure BudgetEvent where
  revision : UInt64
  (hardLimit reserved actual : Money)

/-- The events of the reducer. A recovery without a revision changes the classification only. -/
inductive ProjectionEvent
  | noop
  | taskTransition (event : TaskTransitionEvent)
  | planRevision (event : PlanRevisionEvent)
  | toolUpdate (event : ToolEvent)
  | approvalUpdate (event : ApprovalEvent)
  | checkpoint (event : CheckpointEvent)
  | validationUpdate (event : ValidationEvent)
  | acceptanceUpdate (event : AcceptanceEvent)
  | budgetUpdate (event : BudgetEvent)
  | reviewRevision (revision : UInt64) (bindings : RevisionBindings)
  | graphSnapshot (revision : UInt64)
  | graphPatch (baseRevision revision : UInt64)
  | recoveryUpdate (classification : OpenEnum RecoveryClass) (detail : RecoveryFact)

/-! ### The reducer -/

/-- The revision a fact has to have next: one, or one more than the projected one. The addition is
one of `uint64`, which wraps around. -/
def nextRevision (present : Bool) (revision : UInt64) : UInt64 :=
  if present then revision + 1 else 1

variable (current : TaskProjection)

/-- Apply a task transition. -/
def applyTaskTransition (event : TaskTransitionEvent) : Outcome TaskProjection := do
  ensure (event.revision = current.revision + 1)
    (.inconsistency "task-revision" "task" (current.revision + 1) event.revision
      current.state.toText event.target.toText (.new "task revision mismatch"))
  ensure (event.source = current.state)
    (.inconsistency "task-state-base" "task" current.revision event.revision
      current.state.toText event.source.toText (.new "task transition base mismatch"))
  (validateTaskTransition ⟨event.source, event.target, event.approval⟩).mapError
    (.inconsistency "task-transition" "task" (current.revision + 1) event.revision
      event.source.toText event.target.toText)
  let next := { current with state := event.target, revision := event.revision }
  if event.source = TaskState.awaitingPlanApproval ∧ event.target = TaskState.ready then do
    ensure (current.plan.present ∧ event.approval = ApprovalRequestState.granted)
      (.inconsistency "plan-approval" "plan" (current.revision + 1) event.revision
        current.plan.approval.toText event.approval.toText
        (.new "ready transition requires the current approved plan"))
    pure { next with plan := { current.plan with approval := .declared .granted } }
  else if event.source = TaskState.awaitingPlanApproval ∧ event.target = TaskState.forecasting ∧
      current.plan.present then
    pure { next with plan := { current.plan with approval := .declared .cancelled } }
  else pure next

/-- Apply a plan revision. -/
def applyPlanRevision (event : PlanRevisionEvent) : Outcome TaskProjection := do
  let expected := nextRevision current.plan.present current.plan.revision
  ensure (event.revision = expected ∧ trimSpace event.redactedSummary ≠ "")
    (.inconsistency "plan-revision" "plan" expected event.revision "" ""
      (.new "invalid plan revision"))
  pure { current with plan :=
    { present := true
      revision := event.revision
      redactedSummary := trimSpace event.redactedSummary
      approval := .declared .pending
      priorRevisions := current.plan.priorRevisions ++
        (if current.plan.present then [current.plan.revision] else []) } }

/-- Apply a tool update. -/
def applyToolUpdate (event : ToolEvent) : Outcome TaskProjection := do
  let expected := nextRevision current.tool.present current.tool.revision
  ensure (event.revision = expected ∧ trimSpace event.executionID ≠ "" ∧
      trimSpace event.commandName ≠ "" ∧ event.state.isValid)
    (.inconsistency "tool-revision" "tool" expected event.revision "" event.state.toText
      (.new "invalid tool update"))
  if current.tool.active then do
    ensure (event.executionID = current.tool.executionID)
      (.inconsistency "tool-identity" "tool" expected event.revision current.tool.executionID
        event.executionID (.new "active tool identity changed"))
    if event.state = current.tool.state then pure ()
    else
      (validateCommandExecutionTransition ⟨current.tool.state, event.state, .ofText ""⟩).mapError
        (.inconsistency "tool-transition" "tool" expected event.revision
          current.tool.state.toText event.state.toText)
  else do
    ensure (¬(current.tool.present ∧ current.tool.executionID = event.executionID))
      (.inconsistency "tool-identity-reuse" "tool" expected event.revision
        current.tool.executionID event.executionID (.new "terminal tool identity was reused"))
    ensure (event.state = CommandExecutionState.pending ∨
        event.state = CommandExecutionState.running)
      (.inconsistency "tool-start-state" "tool" expected event.revision "" event.state.toText
        (.new "new tool must start pending or running"))
  pure { current with tool :=
    ⟨true, event.executionID, event.commandName, event.state, event.revision, event.safeSummary⟩ }

/-- Apply an approval update. -/
def applyApprovalUpdate (event : ApprovalEvent) : Outcome TaskProjection := do
  let expected := nextRevision current.approval.present current.approval.revision
  ensure (event.revision = expected ∧ event.id.isZero = false ∧ event.state.isValid)
    (.inconsistency "approval-revision" "approval" expected event.revision "" event.state.toText
      (.new "invalid approval update"))
  if current.approval.pending then do
    ensure (current.approval.id = event.id)
      (.inconsistency "approval-identity" "approval" expected event.revision
        current.approval.id.value event.id.value (.new "pending approval identity changed"))
    (validateApprovalRequestTransition current.approval.state event.state).mapError
      (.inconsistency "approval-transition" "approval" expected event.revision
        current.approval.state.toText event.state.toText)
  else do
    ensure (¬(current.approval.present ∧ current.approval.id = event.id))
      (.inconsistency "approval-identity-reuse" "approval" expected event.revision
        current.approval.id.value event.id.value (.new "terminal approval identity was reused"))
    ensure (event.state = ApprovalRequestState.pending)
      (.inconsistency "approval-start-state" "approval" expected event.revision ""
        event.state.toText (.new "new approval must be pending"))
  pure { current with approval :=
    ⟨true, event.id, event.state, event.scope, event.safeReason, event.revision⟩ }

/-- Apply a new checkpoint. -/
def applyCheckpointUpdate (event : CheckpointEvent) : Outcome TaskProjection := do
  let expected := nextRevision current.checkpoint.present current.checkpoint.revision
  ensure (event.revision = expected ∧ event.id.isZero = false ∧ event.taskRevision ≠ 0 ∧
      event.taskRevision ≤ current.revision ∧ event.createdAt.isZero = false ∧
      event.createdAt.utc ∧ trimSpace event.planStep ≠ "")
    (.inconsistency "checkpoint-revision" "checkpoint" expected event.revision "" ""
      (.new "invalid checkpoint update"))
  ensure (current.checkpoint.present → current.checkpoint.taskRevision ≤ event.taskRevision)
    (.inconsistency "checkpoint-task-revision" "checkpoint" current.checkpoint.taskRevision
      event.taskRevision "" "" (.new "checkpoint task revision regressed"))
  pure { current with checkpoint :=
    ⟨true, event.id, event.taskRevision, event.planStep, event.createdAt, event.revision⟩ }

/-- A validation may start pending or running. -/
def checkValidationStart (expected : UInt64) (event : ValidationEvent) : Outcome Unit :=
  ensure (event.state = ValidationState.pending ∨ event.state = ValidationState.running)
    (.inconsistency "validation-start-state" "validation" expected event.revision ""
      event.state.toText (.new "new validation must start pending or running"))

/-- May the event follow the projected validation? -/
def checkValidation (current : ValidationProjection) (expected : UInt64)
    (event : ValidationEvent) : Outcome Unit :=
  if current.present then do
    ensure (ValidationState.isTerminal current.state ∨ current.id = event.id)
      (.inconsistency "validation-identity" "validation" expected event.revision
        current.id.value event.id.value (.new "running validation identity changed"))
    if current.id = event.id then
      (validateValidationTransition current.state event.state).mapError
        (.inconsistency "validation-transition" "validation" expected event.revision
          current.state.toText event.state.toText)
    else checkValidationStart expected event
  else checkValidationStart expected event

/-- Apply a validation update. -/
def applyValidationUpdate (event : ValidationEvent) : Outcome TaskProjection := do
  let expected := nextRevision current.validation.present current.validation.revision
  ensure (event.revision = expected ∧ event.id.isZero = false ∧ event.state.isValid ∧
      event.diffRevision ≠ 0)
    (.inconsistency "validation-revision" "validation" expected event.revision ""
      event.state.toText (.new "invalid validation update"))
  checkValidation current.validation expected event
  pure { current with validation :=
    ⟨true, event.id, event.state, event.required, event.acknowledged, event.safeSummary,
      event.revision, event.diffRevision⟩ }

/-- May the event follow the projected acceptance? A repair may change the bindings. -/
def checkAcceptance (current : AcceptanceProjection) (expected : UInt64)
    (event : AcceptanceEvent) : Outcome Unit :=
  if current.present then do
    ensure (event.bindings = current.bindings ∨
        current.state = ChangeAcceptanceState.repairRequested ∧
          event.state = ChangeAcceptanceState.pending)
      (.inconsistency "acceptance-bindings" "acceptance" expected event.revision "bound" "changed"
        (.new "acceptance bindings changed within a review"))
    (validateChangeAcceptanceTransition current.state event.state).mapError
      (.inconsistency "acceptance-transition" "acceptance" expected event.revision
        current.state.toText event.state.toText)
  else
    ensure (event.state = ChangeAcceptanceState.pending)
      (.inconsistency "acceptance-start-state" "acceptance" expected event.revision ""
        event.state.toText (.new "new acceptance must start pending"))

/-- Apply an acceptance update. -/
def applyAcceptanceUpdate (event : AcceptanceEvent) : Outcome TaskProjection := do
  let expected := nextRevision current.acceptance.present current.acceptance.revision
  ensure (event.revision = expected ∧ event.state.isValid)
    (.inconsistency "acceptance-revision" "acceptance" expected event.revision ""
      event.state.toText (.new "invalid acceptance update"))
  checkAcceptance current.acceptance expected event
  pure { current with acceptance := ⟨true, event.state, event.revision, event.bindings⟩ }

/-- The amounts of a budget: valid, in one currency and not negative. -/
def validAmounts (hardLimit reserved actual : Money) : Prop :=
  hardLimit.validate = .ok () ∧ reserved.validate = .ok () ∧ actual.validate = .ok () ∧
    hardLimit.currency = reserved.currency ∧ hardLimit.currency = actual.currency ∧
    0 ≤ hardLimit.minorUnits ∧ 0 ≤ reserved.minorUnits ∧ 0 ≤ actual.minorUnits

instance (hardLimit reserved actual : Money) : Decidable (validAmounts hardLimit reserved actual) :=
  inferInstanceAs (Decidable (_ ∧ _))

/-- Apply a budget update. -/
def applyBudgetUpdate (event : BudgetEvent) : Outcome TaskProjection := do
  let expected := nextRevision current.budget.present current.budget.revision
  ensure (event.revision = expected ∧ validAmounts event.hardLimit event.reserved event.actual)
    (.inconsistency "budget-revision" "budget" expected event.revision "" ""
      (.new "invalid budget update"))
  pure { current with budget :=
    ⟨true, event.revision, event.hardLimit, event.reserved, event.actual⟩ }

/-- Apply a new review. -/
def applyReviewRevision (revision : UInt64)
    (bindings : RevisionBindings) : Outcome TaskProjection := do
  let expected := nextRevision current.review.present current.review.revision
  ensure (revision = expected ∧ bindings.complete)
    (.inconsistency "review-revision" "review" expected revision "" ""
      (.new "invalid review revision"))
  pure { current with review := ⟨true, revision, bindings⟩ }

/-- Apply a graph patch. -/
def applyGraphPatch (baseRevision revision : UInt64) : Outcome TaskProjection := do
  ensure (baseRevision = current.graph.revision ∧ revision = current.graph.revision + 1)
    (.inconsistency "graph-revision" "graph" current.graph.revision baseRevision "" ""
      (.new "graph patch base mismatch"))
  pure { current with graph := ⟨true, revision⟩ }

/-- Apply a graph snapshot. -/
def applyGraphSnapshot (revision : UInt64) : Outcome TaskProjection := do
  ensure (revision ≠ 0 ∧ (current.graph.present → current.graph.revision ≤ revision))
    (.inconsistency "graph-snapshot-revision" "graph" current.graph.revision revision "" ""
      (.new "graph snapshot revision regressed"))
  pure { current with graph := ⟨true, revision⟩ }

/-- Apply a recovery classification. -/
def applyRecoveryUpdate (classification : OpenEnum RecoveryClass) : Outcome TaskProjection := do
  ensure classification.isValid
    (.inconsistency "recovery-classification" "recovery" 0 0 "" classification.toText
      (.new "invalid recovery classification"))
  pure { current with recovery := classification }

/-- Apply a recovery with its details. -/
def applyRecoveryDetailUpdate (event : RecoveryFact) : Outcome TaskProjection := do
  let expected := nextRevision current.recoveryDetail.present current.recoveryDetail.revision
  ensure (event.revision = expected ∧ event.classification.isValid ∧
      trimSpace event.safeReason ≠ "" ∧ trimSpace event.divergenceSummary ≠ "" ∧
      event.bindings.complete ∧ event.externalOutcomeAmbiguous =
        decide (event.classification = RecoveryClass.ambiguousOutcome))
    (.inconsistency "recovery-revision" "recovery" expected event.revision
      current.recovery.toText event.classification.toText (.new "invalid recovery detail"))
  ensure ((event.classification = RecoveryClass.safeResume → event.safeResumeVerified) ∧
      (event.classification = RecoveryClass.needsReconcile → event.reconcileAvailable) ∧
      (event.classification = RecoveryClass.preserveOnly ∨
        event.classification = RecoveryClass.ambiguousOutcome → event.preservePatchAvailable))
    (.inconsistency "recovery-action" "recovery" expected event.revision ""
      event.classification.toText (.new "recovery lacks its required safe action"))
  pure { current with
    recovery := event.classification
    recoveryDetail := { event with present := true } }

/-- The effect of an event, before the sequence advances. -/
def reduceEvent : ProjectionEvent → Outcome TaskProjection
  | .noop => .ok current
  | .taskTransition event => applyTaskTransition current event
  | .planRevision event => applyPlanRevision current event
  | .toolUpdate event => applyToolUpdate current event
  | .approvalUpdate event => applyApprovalUpdate current event
  | .checkpoint event => applyCheckpointUpdate current event
  | .validationUpdate event => applyValidationUpdate current event
  | .acceptanceUpdate event => applyAcceptanceUpdate current event
  | .budgetUpdate event => applyBudgetUpdate current event
  | .reviewRevision revision bindings => applyReviewRevision current revision bindings
  | .graphSnapshot revision => applyGraphSnapshot current revision
  | .graphPatch baseRevision revision => applyGraphPatch current baseRevision revision
  | .recoveryUpdate classification detail => do
    let next ← applyRecoveryUpdate current classification
    if 0 < detail.revision then applyRecoveryDetailUpdate next detail else pure next

/-- `ApplyEvent`: the next event in sequence. -/
def applyEvent (sequence : UInt64) (event : ProjectionEvent) : Outcome TaskProjection := do
  ensure (sequence = current.lastSequence + 1)
    (.inconsistency "event-sequence" "session" (current.lastSequence + 1) sequence "" ""
      (.new "ordered event sequence mismatch"))
  let next ← reduceEvent current event
  pure { next with lastSequence := sequence }

/-- A task-projecting session event names its task. -/
def requireTaskEvent (event : SessionEvent) : Outcome Unit :=
  ensure event.taskID.isSome
    (.inconsistency "task-identity" "task" current.revision event.revision current.taskID.value ""
      (.new "task-projecting session event has no task identity"))

/-- The payload field of an event that passed its check. -/
def payloadField {α : Type} (field : Option α) : Outcome α :=
  match field with
  | some a => .ok a
  | none => .error (.inconsistency "event-reducer" "event" 0 0 "" ""
      (.new "nil pointer dereference"))

/-- `ProjectionEventFromSessionEvent`: the facts of a session event that the projection takes. -/
def projectionEventFromSessionEvent (event : SessionEvent) : Outcome ProjectionEvent := do
  event.validate.mapError (.inconsistency "invalid-session-event" "session"
    (current.lastSequence + 1) event.sequence "" event.kind.toText)
  ensure (∀ id ∈ event.taskID, id = current.taskID)
    (.inconsistency "task-identity" "task" current.revision event.revision current.taskID.value
      ((event.taskID.map (·.value)).getD "")
      (.new "session event task identity differs from projection"))
  match event.kind with
  | .declared .planCreated | .declared .planChanged => do
    requireTaskEvent current event
    let plan ← payloadField event.payload.plan
    ensure (event.revision = plan.revision)
      (.inconsistency "plan-envelope-revision" "plan" plan.revision event.revision "" ""
        (.new "plan envelope and payload revisions differ"))
    pure (.planRevision ⟨plan.revision, plan.redactedSummary⟩)
  | .declared .toolStarted | .declared .toolProgress | .declared .toolCompleted => do
    requireTaskEvent current event
    let tool ← payloadField event.payload.tool
    pure (.toolUpdate ⟨tool.executionID, tool.commandName, .ofText tool.state, event.revision,
      tool.redactedSummary⟩)
  | .declared .approvalRequested | .declared .approvalResolved => do
    requireTaskEvent current event
    let approval ← payloadField event.payload.approval
    pure (.approvalUpdate ⟨approval.approvalID, approval.state, approval.scope,
      approval.redactedReason, event.revision⟩)
  | .declared .taskStateChanged => do
    requireTaskEvent current event
    let change ← payloadField event.payload.taskStateChanged
    pure (.taskTransition ⟨change.source, change.target, event.revision, change.approval⟩)
  | .declared .budgetUpdated => do
    requireTaskEvent current event
    let budget ← payloadField event.payload.budget
    pure (.budgetUpdate ⟨event.revision, budget.hardLimit, budget.reserved, budget.actual⟩)
  | .declared .checkpointCreated => do
    requireTaskEvent current event
    let checkpoint ← payloadField event.payload.checkpoint
    pure (.checkpoint ⟨checkpoint.checkpointID, checkpoint.taskRevision, checkpoint.planStep,
      event.timestamp, event.revision⟩)
  | .declared .graphSnapshot => do
    requireTaskEvent current event
    pure (.graphSnapshot event.revision)
  | .declared .graphPatch => do
    requireTaskEvent current event
    -- an event of revision zero has no base and leaves the patch event empty
    if 0 < event.revision then pure (.graphPatch (event.revision - 1) event.revision)
    else pure (.graphPatch 0 0)
  | .declared .validationUpdated => do
    requireTaskEvent current event
    let validation ← payloadField event.payload.validation
    pure (.validationUpdate ⟨validation.validationID, validation.state, validation.required,
      validation.acknowledged, validation.redactedSummary, event.revision,
      validation.diffRevision⟩)
  | .declared .changeAcceptanceUpdated => do
    requireTaskEvent current event
    let acceptance ← payloadField event.payload.changeAcceptance
    pure (.acceptanceUpdate ⟨acceptance.state, event.revision, acceptance.bindings⟩)
  | .declared .recoveryRequired => do
    requireTaskEvent current event
    let recovery ← payloadField event.payload.recoveryRequired
    let classification := .ofText recovery.classification.toText
    pure (.recoveryUpdate classification
      { revision := event.revision
        classification
        checkpointID := recovery.checkpointID
        safeReason := recovery.redactedReason
        divergenceSummary := recovery.divergenceSummary
        externalOutcomeAmbiguous := recovery.externalOutcomeAmbiguous
        safeResumeVerified := recovery.safeResumeVerified
        reconcileAvailable := recovery.reconcileAvailable
        preservePatchAvailable := recovery.preservePatchAvailable
        bindings := recovery.bindings
        relatedEventIDs := recovery.relatedEventIDs
        relatedFiles := recovery.relatedFiles })
  | .declared .taskProjectionInvalidated => do
    requireTaskEvent current event
    .error (.unsupported event.kind ["authoritative-session-snapshot"])
  | .declared .messageDelta | .declared .messageFinal | .declared .threadCreated
  | .declared .threadRenamed | .declared .threadArchived | .declared .forecastUpdated
  | .declared .usageUpdated | .declared .costUpdated | .declared .error => pure .noop
  | .undeclared _ _ =>
    .error (.inconsistency "unsupported-session-kind" "session" 0 0 "" event.kind.toText
      (.new "validated session event kind has no adapter case"))

/-- `ApplySessionEvent`: the adapter from the durable event schema into the reducer. -/
def applySessionEvent (event : SessionEvent) : Outcome TaskProjection := do
  let adapted ← projectionEventFromSessionEvent current event
  applyEvent current event.sequence adapted

end Codeflux.Frontend
