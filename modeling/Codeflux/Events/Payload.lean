import Codeflux.Domain.Policy
import Codeflux.Domain.States

/-!
# Session event kinds and payloads

A session event carries one of twenty-five kinds and a payload with one optional field for each
payload type. The checks of this module are those on the payload of one kind.
-/

namespace Codeflux.Events

open Library Domain Go

/-! ### Kinds -/

/-- The kinds of versioned session payloads. -/
inductive Kind
  | messageDelta | messageFinal | threadCreated | threadRenamed | threadArchived | planCreated
  | planChanged | toolStarted | toolProgress | toolCompleted | approvalRequested
  | approvalResolved | taskStateChanged | forecastUpdated | usageUpdated | costUpdated
  | budgetUpdated | validationUpdated | graphSnapshot | graphPatch | checkpointCreated
  | recoveryRequired | error | changeAcceptanceUpdated | taskProjectionInvalidated
deriving DecidableEq

instance : Declared Kind where
  all := [.messageDelta, .messageFinal, .threadCreated, .threadRenamed, .threadArchived,
    .planCreated, .planChanged, .toolStarted, .toolProgress, .toolCompleted, .approvalRequested,
    .approvalResolved, .taskStateChanged, .forecastUpdated, .usageUpdated, .costUpdated,
    .budgetUpdated, .validationUpdated, .graphSnapshot, .graphPatch, .checkpointCreated,
    .recoveryRequired, .error, .changeAcceptanceUpdated, .taskProjectionInvalidated]
  text
    | .messageDelta => "message-delta"
    | .messageFinal => "message-final"
    | .threadCreated => "thread-created"
    | .threadRenamed => "thread-renamed"
    | .threadArchived => "thread-archived"
    | .planCreated => "plan-created"
    | .planChanged => "plan-changed"
    | .toolStarted => "tool-started"
    | .toolProgress => "tool-progress"
    | .toolCompleted => "tool-completed"
    | .approvalRequested => "approval-requested"
    | .approvalResolved => "approval-resolved"
    | .taskStateChanged => "task-state-changed"
    | .forecastUpdated => "forecast-updated"
    | .usageUpdated => "usage-updated"
    | .costUpdated => "cost-updated"
    | .budgetUpdated => "budget-updated"
    | .validationUpdated => "validation-updated"
    | .graphSnapshot => "graph-snapshot"
    | .graphPatch => "graph-patch"
    | .checkpointCreated => "checkpoint-created"
    | .recoveryRequired => "recovery-required"
    | .error => "error"
    | .changeAcceptanceUpdated => "change-acceptance-updated"
    | .taskProjectionInvalidated => "task-projection-invalidated"

/-! ### Payload types -/

/-- A committed change of an entity whose replacement has to be loaded as a snapshot. -/
structure TaskProjectionInvalidated where
  entity : String
  revision : UInt64
deriving DecidableEq

/-- A piece of a message. -/
structure MessageDelta where
  messageID : MessageID
  redactedDelta : String
deriving DecidableEq

/-- A finished message. -/
structure MessageFinal where
  messageID : MessageID
  (role redactedBody : String)
deriving DecidableEq

/-- The initial thread projection. Legacy threads have no workspace. -/
structure ThreadCreated where
  workspaceID : Option WorkspaceID
  title : String
  archived : Bool
deriving DecidableEq

/-- A new title of a thread. -/
structure ThreadRenamed where
  (previousTitle title : String)
deriving DecidableEq

/-- Whether a thread is put away. -/
structure ThreadArchived where
  archived : Bool
deriving DecidableEq

/-- A revision of the plan. -/
structure Plan where
  revision : UInt64
  redactedSummary : String
deriving DecidableEq

/-- The state of a tool execution. -/
structure Tool where
  (executionID commandName state redactedSummary : String)
deriving DecidableEq

/-- The state of an approval request. -/
structure Approval where
  approvalID : ApprovalID
  state : OpenEnum ApprovalRequestState
  (scope redactedReason : String)
deriving DecidableEq

/-- A transition of the task. -/
structure TaskStateChanged where
  (source target : OpenEnum TaskState)
  approval : OpenEnum ApprovalRequestState
deriving DecidableEq

/-- The forecast of the task. -/
structure Forecast where
  range : ForecastRange
deriving DecidableEq

/-- The tokens used so far. -/
structure Usage where
  tokens : TokenUsage
deriving DecidableEq

/-- The cost so far, if known. -/
structure Cost where
  known : Bool
  value : Money := {}
deriving DecidableEq

/-- The position of the budget. -/
structure Budget where
  (hardLimit reserved actual : Money)
deriving DecidableEq

/-- The outcome of a validation. A stored snapshot has its text as bytes, and the JSON document of a
snapshot has the texts of its identities. -/
structure Validation (Text : Type := String) (ID : IDKind → Type := TypedID) where
  validationID : ID .validation
  state : OpenEnum ValidationState
  redactedSummary : Text
  (required acknowledged : Bool)
  diffRevision : UInt64

/-- A task graph or a patch of one, encoded. -/
structure Graph where
  revisionID : GraphRevisionID
  encodedChange : List UInt8
deriving DecidableEq

/-- A durable point of a task, with the same two parameters. -/
structure Checkpoint (Text : Type := String) (ID : IDKind → Type := TypedID) where
  checkpointID : ID .checkpoint
  taskRevision : UInt64
  planStep : Text

section

variable {Text : Type} {ID : IDKind → Type} [DecidableEq Text] [∀ kind, DecidableEq (ID kind)]

instance : DecidableEq (Validation Text ID)
  | .mk .., .mk .. => decidable_of_iff' _ (.of_eq (Validation.mk.injEq ..))

instance : DecidableEq (Checkpoint Text ID)
  | .mk .., .mk .. => decidable_of_iff' _ (.of_eq (Checkpoint.mk.injEq ..))

end

/-- The revisions a review or a recovery is bound to. -/
structure RevisionBindings where
  (diff plan validation evidence graph : UInt64)
deriving DecidableEq

/-- Are all revisions set? -/
def RevisionBindings.complete (bindings : RevisionBindings) : Bool :=
  bindings.diff > 0 && bindings.plan > 0 && bindings.validation > 0 && bindings.evidence > 0 &&
    bindings.graph > 0

/-- The state of a review of bound revisions. -/
structure ChangeAcceptance where
  state : OpenEnum ChangeAcceptanceState
  bindings : RevisionBindings
deriving DecidableEq

/-- What a recovery may do. -/
inductive RecoveryClassification
  | safeResume | needsReconcile | preserveOnly | ambiguousOutcome
deriving DecidableEq

instance : Declared RecoveryClassification where
  all := [.safeResume, .needsReconcile, .preserveOnly, .ambiguousOutcome]
  text
    | .safeResume => "safe-resume"
    | .needsReconcile => "needs-reconcile"
    | .preserveOnly => "preserve-only"
    | .ambiguousOutcome => "ambiguous-outcome"

/-- A run that needs recovery. -/
structure RecoveryRequired where
  checkpointID : Option CheckpointID
  redactedReason : String
  classification : OpenEnum RecoveryClassification
  divergenceSummary : String
  (externalOutcomeAmbiguous safeResumeVerified reconcileAvailable preservePatchAvailable : Bool)
  bindings : RevisionBindings
  relatedEventIDs : List EventID
  relatedFiles : List String
deriving DecidableEq

/-- A failure class that can be shown to the user. -/
inductive ErrorCode
  | invalidRequest | conflict | permissionDenied | budgetExhausted | provider | validation
  | recoveryRequired | internal
deriving DecidableEq

instance : Declared ErrorCode where
  all := [.invalidRequest, .conflict, .permissionDenied, .budgetExhausted, .provider,
    .validation, .recoveryRequired, .internal]
  text
    | .invalidRequest => "invalid-request"
    | .conflict => "conflict"
    | .permissionDenied => "permission-denied"
    | .budgetExhausted => "budget-exhausted"
    | .provider => "provider-failure"
    | .validation => "validation-failure"
    | .recoveryRequired => "recovery-required"
    | .internal => "internal"

/-- An error shown to the user. -/
structure UserError where
  code : OpenEnum ErrorCode
  redactedMessage : String
  retryable : Bool
deriving DecidableEq

/-! ### The payload -/

/-- A typed one-of: exactly the field that the kind selects has to be set. -/
structure Payload where
  messageDelta : Option MessageDelta := none
  messageFinal : Option MessageFinal := none
  threadCreated : Option ThreadCreated := none
  threadRenamed : Option ThreadRenamed := none
  threadArchived : Option ThreadArchived := none
  plan : Option Plan := none
  tool : Option Tool := none
  approval : Option Approval := none
  taskStateChanged : Option TaskStateChanged := none
  forecast : Option Forecast := none
  usage : Option Usage := none
  cost : Option Cost := none
  budget : Option Budget := none
  validation : Option Validation := none
  graph : Option Graph := none
  checkpoint : Option Checkpoint := none
  recoveryRequired : Option RecoveryRequired := none
  changeAcceptance : Option ChangeAcceptance := none
  taskProjectionInvalidated : Option TaskProjectionInvalidated := none
  error : Option UserError := none
deriving DecidableEq

namespace Payload

/-- Which fields are set, in the order of declaration. -/
def present (payload : Payload) : List Bool :=
  [ payload.messageDelta.isSome, payload.messageFinal.isSome, payload.threadCreated.isSome,
    payload.threadRenamed.isSome, payload.threadArchived.isSome, payload.plan.isSome,
    payload.tool.isSome, payload.approval.isSome, payload.taskStateChanged.isSome,
    payload.forecast.isSome, payload.usage.isSome, payload.cost.isSome, payload.budget.isSome,
    payload.validation.isSome, payload.graph.isSome, payload.checkpoint.isSome,
    payload.recoveryRequired.isSome, payload.changeAcceptance.isSome,
    payload.taskProjectionInvalidated.isSome, payload.error.isSome]

/-- The number of fields that are set. -/
def count (payload : Payload) : Nat := payload.present.count true

/-- A set field of one payload is the same in another. -/
def Agrees {α : Type} (x y : Option α) : Prop := x = none ∨ x = y

/-- Every field set in `p` has the same value in `q`. -/
def Extends (q p : Payload) : Prop :=
  Agrees p.messageDelta q.messageDelta ∧ Agrees p.messageFinal q.messageFinal ∧
  Agrees p.threadCreated q.threadCreated ∧ Agrees p.threadRenamed q.threadRenamed ∧
  Agrees p.threadArchived q.threadArchived ∧ Agrees p.plan q.plan ∧ Agrees p.tool q.tool ∧
  Agrees p.approval q.approval ∧ Agrees p.taskStateChanged q.taskStateChanged ∧
  Agrees p.forecast q.forecast ∧ Agrees p.usage q.usage ∧ Agrees p.cost q.cost ∧
  Agrees p.budget q.budget ∧ Agrees p.validation q.validation ∧ Agrees p.graph q.graph ∧
  Agrees p.checkpoint q.checkpoint ∧ Agrees p.recoveryRequired q.recoveryRequired ∧
  Agrees p.changeAcceptance q.changeAcceptance ∧
  Agrees p.taskProjectionInvalidated q.taskProjectionInvalidated ∧ Agrees p.error q.error

theorem Agrees.isSome_imp {α : Type} {x y : Option α} (h : Agrees x y) :
    x.isSome = true → y.isSome = true := by
  rcases h with rfl | rfl
  · exact fun hx => absurd hx Bool.false_ne_true
  · exact id

theorem Agrees.eq_of_isSome {α : Type} {x y : Option α} (h : Agrees x y)
    (hsome : x.isSome = y.isSome) : x = y := by
  rcases h with rfl | rfl
  · exact (Option.isSome_eq_false_iff.1 hsome.symm |> Option.isNone_iff_eq_none.1).symm
  · rfl

/-- Each flag of one list is set in the other. -/
abbrev FlagsBelow (xs ys : List Bool) : Prop := List.Forall₂ (fun x y => x = true → y = true) xs ys

theorem FlagsBelow.count_le {xs ys : List Bool} (h : FlagsBelow xs ys) :
    xs.count true ≤ ys.count true := by
  induction h with
  | nil => exact Nat.le_refl _
  | @cons x y xs ys hxy _ ih =>
    cases x with
    | false =>
      exact Nat.le_trans ih List.count_le_count_cons
    | true =>
      rw [hxy rfl, List.count_cons_self, List.count_cons_self]
      exact Nat.succ_le_succ ih

theorem FlagsBelow.eq_of_count {xs ys : List Bool} (h : FlagsBelow xs ys)
    (hcount : ys.count true ≤ xs.count true) : xs = ys := by
  induction h with
  | nil => rfl
  | @cons x y xs ys hxy htail ih =>
    have hle := FlagsBelow.count_le htail
    cases x with
    | true =>
      rw [hxy rfl, List.count_cons_self, List.count_cons_self] at hcount
      rw [hxy rfl, ih (by omega)]
    | false =>
      cases y with
      | false =>
        rw [ih hcount]
      | true =>
        rw [List.count_cons_self, List.count_cons_of_ne (by decide)] at hcount
        omega

theorem Extends.present_below {p q : Payload} (h : q.Extends p) :
    FlagsBelow p.present q.present := by
  obtain ⟨h1, h2, h3, h4, h5, h6, h7, h8, h9, h10, h11, h12, h13, h14, h15, h16, h17, h18, h19,
    h20⟩ := h
  exact .cons h1.isSome_imp <| .cons h2.isSome_imp <| .cons h3.isSome_imp <| .cons h4.isSome_imp <|
    .cons h5.isSome_imp <| .cons h6.isSome_imp <| .cons h7.isSome_imp <| .cons h8.isSome_imp <|
    .cons h9.isSome_imp <| .cons h10.isSome_imp <| .cons h11.isSome_imp <| .cons h12.isSome_imp <|
    .cons h13.isSome_imp <| .cons h14.isSome_imp <| .cons h15.isSome_imp <| .cons h16.isSome_imp <|
    .cons h17.isSome_imp <| .cons h18.isSome_imp <| .cons h19.isSome_imp <|
    .cons h20.isSome_imp .nil

/-- A payload that extends another one and has no more fields set is the same payload. -/
theorem eq_of_extends {p q : Payload} (h : q.Extends p) (hcount : q.count ≤ p.count) : p = q := by
  have hpresent := h.present_below.eq_of_count hcount
  obtain ⟨h1, h2, h3, h4, h5, h6, h7, h8, h9, h10, h11, h12, h13, h14, h15, h16, h17, h18, h19,
    h20⟩ := h
  simp only [present, List.cons.injEq, and_true] at hpresent
  obtain ⟨e1, e2, e3, e4, e5, e6, e7, e8, e9, e10, e11, e12, e13, e14, e15, e16, e17, e18, e19,
    e20⟩ := hpresent
  cases p
  cases q
  simp only [mk.injEq]
  exact ⟨h1.eq_of_isSome e1, h2.eq_of_isSome e2, h3.eq_of_isSome e3, h4.eq_of_isSome e4,
    h5.eq_of_isSome e5, h6.eq_of_isSome e6, h7.eq_of_isSome e7, h8.eq_of_isSome e8,
    h9.eq_of_isSome e9, h10.eq_of_isSome e10, h11.eq_of_isSome e11, h12.eq_of_isSome e12,
    h13.eq_of_isSome e13, h14.eq_of_isSome e14, h15.eq_of_isSome e15, h16.eq_of_isSome e16,
    h17.eq_of_isSome e17, h18.eq_of_isSome e18, h19.eq_of_isSome e19, h20.eq_of_isSome e20⟩

end Payload

/-! ### Checks on the payload -/

/-- Check a message delta. -/
def validateMessageDelta (value : Option MessageDelta) : Result Unit :=
  ensure (value.any fun v => !v.messageID.isZero && v.redactedDelta != "")
    (.new "message delta is incomplete")

/-- Check a final message. -/
def validateMessageFinal (value : Option MessageFinal) : Result Unit :=
  ensure (value.any fun v => !v.messageID.isZero && trimSpace v.role != "")
    (.new "message final is incomplete")

/-- Check a new thread. -/
def validateThreadCreated (value : Option ThreadCreated) : Result Unit :=
  ensure (value.any fun v => trimSpace v.title != "" && v.workspaceID.all (!·.isZero))
    (.new "thread creation is incomplete")

/-- Check a renaming. -/
def validateThreadRenamed (value : Option ThreadRenamed) : Result Unit :=
  ensure (value.any fun v => trimSpace v.previousTitle != "" && trimSpace v.title != "")
    (.new "thread rename is incomplete")

/-- Check an archiving. -/
def validateThreadArchived (value : Option ThreadArchived) : Result Unit :=
  ensure value.isSome (.new "thread archive payload is missing")

/-- Check a plan. -/
def validatePlan (value : Option Plan) : Result Unit :=
  ensure (value.any fun v => v.revision != 0 && trimSpace v.redactedSummary != "")
    (.new "plan is incomplete")

/-- Check a tool update. -/
def validateTool (value : Option Tool) : Result Unit :=
  ensure (value.any fun v =>
      trimSpace v.executionID != "" && trimSpace v.commandName != "" && trimSpace v.state != "")
    (.new "tool event is incomplete")

/-- Check an approval. -/
def validateApproval (value : Option Approval) : Result Unit :=
  ensure (value.any fun v => !v.approvalID.isZero && v.state.isValid && trimSpace v.scope != "")
    (.new "approval event is incomplete")

/-- Check a task transition. -/
def validateTaskState : Option TaskStateChanged → Result Unit
  | none => .error (.new "task state payload is missing")
  | some v => validateTaskTransition ⟨v.source, v.target, v.approval⟩

/-- Check a forecast. -/
def validateForecast : Option Forecast → Result Unit
  | none => .error (.new "forecast payload is missing")
  | some v => v.range.validate

/-- Check a usage. -/
def validateUsage : Option Usage → Result Unit
  | none => .error (.new "usage payload is missing")
  | some v => v.tokens.validate

/-- Check a cost. -/
def validateCost : Option Cost → Result Unit
  | none => .error (.new "cost payload is missing")
  | some v =>
    if v.known then
      ensure (v.value.validate = .ok () ∧ 0 ≤ v.value.minorUnits) (.new "known cost is invalid")
    else
      ensure (v.value = {}) (.new "unknown cost must not contain a value")

/-- Check a budget. -/
def validateBudget (value : Option Budget) : Result Unit :=
  ensure (value.any fun v =>
      decide (v.hardLimit.validate = .ok ()) && decide (v.reserved.validate = .ok ()) &&
      decide (v.actual.validate = .ok ()) && v.hardLimit.currency == v.reserved.currency &&
      v.hardLimit.currency == v.actual.currency && decide (0 ≤ v.hardLimit.minorUnits) &&
      decide (0 ≤ v.reserved.minorUnits) && decide (0 ≤ v.actual.minorUnits) &&
      decide (v.actual.minorUnits ≤ v.hardLimit.minorUnits) &&
      decide (v.reserved.minorUnits ≤ v.hardLimit.minorUnits - v.actual.minorUnits))
    (.new "budget payload is invalid")

/-- Check a validation. -/
def validateValidation {Text : Type} (value : Option (Validation Text)) : Result Unit :=
  ensure (value.any fun v => !v.validationID.isZero && v.state.isValid && v.diffRevision != 0)
    (.new "validation payload is incomplete")

/-- Check a graph payload. -/
def validateGraph (value : Option Graph) : Result Unit :=
  ensure (value.any fun v => !v.revisionID.isZero && !v.encodedChange.isEmpty)
    (.new "graph payload is incomplete")

/-- Check a checkpoint. -/
def validateCheckpoint {Text : Type} [GoText Text] (value : Option (Checkpoint Text)) :
    Result Unit :=
  ensure (value.any fun v =>
      !v.checkpointID.isZero && v.taskRevision != 0 && !GoText.isBlank v.planStep)
    (.new "checkpoint payload is incomplete")

/-- Check an acceptance. -/
def validateChangeAcceptance (value : Option ChangeAcceptance) : Result Unit :=
  ensure (value.any fun v => v.state.isValid && v.bindings.complete)
    (.new "change acceptance payload is incomplete")

/-- Check a recovery. -/
def validateRecovery : Option RecoveryRequired → Result Unit
  | none => .error (.new "recovery payload is incomplete")
  | some v => do
    ensure (trimSpace v.redactedReason ≠ "" ∧ v.checkpointID.all (!·.isZero) ∧
        v.classification.isValid ∧ trimSpace v.divergenceSummary ≠ "" ∧ v.bindings.complete ∧
        v.externalOutcomeAmbiguous =
          decide (v.classification = RecoveryClassification.ambiguousOutcome))
      (.new "recovery payload is incomplete")
    ensure (v.classification = RecoveryClassification.safeResume → v.safeResumeVerified)
      (.new "safe-resume recovery is not verified")
    ensure (v.classification = RecoveryClassification.needsReconcile → v.reconcileAvailable)
      (.new "reconcile recovery has no reconcile action")
    ensure (v.classification = RecoveryClassification.preserveOnly ∨
        v.classification = RecoveryClassification.ambiguousOutcome → v.preservePatchAvailable)
      (.new "unsafe recovery has no patch preservation action")
    ensure (∀ eventID ∈ v.relatedEventIDs, eventID.isZero = false)
      (.new "recovery related event ID is empty")
    ensure (∀ path ∈ v.relatedFiles, trimSpace path ≠ "")
      (.new "recovery related file is empty")

/-- Check an invalidation. -/
def validateTaskProjectionInvalidated (value : Option TaskProjectionInvalidated) : Result Unit :=
  ensure (value.any fun v => trimSpace v.entity != "" && v.entity == trimSpace v.entity)
    (.new "task projection invalidation is incomplete")

/-- Check a user error. -/
def validateUserError (value : Option UserError) : Result Unit :=
  ensure (value.any fun v => v.code.isValid && trimSpace v.redactedMessage != "")
    (.new "user error payload is incomplete")

/-- The check that a kind makes on the payload field it selects. -/
def validatePayload (payload : Payload) : OpenEnum Kind → Result Unit
  | .declared .messageDelta => validateMessageDelta payload.messageDelta
  | .declared .messageFinal => validateMessageFinal payload.messageFinal
  | .declared .threadCreated => validateThreadCreated payload.threadCreated
  | .declared .threadRenamed => validateThreadRenamed payload.threadRenamed
  | .declared .threadArchived => validateThreadArchived payload.threadArchived
  | .declared .planCreated | .declared .planChanged => validatePlan payload.plan
  | .declared .toolStarted | .declared .toolProgress | .declared .toolCompleted =>
    validateTool payload.tool
  | .declared .approvalRequested | .declared .approvalResolved =>
    validateApproval payload.approval
  | .declared .taskStateChanged => validateTaskState payload.taskStateChanged
  | .declared .forecastUpdated => validateForecast payload.forecast
  | .declared .usageUpdated => validateUsage payload.usage
  | .declared .costUpdated => validateCost payload.cost
  | .declared .budgetUpdated => validateBudget payload.budget
  | .declared .validationUpdated => validateValidation payload.validation
  | .declared .graphSnapshot | .declared .graphPatch => validateGraph payload.graph
  | .declared .checkpointCreated => validateCheckpoint payload.checkpoint
  | .declared .recoveryRequired => validateRecovery payload.recoveryRequired
  | .declared .changeAcceptanceUpdated => validateChangeAcceptance payload.changeAcceptance
  | .declared .taskProjectionInvalidated =>
    validateTaskProjectionInvalidated payload.taskProjectionInvalidated
  | .declared .error => validateUserError payload.error
  | .undeclared _ _ => .error (.new "event kind is invalid")

end Codeflux.Events
