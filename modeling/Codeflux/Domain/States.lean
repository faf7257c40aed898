import Codeflux.Library.OpenEnum
import Codeflux.Domain.Failure

/-!
# State machines of the domain

Each machine has a set of declared states and a table of permitted transitions. The source's states
are strings, so a state read from an event need not be a declared one; a transition is checked for
that first.
-/

namespace Codeflux.Domain

open Library

/-- A state is not declared. -/
def errUnknownState : Failure := .new "unknown state"
/-- The transition is not permitted. -/
def errInvalidTransition : Failure := .new "invalid state transition"
/-- An approval is missing. -/
def errApprovalRequired : Failure := .new "granted approval required"

/-- A change of state that the table of its machine has. -/
def validateTransition {S : Type} [DecidableEq S] [Declared S] (machine : String)
    (source target : OpenEnum S) (table : List (S × S)) : Result Unit :=
  match source, target with
  | .declared a, .declared b =>
    ensure ((a, b) ∈ table)
      (.transition machine source.toText target.toText errInvalidTransition)
  | _, _ => .error (.transition machine source.toText target.toText errUnknownState)

theorem validateTransition_ok_iff {S : Type} [DecidableEq S] [Declared S] {machine : String}
    {source target : OpenEnum S} {table : List (S × S)} {u : Unit} :
    validateTransition machine source target table = .ok u ↔
      ∃ a b, source = .declared a ∧ target = .declared b ∧ (a, b) ∈ table := by
  cases source with
  | undeclared raw h => simp [validateTransition]
  | declared a =>
    cases target with
    | undeclared raw h | declared b => simp [validateTransition]

/-! ### Approval requests -/

/-- The states of a user authority request. -/
inductive ApprovalRequestState
  | pending | granted | denied | expired | cancelled
deriving DecidableEq

instance : Declared ApprovalRequestState where
  all := [.pending, .granted, .denied, .expired, .cancelled]
  text
    | .pending => "pending"
    | .granted => "granted"
    | .denied => "denied"
    | .expired => "expired"
    | .cancelled => "cancelled"

/-- The transitions of an approval request. -/
def approvalRequestTransitions : List (ApprovalRequestState × ApprovalRequestState) :=
  [(.pending, .granted), (.pending, .denied), (.pending, .expired), (.pending, .cancelled)]

/-- Check such a transition. -/
def validateApprovalRequestTransition (source target : OpenEnum ApprovalRequestState) :
    Result Unit :=
  validateTransition "approval request" source target approvalRequestTransitions

/-! ### Command executions -/

/-- One mediated tool action, independently from a run. -/
inductive CommandExecutionState
  | pending | awaitingAuthority | authorized | running | succeeded | failed | cancelled
  | outcomeUnknown
deriving DecidableEq

instance : Declared CommandExecutionState where
  all := [.pending, .awaitingAuthority, .authorized, .running, .succeeded, .failed, .cancelled,
    .outcomeUnknown]
  text
    | .pending => "pending"
    | .awaitingAuthority => "awaiting-authority"
    | .authorized => "authorized"
    | .running => "running"
    | .succeeded => "succeeded"
    | .failed => "failed"
    | .cancelled => "cancelled"
    | .outcomeUnknown => "outcome-unknown"

/-- The transitions of a command. -/
def commandExecutionTransitions : List (CommandExecutionState × CommandExecutionState) :=
  [(.pending, .awaitingAuthority), (.pending, .authorized), (.pending, .cancelled),
   (.awaitingAuthority, .authorized), (.awaitingAuthority, .cancelled),
   (.authorized, .running), (.authorized, .cancelled),
   (.running, .succeeded), (.running, .failed), (.running, .cancelled),
   (.running, .outcomeUnknown),
   (.outcomeUnknown, .succeeded), (.outcomeUnknown, .failed), (.outcomeUnknown, .cancelled)]

/-- Is the action over? One with an unknown outcome is not. -/
def CommandExecutionState.isTerminal : OpenEnum CommandExecutionState → Bool
  | .declared .succeeded | .declared .failed | .declared .cancelled => true
  | _ => false

/-- A change of a mediated action with the approval evidence it was made under. -/
structure CommandExecutionTransition where
  (source target : OpenEnum CommandExecutionState)
  approval : OpenEnum ApprovalRequestState

/-- Check such a transition. -/
def validateCommandExecutionTransition (change : CommandExecutionTransition) : Result Unit := do
  validateTransition "command execution" change.source change.target commandExecutionTransitions
  ensure (¬(change.source = CommandExecutionState.awaitingAuthority ∧
      change.target = CommandExecutionState.authorized ∧
      change.approval ≠ ApprovalRequestState.granted))
    (.transition "command execution" change.source.toText change.target.toText errApprovalRequired)

/-! ### Tasks -/

/-- The durable lifecycle of a user task. -/
inductive TaskState
  | draft | forecasting | awaitingPlanApproval | ready | running | paused | awaitingAuthority
  | validating | awaitingReview | completed | failed | cancelled | rolledBack | recoveryRequired
deriving DecidableEq

instance : Declared TaskState where
  all := [.draft, .forecasting, .awaitingPlanApproval, .ready, .running, .paused,
    .awaitingAuthority, .validating, .awaitingReview, .completed, .failed, .cancelled,
    .rolledBack, .recoveryRequired]
  text
    | .draft => "draft"
    | .forecasting => "forecasting"
    | .awaitingPlanApproval => "awaiting-plan-approval"
    | .ready => "ready"
    | .running => "running"
    | .paused => "paused"
    | .awaitingAuthority => "awaiting-authority"
    | .validating => "validating"
    | .awaitingReview => "awaiting-review"
    | .completed => "completed"
    | .failed => "failed"
    | .cancelled => "cancelled"
    | .rolledBack => "rolled-back"
    | .recoveryRequired => "recovery-required"

/-- The transitions of a task. -/
def taskTransitions : List (TaskState × TaskState) :=
  [(.draft, .forecasting), (.draft, .cancelled),
   (.forecasting, .awaitingPlanApproval), (.forecasting, .paused), (.forecasting, .failed),
   (.forecasting, .cancelled),
   (.awaitingPlanApproval, .forecasting), (.awaitingPlanApproval, .ready),
   (.awaitingPlanApproval, .cancelled),
   (.ready, .running), (.ready, .paused), (.ready, .cancelled), (.ready, .recoveryRequired),
   (.running, .paused), (.running, .awaitingAuthority), (.running, .validating),
   (.running, .failed), (.running, .cancelled), (.running, .recoveryRequired),
   (.paused, .forecasting), (.paused, .ready), (.paused, .running), (.paused, .cancelled),
   (.paused, .recoveryRequired),
   (.awaitingAuthority, .running), (.awaitingAuthority, .paused),
   (.awaitingAuthority, .cancelled), (.awaitingAuthority, .recoveryRequired),
   (.validating, .running), (.validating, .awaitingReview), (.validating, .failed),
   (.validating, .cancelled), (.validating, .recoveryRequired),
   (.awaitingReview, .running), (.awaitingReview, .completed), (.awaitingReview, .cancelled),
   (.awaitingReview, .rolledBack),
   (.completed, .rolledBack),
   (.failed, .ready), (.failed, .cancelled), (.failed, .recoveryRequired),
   (.recoveryRequired, .paused), (.recoveryRequired, .ready), (.recoveryRequired, .failed),
   (.recoveryRequired, .cancelled), (.recoveryRequired, .rolledBack)]

/-- A change of task state with the approval evidence it was made under. -/
structure TaskTransition where
  (source target : OpenEnum TaskState)
  approval : OpenEnum ApprovalRequestState

/-- Check such a transition. -/
def validateTaskTransition (change : TaskTransition) : Result Unit := do
  validateTransition "task" change.source change.target taskTransitions
  ensure (¬(change.source = TaskState.awaitingAuthority ∧ change.target = TaskState.running ∧
      change.approval ≠ ApprovalRequestState.granted))
    (.transition "task" change.source.toText change.target.toText errApprovalRequired)

theorem validateTaskTransition_ok_iff {change : TaskTransition} {u : Unit} :
    validateTaskTransition change = .ok u ↔
      (∃ a b, change.source = .declared a ∧ change.target = .declared b ∧
        (a, b) ∈ taskTransitions) ∧
      (change.source = TaskState.awaitingAuthority → change.target = TaskState.running →
        change.approval = ApprovalRequestState.granted) := by
  simp [validateTaskTransition, validateTransition_ok_iff]

/-! ### Validations -/

/-- One required or advisory validation execution. -/
inductive ValidationState
  | pending | running | passed | failed | waived | skipped | cancelled | invalidated
deriving DecidableEq

instance : Declared ValidationState where
  all := [.pending, .running, .passed, .failed, .waived, .skipped, .cancelled, .invalidated]
  text
    | .pending => "pending"
    | .running => "running"
    | .passed => "passed"
    | .failed => "failed"
    | .waived => "waived"
    | .skipped => "skipped"
    | .cancelled => "cancelled"
    | .invalidated => "invalidated"

/-- The transitions of a validation. -/
def validationTransitions : List (ValidationState × ValidationState) :=
  [(.pending, .running), (.pending, .waived), (.pending, .skipped), (.pending, .cancelled),
   (.running, .passed), (.running, .failed), (.running, .cancelled),
   (.passed, .invalidated), (.failed, .invalidated), (.waived, .invalidated),
   (.skipped, .invalidated)]

/-- Is the validation over? Cancelled ones are, too. -/
def ValidationState.isTerminal : OpenEnum ValidationState → Bool
  | .declared .pending | .declared .running | .undeclared _ _ => false
  | .declared _ => true

/-- Check such a transition. -/
def validateValidationTransition (source target : OpenEnum ValidationState) : Result Unit :=
  validateTransition "validation" source target validationTransitions

/-! ### Change acceptance -/

/-- The user's decision about a reviewed change. -/
inductive ChangeAcceptanceState
  | pending | accepted | repairRequested | rejected | rolledBack
deriving DecidableEq

instance : Declared ChangeAcceptanceState where
  all := [.pending, .accepted, .repairRequested, .rejected, .rolledBack]
  text
    | .pending => "pending"
    | .accepted => "accepted"
    | .repairRequested => "repair-requested"
    | .rejected => "rejected"
    | .rolledBack => "rolled-back"

/-- The transitions of a review. -/
def changeAcceptanceTransitions : List (ChangeAcceptanceState × ChangeAcceptanceState) :=
  [(.pending, .accepted), (.pending, .repairRequested), (.pending, .rejected),
   (.repairRequested, .pending), (.accepted, .rolledBack)]

/-- Check such a transition. -/
def validateChangeAcceptanceTransition (source target : OpenEnum ChangeAcceptanceState) :
    Result Unit :=
  validateTransition "change acceptance" source target changeAcceptanceTransitions

end Codeflux.Domain
