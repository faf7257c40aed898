import Codeflux.Transport.Wire
import Codeflux.Events.Session

/-!
# Session events at the client

The browser client's conversion of a wire message into a validated session event.
-/

namespace Codeflux.SessionClient

open Library Go Domain Events Transport

/-- The error of every malformed message. -/
def errInvalidSessionEvent : Failure := .new "invalid session event"

/-! ### Identities -/

/-- The text of an identity of the given kind. -/
def parseIdentity (identity : Option StableIdentity) (kind : StableIdentityKind) : Result String :=
  match identity with
  | none => .error errInvalidSessionEvent
  | some identity => do
    ensure (identity.kind = kind ∧ identity.value ≠ "") errInvalidSessionEvent
    return identity.value

/-- The body that the typed parsers share. -/
def parseTypedIdentity (kind : IDKind) (want : StableIdentityKind)
    (value : Option StableIdentity) : Result (TypedID kind) := do
  let raw ← parseIdentity value want
  parseTypedID kind raw

/-- Decode a session. -/
def parseSessionIdentity : Option StableIdentity → Result SessionID :=
  parseTypedIdentity .session .session

/-- Decode a thread. -/
def parseThreadIdentity : Option StableIdentity → Result ThreadID :=
  parseTypedIdentity .thread .thread

/-- Decode a task. -/
def parseTaskIdentity : Option StableIdentity → Result TaskID :=
  parseTypedIdentity .task .task

/-- Decode an event's identity. -/
def parseEventIdentity : Option StableIdentity → Result EventID :=
  parseTypedIdentity .event .event

/-- Decode a workspace. -/
def parseWorkspaceIdentity : Option StableIdentity → Result WorkspaceID :=
  parseTypedIdentity .workspace .workspace

/-- Decode a message. -/
def parseMessageIdentity : Option StableIdentity → Result MessageID :=
  parseTypedIdentity .message .message

/-- Decode an approval's identity. -/
def parseApprovalIdentity : Option StableIdentity → Result ApprovalID :=
  parseTypedIdentity .approval .approval

/-- Decode a validation's identity. -/
def parseValidationIdentity : Option StableIdentity → Result ValidationID :=
  parseTypedIdentity .validation .validation

/-- Decode a graph revision. -/
def parseGraphRevisionIdentity : Option StableIdentity → Result GraphRevisionID :=
  parseTypedIdentity .graphRevision .graphRevision

/-- Decode a checkpoint's identity. -/
def parseCheckpointIdentity : Option StableIdentity → Result CheckpointID :=
  parseTypedIdentity .checkpoint .checkpoint

/-- An identity that may be absent. -/
def parseOptional {α : Type} (parse : Option StableIdentity → Result α) :
    Option StableIdentity → Result (Option α)
  | none => .ok none
  | some identity => some <$> parse (some identity)

/-! ### Payloads -/

/-- Decode a message delta. -/
def decodeMessageDelta (payload : MessageDeltaEvent) : Result MessageDelta := do
  let messageID ← parseMessageIdentity payload.messageID
  return { payload with messageID }

/-- Decode a final message. -/
def decodeMessageFinal (payload : MessageFinalEvent) : Result MessageFinal := do
  let messageID ← parseMessageIdentity payload.messageID
  return { payload with messageID }

/-- Decode a new thread. -/
def decodeThreadCreated (payload : ThreadCreatedEvent) : Result ThreadCreated := do
  let workspaceID ← parseOptional parseWorkspaceIdentity payload.workspaceID
  return { payload with workspaceID }

/-- Decode a renaming. -/
def decodeThreadRenamed (payload : ThreadRenamedEvent) : Result ThreadRenamed :=
  .ok { payload with }

/-- Decode an archiving. -/
def decodeThreadArchived (payload : ThreadArchivedEvent) : Result ThreadArchived :=
  .ok { archived := payload.archived }

/-- Decode a plan. -/
def decodePlan (payload : PlanEvent) : Result Plan :=
  .ok { revision := payload.planRevision, redactedSummary := payload.redactedSummary }

/-- Decode a tool update. -/
def decodeTool (payload : ToolEvent) : Result Tool :=
  .ok { payload with }

/-- Decode an approval. -/
def decodeApproval (payload : ApprovalEvent) : Result Approval := do
  let approvalID ← parseApprovalIdentity payload.approvalID
  return { payload with approvalID, state := .ofText payload.state }

/-- Decode a task transition. -/
def decodeTaskStateChanged (payload : TaskStateChangedEvent) : Result TaskStateChanged :=
  .ok {
    source := .ofText payload.source
    target := .ofText payload.target
    approval := .ofText payload.approvalState }

/-- Decode a forecast. -/
def decodeForecast (payload : ForecastEvent) : Result Forecast := do
  let range : ForecastRange := { payload with
    latencyP50Millis := payload.latencyP50Ms
    latencyP90Millis := payload.latencyP90Ms }
  if payload.costKnown then
    let currency ← parseCurrencyCode payload.currency
    let costP50 ← newMoney currency payload.costP50Minor
    let costP90 ← newMoney currency payload.costP90Minor
    return { range := { range with costP50, costP90 } }
  else return { range }

/-- Decode a usage. -/
def decodeUsage (payload : UsageEvent) : Result Usage :=
  .ok {
    tokens := {
      known := payload.known
      input := payload.inputTokens
      cachedInput := payload.cachedInputTokens
      output := payload.outputTokens
      reasoning := payload.reasoningTokens } }

/-- Decode a cost. -/
def decodeCost (payload : CostEvent) : Result Cost := do
  if payload.known then
    let currency ← parseCurrencyCode payload.currency
    let value ← newMoney currency payload.minorUnits
    return { known := payload.known, value }
  else return { known := payload.known }

/-- Decode a budget. -/
def decodeBudget (payload : BudgetEvent) : Result Budget := do
  let currency ← parseCurrencyCode payload.currency
  let hardLimit ← newMoney currency payload.hardLimitMinor
  let reserved ← newMoney currency payload.reservedMinor
  let actual ← newMoney currency payload.actualMinor
  return { hardLimit, reserved, actual }

/-- Decode a validation. -/
def decodeValidation (payload : ValidationEvent) : Result Validation := do
  let validationID ← parseValidationIdentity payload.validationID
  return { payload with validationID, state := .ofText payload.state }

/-- Decode a graph payload. -/
def decodeGraph (payload : GraphEvent) : Result Graph := do
  let revisionID ← parseGraphRevisionIdentity payload.graphRevisionID
  return { revisionID, encodedChange := payload.encodedChange }

/-- Decode a checkpoint. -/
def decodeCheckpoint (payload : CheckpointEvent) : Result Checkpoint := do
  let checkpointID ← parseCheckpointIdentity payload.checkpointID
  return { payload with checkpointID }

/-- Decode a recovery. -/
def decodeRecoveryRequired (payload : RecoveryRequiredEvent) : Result RecoveryRequired := do
  let checkpointID ← parseOptional parseCheckpointIdentity payload.checkpointID
  let relatedEventIDs ← payload.relatedEventIDs.mapM (parseEventIdentity ∘ some)
  return { payload with
    checkpointID
    classification := .ofText payload.classification
    bindings := {
      diff := payload.diffRevision
      plan := payload.planRevision
      validation := payload.validationRevision
      evidence := payload.evidenceRevision
      graph := payload.graphRevision }
    relatedEventIDs }

/-- Decode an acceptance. -/
def decodeChangeAcceptance (payload : ChangeAcceptanceEvent) : Result ChangeAcceptance :=
  .ok {
    state := .ofText payload.state
    bindings := {
      diff := payload.diffRevision
      plan := payload.planRevision
      validation := payload.validationRevision
      evidence := payload.evidenceRevision
      graph := payload.graphRevision } }

/-- Decode an invalidation. -/
def decodeTaskProjectionInvalidated (payload : TaskProjectionInvalidatedEvent) :
    Result TaskProjectionInvalidated :=
  .ok { entity := payload.entity, revision := payload.entityRevision }

/-- Decode a user error. -/
def decodeUserError (payload : UserErrorEvent) : Result UserError :=
  .ok { payload with code := .ofText payload.code }

/-- The body of a case of `decodePayload`: a message without the payload of its kind is invalid. -/
def decodeAs {α β : Type} (message : Option β) (decode : β → Result α) (kind : Kind)
    (set : Option α → Payload) : Result (Kind × Payload) :=
  match message with
  | none => .error errInvalidSessionEvent
  | some payload => do
    let value ← decode payload
    return (kind, set (some value))

/-- The kind and the payload that a message carries. -/
def decodePayload (value : WireEvent) : Result (Kind × Payload) :=
  match value.kind with
  | .messageDelta =>
    decodeAs value.getMessageDelta decodeMessageDelta .messageDelta ({ messageDelta := · })
  | .messageFinal =>
    decodeAs value.getMessageFinal decodeMessageFinal .messageFinal ({ messageFinal := · })
  | .threadCreated =>
    decodeAs value.getThreadCreated decodeThreadCreated .threadCreated ({ threadCreated := · })
  | .threadRenamed =>
    decodeAs value.getThreadRenamed decodeThreadRenamed .threadRenamed ({ threadRenamed := · })
  | .threadArchived =>
    decodeAs value.getThreadArchived decodeThreadArchived .threadArchived ({ threadArchived := · })
  | .planCreated => decodeAs value.getPlan decodePlan .planCreated ({ plan := · })
  | .planChanged => decodeAs value.getPlan decodePlan .planChanged ({ plan := · })
  | .toolStarted => decodeAs value.getTool decodeTool .toolStarted ({ tool := · })
  | .toolProgress => decodeAs value.getTool decodeTool .toolProgress ({ tool := · })
  | .toolCompleted => decodeAs value.getTool decodeTool .toolCompleted ({ tool := · })
  | .approvalRequested =>
    decodeAs value.getApproval decodeApproval .approvalRequested ({ approval := · })
  | .approvalResolved =>
    decodeAs value.getApproval decodeApproval .approvalResolved ({ approval := · })
  | .taskStateChanged =>
    decodeAs value.getTaskStateChanged decodeTaskStateChanged .taskStateChanged
      ({ taskStateChanged := · })
  | .forecastUpdated =>
    decodeAs value.getForecast decodeForecast .forecastUpdated ({ forecast := · })
  | .usageUpdated => decodeAs value.getUsage decodeUsage .usageUpdated ({ usage := · })
  | .costUpdated => decodeAs value.getCost decodeCost .costUpdated ({ cost := · })
  | .budgetUpdated => decodeAs value.getBudget decodeBudget .budgetUpdated ({ budget := · })
  | .validationUpdated =>
    decodeAs value.getValidation decodeValidation .validationUpdated ({ validation := · })
  | .graphSnapshot => decodeAs value.getGraph decodeGraph .graphSnapshot ({ graph := · })
  | .graphPatch => decodeAs value.getGraph decodeGraph .graphPatch ({ graph := · })
  | .checkpointCreated =>
    decodeAs value.getCheckpoint decodeCheckpoint .checkpointCreated ({ checkpoint := · })
  | .recoveryRequired =>
    decodeAs value.getRecoveryRequired decodeRecoveryRequired .recoveryRequired
      ({ recoveryRequired := · })
  | .changeAcceptanceUpdated =>
    decodeAs value.getChangeAcceptance decodeChangeAcceptance .changeAcceptanceUpdated
      ({ changeAcceptance := · })
  | .taskProjectionInvalidated =>
    decodeAs value.getTaskProjectionInvalidated decodeTaskProjectionInvalidated
      .taskProjectionInvalidated ({ taskProjectionInvalidated := · })
  | .error => decodeAs value.getError decodeUserError .error ({ error := · })
  | .unspecified => .error errInvalidSessionEvent

/-- The checked event in a message. -/
def decodeEvent : Option WireEvent → Result SessionEvent
  | none => .error errInvalidSessionEvent
  | some value => do
    ensure (value.sequence ≠ 0 ∧ value.payloadVersion = 1) errInvalidSessionEvent
    let sessionID ← parseSessionIdentity value.sessionID
    let threadID ← parseThreadIdentity value.threadID
    let taskID ← parseOptional parseTaskIdentity value.taskID
    let causationID ← parseOptional parseEventIdentity value.causationID
    let correlationID ← parseOptional parseEventIdentity value.correlationID
    let (kind, payload) ← decodePayload value
    let event : NewSessionEvent :=
      { value with sessionID, threadID, taskID, kind, causationID, correlationID, payload }
    event.build value.sequence (ofUnixMicro value.timestampUnixMicros)

end Codeflux.SessionClient
