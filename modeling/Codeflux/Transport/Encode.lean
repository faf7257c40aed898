import Codeflux.Transport.Wire
import Codeflux.Events.Session

/-!
# Session events on the wire

The server's conversion of a validated session event into its wire message.
-/

namespace Codeflux.Transport

open Library Domain Events

/-- An identity cannot be converted. -/
def errInvalidIdentityConversion : Failure := .new "invalid identity conversion"

/-- The use of a nil pointer. A run of the source would end in a panic here. -/
def errNilDereference : Failure := .new "invalid memory address or nil pointer dereference"

/-- The value behind a pointer that the source does not check. -/
def dereference {α : Type} : Option α → Result α
  | some value => .ok value
  | none => .error errNilDereference

/-! ### Identities -/

section Identities

variable {kind : IDKind}

/-- The message of an identity. -/
def identityToProto (identity : TypedID kind) (want : StableIdentityKind) :
    Result StableIdentity := do
  ensure (identity.isZero = false) (.detail errInvalidIdentityConversion "domain identity is empty")
  return { kind := want, value := identity.value }

/-- The identity in a message. -/
def identityFromProto (message : Option StableIdentity) (want : StableIdentityKind) :
    Result (TypedID kind) :=
  match message with
  | none => .error (.detail errInvalidIdentityConversion "protobuf identity is nil")
  | some message => do
    ensure (message.kind = want) (.detail errInvalidIdentityConversion
      ("protobuf kind is " ++ message.kind.name ++ ", want " ++ want.name))
    (parseTypedID kind message.value).mapError (.classified errInvalidIdentityConversion)

/-- A workspace's message. -/
def workspaceIDToProto (value : WorkspaceID) := identityToProto value .workspace
/-- A session's message. -/
def sessionIDToProto (value : SessionID) := identityToProto value .session
/-- A thread's message. -/
def threadIDToProto (value : ThreadID) := identityToProto value .thread
/-- A message's message. -/
def messageIDToProto (value : MessageID) := identityToProto value .message
/-- A task's message. -/
def taskIDToProto (value : TaskID) := identityToProto value .task
/-- An event's message. -/
def eventIDToProto (value : EventID) := identityToProto value .event
/-- A checkpoint's message. -/
def checkpointIDToProto (value : CheckpointID) := identityToProto value .checkpoint
/-- An approval's message. -/
def approvalIDToProto (value : ApprovalID) := identityToProto value .approval
/-- A graph revision's message. -/
def graphRevisionIDToProto (value : GraphRevisionID) := identityToProto value .graphRevision
/-- A validation's message. -/
def validationIDToProto (value : ValidationID) := identityToProto value .validation

/-- The session in a message. -/
def sessionIDFromProto (value : Option StableIdentity) : Result SessionID :=
  identityFromProto value .session

variable {identity : TypedID kind}

theorem identityToProto_ok (h : identity.isZero = false) (want : StableIdentityKind) :
    identityToProto identity want = .ok { kind := want, value := identity.value } := by
  rw [identityToProto, ensure_of h, ok_bind]
  rfl

theorem identityFromProto_ok (h : identity.isZero = false) (want : StableIdentityKind) :
    identityFromProto (some { kind := want, value := identity.value }) want = .ok identity := by
  rw [identityFromProto]
  simp [ensure_of, parseTypedID_value identity h]

end Identities

/-- An optional identity: nil stays nil. -/
def optionalToProto {α β : Type} (convert : α → Result β) : Option α → Result (Option β)
  | none => .ok none
  | some value => some <$> convert value

/-! ### Payloads -/

/-- Encode a message delta. -/
def messageDeltaToProto (value : MessageDelta) : Result MessageDeltaEvent := do
  let messageID ← messageIDToProto value.messageID
  return { value with messageID }

/-- Encode a final message. -/
def messageFinalToProto (value : MessageFinal) : Result MessageFinalEvent := do
  let messageID ← messageIDToProto value.messageID
  return { value with messageID }

/-- Encode a new thread. -/
def threadCreatedToProto (value : ThreadCreated) : Result ThreadCreatedEvent := do
  let workspaceID ← optionalToProto workspaceIDToProto value.workspaceID
  return { value with workspaceID }

/-- Encode a renaming. -/
def threadRenamedToProto (value : ThreadRenamed) : Result ThreadRenamedEvent :=
  .ok { value with }

/-- Encode an archiving. -/
def threadArchivedToProto (value : ThreadArchived) : Result ThreadArchivedEvent :=
  .ok { archived := value.archived }

/-- Encode a plan. -/
def planToProto (value : Plan) : Result PlanEvent :=
  .ok { planRevision := value.revision, redactedSummary := value.redactedSummary }

/-- Encode a tool update. -/
def toolToProto (value : Tool) : Result ToolEvent :=
  .ok { value with }

/-- Encode an approval. -/
def approvalToProto (value : Approval) : Result ApprovalEvent := do
  let approvalID ← approvalIDToProto value.approvalID
  return { value with approvalID, state := value.state.toText }

/-- Encode a task transition. -/
def taskStateChangedToProto (value : TaskStateChanged) : Result TaskStateChangedEvent :=
  .ok {
    source := value.source.toText
    target := value.target.toText
    approvalState := value.approval.toText }

/-- Encode a forecast. -/
def forecastToProto (forecast : Forecast) : Result ForecastEvent :=
  let value := forecast.range
  let payload : ForecastEvent := { value with
    latencyP50Ms := value.latencyP50Millis
    latencyP90Ms := value.latencyP90Millis }
  if value.costKnown then
    .ok { payload with
      costP50Minor := value.costP50.minorUnits
      costP90Minor := value.costP90.minorUnits
      currency := value.costP50.currency }
  else .ok payload

/-- Encode a usage. Two fields have no place in the message. -/
def usageToProto (usage : Usage) : Result UsageEvent :=
  .ok {
    known := usage.tokens.known
    inputTokens := usage.tokens.input
    cachedInputTokens := usage.tokens.cachedInput
    outputTokens := usage.tokens.output
    reasoningTokens := usage.tokens.reasoning }

/-- Encode a cost. -/
def costToProto (value : Cost) : Result CostEvent :=
  if value.known then
    .ok {
      known := value.known
      minorUnits := value.value.minorUnits
      currency := value.value.currency }
  else .ok { known := value.known }

/-- Encode a budget. -/
def budgetToProto (value : Budget) : Result BudgetEvent :=
  .ok {
    hardLimitMinor := value.hardLimit.minorUnits
    reservedMinor := value.reserved.minorUnits
    actualMinor := value.actual.minorUnits
    currency := value.hardLimit.currency }

/-- Encode a validation. -/
def validationToProto (value : Validation) : Result ValidationEvent := do
  let validationID ← validationIDToProto value.validationID
  return { value with validationID, state := value.state.toText }

/-- Encode a graph payload. -/
def graphToProto (value : Graph) : Result GraphEvent := do
  let graphRevisionID ← graphRevisionIDToProto value.revisionID
  return { graphRevisionID, encodedChange := value.encodedChange }

/-- Encode a checkpoint. -/
def checkpointToProto (value : Checkpoint) : Result CheckpointEvent := do
  let checkpointID ← checkpointIDToProto value.checkpointID
  return { value with checkpointID }

/-- Encode a recovery. -/
def recoveryRequiredToProto (value : RecoveryRequired) : Result RecoveryRequiredEvent := do
  let checkpointID ← optionalToProto checkpointIDToProto value.checkpointID
  let relatedEventIDs ← value.relatedEventIDs.mapM eventIDToProto
  return { value with
    checkpointID
    classification := value.classification.toText
    diffRevision := value.bindings.diff
    planRevision := value.bindings.plan
    validationRevision := value.bindings.validation
    evidenceRevision := value.bindings.evidence
    graphRevision := value.bindings.graph
    relatedEventIDs }

/-- Encode an acceptance. -/
def changeAcceptanceToProto (value : ChangeAcceptance) : Result ChangeAcceptanceEvent :=
  .ok {
    state := value.state.toText
    diffRevision := value.bindings.diff
    planRevision := value.bindings.plan
    validationRevision := value.bindings.validation
    evidenceRevision := value.bindings.evidence
    graphRevision := value.bindings.graph }

/-- Encode an invalidation. -/
def taskProjectionInvalidatedToProto (value : TaskProjectionInvalidated) :
    Result TaskProjectionInvalidatedEvent :=
  .ok { entity := value.entity, entityRevision := value.revision }

/-- Encode a user error. -/
def userErrorToProto (value : UserError) : Result UserErrorEvent :=
  .ok { value with code := value.code.toText }

/-- The body of a case of `setSessionEventPayload`: the payload field is used without a check for
nil, converted, and set together with the kind. -/
def setPayload {α β : Type} (field : Option α) (convert : α → Result β) (kind : SessionEventKind)
    (set : β → EventPayload) : Result (SessionEventKind × EventPayload) := do
  let value ← dereference field
  let message ← convert value
  return (kind, set message)

/-- The kind and the payload of the message. -/
def setSessionEventPayload (payload : Payload) :
    OpenEnum Kind → Result (SessionEventKind × EventPayload)
  | .declared .messageDelta =>
    setPayload payload.messageDelta messageDeltaToProto .messageDelta .messageDelta
  | .declared .messageFinal =>
    setPayload payload.messageFinal messageFinalToProto .messageFinal .messageFinal
  | .declared .threadCreated =>
    setPayload payload.threadCreated threadCreatedToProto .threadCreated .threadCreated
  | .declared .threadRenamed =>
    setPayload payload.threadRenamed threadRenamedToProto .threadRenamed .threadRenamed
  | .declared .threadArchived =>
    setPayload payload.threadArchived threadArchivedToProto .threadArchived .threadArchived
  | .declared .planCreated => setPayload payload.plan planToProto .planCreated .plan
  | .declared .planChanged => setPayload payload.plan planToProto .planChanged .plan
  | .declared .toolStarted => setPayload payload.tool toolToProto .toolStarted .tool
  | .declared .toolProgress => setPayload payload.tool toolToProto .toolProgress .tool
  | .declared .toolCompleted => setPayload payload.tool toolToProto .toolCompleted .tool
  | .declared .approvalRequested =>
    setPayload payload.approval approvalToProto .approvalRequested .approval
  | .declared .approvalResolved =>
    setPayload payload.approval approvalToProto .approvalResolved .approval
  | .declared .taskStateChanged =>
    setPayload payload.taskStateChanged taskStateChangedToProto .taskStateChanged .taskStateChanged
  | .declared .forecastUpdated =>
    setPayload payload.forecast forecastToProto .forecastUpdated .forecast
  | .declared .usageUpdated => setPayload payload.usage usageToProto .usageUpdated .usage
  | .declared .costUpdated => setPayload payload.cost costToProto .costUpdated .cost
  | .declared .budgetUpdated => setPayload payload.budget budgetToProto .budgetUpdated .budget
  | .declared .validationUpdated =>
    setPayload payload.validation validationToProto .validationUpdated .validation
  | .declared .graphSnapshot => setPayload payload.graph graphToProto .graphSnapshot .graph
  | .declared .graphPatch => setPayload payload.graph graphToProto .graphPatch .graph
  | .declared .checkpointCreated =>
    setPayload payload.checkpoint checkpointToProto .checkpointCreated .checkpoint
  | .declared .recoveryRequired =>
    setPayload payload.recoveryRequired recoveryRequiredToProto .recoveryRequired .recoveryRequired
  | .declared .changeAcceptanceUpdated =>
    setPayload payload.changeAcceptance changeAcceptanceToProto .changeAcceptanceUpdated
      .changeAcceptance
  | .declared .taskProjectionInvalidated =>
    setPayload payload.taskProjectionInvalidated taskProjectionInvalidatedToProto
      .taskProjectionInvalidated .taskProjectionInvalidated
  | .declared .error => setPayload payload.error userErrorToProto .error .error
  | .undeclared _ _ => .error (.new "unsupported session event kind")

/-- The message of a validated event. -/
def sessionEventToProto (event : SessionEvent) : Result WireEvent := do
  event.validate
  let sessionID ← sessionIDToProto event.sessionID
  let threadID ← threadIDToProto event.threadID
  let taskID ← optionalToProto taskIDToProto event.taskID
  let causationID ← optionalToProto eventIDToProto event.causationID
  let correlationID ← optionalToProto eventIDToProto event.correlationID
  let (kind, payload) ← setSessionEventPayload event.payload event.kind
  let timestampUnixMicros := event.timestamp.unixMicro
  return { event with
    sessionID, threadID, taskID, timestampUnixMicros, kind, causationID, correlationID, payload }

end Codeflux.Transport
