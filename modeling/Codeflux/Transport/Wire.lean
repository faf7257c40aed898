import Codeflux.Domain.Identity

/-!
# Wire messages of the session stream

The messages of `session.proto` and `identity.proto` that the session stream carries. A message
field is an `Option`, since its getter answers nil when it is not set. The payload of an event is a
one-of.
-/

namespace Codeflux.Transport

/-- The kind of an identity. -/
inductive StableIdentityKind
  | unspecified | project | repository | workspace | thread | message | task | run | event
  | checkpoint | approval | graph | graphRevision | node | edge | validation | evidence | artifact
  | atom | modelRequest | provider | budget | session | memoryArtifact | memoryArtifactRevision
  | episode
deriving DecidableEq

/-- The enumerator's name, as its generated `String` method gives it. -/
def StableIdentityKind.name : StableIdentityKind → String
  | .unspecified => "STABLE_IDENTITY_KIND_UNSPECIFIED"
  | .project => "STABLE_IDENTITY_KIND_PROJECT"
  | .repository => "STABLE_IDENTITY_KIND_REPOSITORY"
  | .workspace => "STABLE_IDENTITY_KIND_WORKSPACE"
  | .thread => "STABLE_IDENTITY_KIND_THREAD"
  | .message => "STABLE_IDENTITY_KIND_MESSAGE"
  | .task => "STABLE_IDENTITY_KIND_TASK"
  | .run => "STABLE_IDENTITY_KIND_RUN"
  | .event => "STABLE_IDENTITY_KIND_EVENT"
  | .checkpoint => "STABLE_IDENTITY_KIND_CHECKPOINT"
  | .approval => "STABLE_IDENTITY_KIND_APPROVAL"
  | .graph => "STABLE_IDENTITY_KIND_GRAPH"
  | .graphRevision => "STABLE_IDENTITY_KIND_GRAPH_REVISION"
  | .node => "STABLE_IDENTITY_KIND_NODE"
  | .edge => "STABLE_IDENTITY_KIND_EDGE"
  | .validation => "STABLE_IDENTITY_KIND_VALIDATION"
  | .evidence => "STABLE_IDENTITY_KIND_EVIDENCE"
  | .artifact => "STABLE_IDENTITY_KIND_ARTIFACT"
  | .atom => "STABLE_IDENTITY_KIND_ATOM"
  | .modelRequest => "STABLE_IDENTITY_KIND_MODEL_REQUEST"
  | .provider => "STABLE_IDENTITY_KIND_PROVIDER"
  | .budget => "STABLE_IDENTITY_KIND_BUDGET"
  | .session => "STABLE_IDENTITY_KIND_SESSION"
  | .memoryArtifact => "STABLE_IDENTITY_KIND_MEMORY_ARTIFACT"
  | .memoryArtifactRevision => "STABLE_IDENTITY_KIND_MEMORY_ARTIFACT_REVISION"
  | .episode => "STABLE_IDENTITY_KIND_EPISODE"

/-- An identity on the wire. -/
structure StableIdentity where
  kind : StableIdentityKind
  value : String
deriving DecidableEq

/-- The kind of an event on the wire. -/
inductive SessionEventKind
  | unspecified | messageDelta | messageFinal | planCreated | planChanged | toolStarted
  | toolProgress | toolCompleted | approvalRequested | approvalResolved | taskStateChanged
  | forecastUpdated | usageUpdated | costUpdated | budgetUpdated | validationUpdated
  | graphSnapshot | graphPatch | checkpointCreated | recoveryRequired | error | threadCreated
  | threadRenamed | threadArchived | changeAcceptanceUpdated | taskProjectionInvalidated

/-! ### Payload messages -/

/-- A projection to be loaded anew. -/
structure TaskProjectionInvalidatedEvent where
  entity : String
  entityRevision : UInt64

/-- A piece of a message. -/
structure MessageDeltaEvent where
  messageID : Option StableIdentity
  redactedDelta : String

/-- A finished message. -/
structure MessageFinalEvent where
  messageID : Option StableIdentity
  (role redactedBody : String)

/-- A new thread. -/
structure ThreadCreatedEvent where
  workspaceID : Option StableIdentity
  title : String
  archived : Bool

/-- A new title. -/
structure ThreadRenamedEvent where
  (previousTitle title : String)

/-- A thread put away or back. -/
structure ThreadArchivedEvent where
  archived : Bool

/-- A plan revision. -/
structure PlanEvent where
  planRevision : UInt64
  redactedSummary : String

/-- The state of a tool run. -/
structure ToolEvent where
  (executionID commandName state redactedSummary : String)

/-- The state of an approval. -/
structure ApprovalEvent where
  approvalID : Option StableIdentity
  (state scope redactedReason : String)

/-- A task transition. -/
structure TaskStateChangedEvent where
  (source target approvalState : String)

/-- A forecast, with zeros for what is unknown. -/
structure ForecastEvent where
  costKnown : Bool
  costP50Minor : Int := 0
  costP90Minor : Int := 0
  currency : String := ""
  tokensKnown : Bool
  (tokensP50 tokensP90 : UInt64)
  latencyKnown : Bool
  (latencyP50Ms latencyP90Ms : Int)

/-- Tokens used. -/
structure UsageEvent where
  known : Bool
  (inputTokens cachedInputTokens outputTokens reasoningTokens : UInt64)

/-- A cost, if known. -/
structure CostEvent where
  known : Bool
  minorUnits : Int := 0
  currency : String := ""

/-- The budget, in one currency. -/
structure BudgetEvent where
  (hardLimitMinor reservedMinor actualMinor : Int)
  currency : String

/-- The state of a validation. -/
structure ValidationEvent where
  validationID : Option StableIdentity
  (state redactedSummary : String)
  (required acknowledged : Bool)
  diffRevision : UInt64

/-- A graph or a patch of one. -/
structure GraphEvent where
  graphRevisionID : Option StableIdentity
  encodedChange : List UInt8

/-- A new checkpoint. -/
structure CheckpointEvent where
  checkpointID : Option StableIdentity
  taskRevision : UInt64
  planStep : String

/-- The state of a review. -/
structure ChangeAcceptanceEvent where
  state : String
  (diffRevision planRevision validationRevision evidenceRevision graphRevision : UInt64)

/-- A run to be recovered. -/
structure RecoveryRequiredEvent where
  checkpointID : Option StableIdentity
  (redactedReason classification divergenceSummary : String)
  (externalOutcomeAmbiguous safeResumeVerified reconcileAvailable preservePatchAvailable : Bool)
  (diffRevision planRevision validationRevision evidenceRevision graphRevision : UInt64)
  relatedEventIDs : List StableIdentity
  relatedFiles : List String

/-- An error for the user. -/
structure UserErrorEvent where
  (code redactedMessage : String)
  retryable : Bool

/-- The one-of of an event. -/
inductive EventPayload
  | messageDelta (value : MessageDeltaEvent)
  | messageFinal (value : MessageFinalEvent)
  | plan (value : PlanEvent)
  | tool (value : ToolEvent)
  | approval (value : ApprovalEvent)
  | taskStateChanged (value : TaskStateChangedEvent)
  | forecast (value : ForecastEvent)
  | usage (value : UsageEvent)
  | cost (value : CostEvent)
  | budget (value : BudgetEvent)
  | validation (value : ValidationEvent)
  | graph (value : GraphEvent)
  | checkpoint (value : CheckpointEvent)
  | recoveryRequired (value : RecoveryRequiredEvent)
  | error (value : UserErrorEvent)
  | threadCreated (value : ThreadCreatedEvent)
  | threadRenamed (value : ThreadRenamedEvent)
  | threadArchived (value : ThreadArchivedEvent)
  | changeAcceptance (value : ChangeAcceptanceEvent)
  | taskProjectionInvalidated (value : TaskProjectionInvalidatedEvent)

/-- An event of a session, as the stream carries it. -/
structure WireEvent where
  sequence : UInt64
  (sessionID threadID taskID : Option StableIdentity)
  timestampUnixMicros : Int
  kind : SessionEventKind
  revision : UInt64
  (causationID correlationID : Option StableIdentity)
  payloadVersion : UInt32
  payload : Option EventPayload

namespace WireEvent

variable (event : WireEvent)

/-- The message delta, if set. -/
def getMessageDelta : Option MessageDeltaEvent :=
  match event.payload with
  | some (.messageDelta value) => some value
  | _ => none

/-- The final message, if set. -/
def getMessageFinal : Option MessageFinalEvent :=
  match event.payload with
  | some (.messageFinal value) => some value
  | _ => none

/-- The plan, if set. -/
def getPlan : Option PlanEvent :=
  match event.payload with
  | some (.plan value) => some value
  | _ => none

/-- The tool update, if set. -/
def getTool : Option ToolEvent :=
  match event.payload with
  | some (.tool value) => some value
  | _ => none

/-- The approval, if set. -/
def getApproval : Option ApprovalEvent :=
  match event.payload with
  | some (.approval value) => some value
  | _ => none

/-- The transition, if set. -/
def getTaskStateChanged : Option TaskStateChangedEvent :=
  match event.payload with
  | some (.taskStateChanged value) => some value
  | _ => none

/-- The forecast, if set. -/
def getForecast : Option ForecastEvent :=
  match event.payload with
  | some (.forecast value) => some value
  | _ => none

/-- The usage, if set. -/
def getUsage : Option UsageEvent :=
  match event.payload with
  | some (.usage value) => some value
  | _ => none

/-- The cost, if set. -/
def getCost : Option CostEvent :=
  match event.payload with
  | some (.cost value) => some value
  | _ => none

/-- The budget, if set. -/
def getBudget : Option BudgetEvent :=
  match event.payload with
  | some (.budget value) => some value
  | _ => none

/-- The validation, if set. -/
def getValidation : Option ValidationEvent :=
  match event.payload with
  | some (.validation value) => some value
  | _ => none

/-- The graph, if set. -/
def getGraph : Option GraphEvent :=
  match event.payload with
  | some (.graph value) => some value
  | _ => none

/-- The checkpoint, if set. -/
def getCheckpoint : Option CheckpointEvent :=
  match event.payload with
  | some (.checkpoint value) => some value
  | _ => none

/-- The recovery, if set. -/
def getRecoveryRequired : Option RecoveryRequiredEvent :=
  match event.payload with
  | some (.recoveryRequired value) => some value
  | _ => none

/-- The error, if set. -/
def getError : Option UserErrorEvent :=
  match event.payload with
  | some (.error value) => some value
  | _ => none

/-- The new thread, if set. -/
def getThreadCreated : Option ThreadCreatedEvent :=
  match event.payload with
  | some (.threadCreated value) => some value
  | _ => none

/-- The new title, if set. -/
def getThreadRenamed : Option ThreadRenamedEvent :=
  match event.payload with
  | some (.threadRenamed value) => some value
  | _ => none

/-- The archiving, if set. -/
def getThreadArchived : Option ThreadArchivedEvent :=
  match event.payload with
  | some (.threadArchived value) => some value
  | _ => none

/-- The acceptance, if set. -/
def getChangeAcceptance : Option ChangeAcceptanceEvent :=
  match event.payload with
  | some (.changeAcceptance value) => some value
  | _ => none

/-- The invalidation, if set. -/
def getTaskProjectionInvalidated : Option TaskProjectionInvalidatedEvent :=
  match event.payload with
  | some (.taskProjectionInvalidated value) => some value
  | _ => none

end WireEvent

/-- A request for the events of a session. -/
structure SubscribeSessionRequest where
  sessionID : Option StableIdentity
  afterSequence : UInt64

/-- The mark that ends the replay. -/
structure SessionReplayBoundary where
  throughSequence : UInt64

/-- An event or the mark. -/
structure SubscribeSessionResponse where
  event : Option WireEvent := none
  replayBoundary : Option SessionReplayBoundary := none

end Codeflux.Transport
