import Codeflux.TaskGraph.Model
import Codeflux.Library.Assembly
import Mathlib.Data.List.Sort
import Mathlib.Data.String.Basic

/-!
# The graph projector

An event carries one typed fact; projecting it puts the nodes and edges of the fact, which may be
there already and then keep what identifies them and add to their source links. The change stays
pending until it is committed as the next revision.
-/

namespace Codeflux.TaskGraph

open Library Go Domain

/-! ### Facts -/

/-- The kinds of projected events. -/
inductive ProjectionEventKind
  | requirementAccepted | planDeclared | operationObserved | effectObserved | approvalBoundary
  | validationObserved | artifactObserved | retryObserved | recoveryObserved | tokenDelta
deriving DecidableEq

instance : Declared ProjectionEventKind where
  all := [.requirementAccepted, .planDeclared, .operationObserved, .effectObserved,
    .approvalBoundary, .validationObserved, .artifactObserved, .retryObserved, .recoveryObserved,
    .tokenDelta]
  text
    | .requirementAccepted => "requirement-accepted"
    | .planDeclared => "plan-declared"
    | .operationObserved => "operation-observed"
    | .effectObserved => "effect-observed"
    | .approvalBoundary => "approval-boundary"
    | .validationObserved => "validation-observed"
    | .artifactObserved => "artifact-observed"
    | .retryObserved => "retry-observed"
    | .recoveryObserved => "recovery-observed"
    | .tokenDelta => "token-delta"

/-- The kinds of operations. -/
inductive OperationKind
  | repositoryInspection | fileEdit
deriving DecidableEq

instance : Declared OperationKind where
  all := [.repositoryInspection, .fileEdit]
  text
    | .repositoryInspection => "repository-inspection"
    | .fileEdit => "file-edit"

/-- The kinds of effects. -/
inductive EffectKind
  | commandCall | providerCall
deriving DecidableEq

instance : Declared EffectKind where
  all := [.commandCall, .providerCall]
  text
    | .commandCall => "command-call"
    | .providerCall => "provider-call"

/-- The kinds of artifacts. -/
inductive ArtifactKind
  | changedFile | diff | checkpoint
deriving DecidableEq

instance : Declared ArtifactKind where
  all := [.changedFile, .diff, .checkpoint]
  text
    | .changedFile => "changed-file"
    | .diff => "diff"
    | .checkpoint => "checkpoint"

/-- The states of projected work. -/
inductive ProjectionState
  | pending | active | passed | warning | failed | blocked | invalidated
deriving DecidableEq

instance : Declared ProjectionState where
  all := [.pending, .active, .passed, .warning, .failed, .blocked, .invalidated]
  text
    | .pending => "pending"
    | .active => "active"
    | .passed => "passed"
    | .warning => "warning"
    | .failed => "failed"
    | .blocked => "blocked"
    | .invalidated => "invalidated"

/-- The status of a node in a state, if the state is a declared one. -/
def ProjectionState.nodeStatus : OpenEnum ProjectionState → Option NodeStatus
  | .declared .pending => some .pending
  | .declared .active => some .active
  | .declared .passed => some .passed
  | .declared .warning => some .warning
  | .declared .failed => some .failed
  | .declared .blocked => some .blocked
  | .declared .invalidated => some .invalidated
  | .undeclared _ _ => none

/-- The states of an approval. -/
inductive ApprovalState
  | requested | granted | denied | cancelled
deriving DecidableEq

instance : Declared ApprovalState where
  all := [.requested, .granted, .denied, .cancelled]
  text
    | .requested => "requested"
    | .granted => "granted"
    | .denied => "denied"
    | .cancelled => "cancelled"

/-- The status an approval gives its node. -/
def ApprovalState.nodeStatus : OpenEnum ApprovalState → Option NodeStatus
  | .declared .requested => some .blocked
  | .declared .granted => some .passed
  | .declared .denied => some .failed
  | .declared .cancelled => some .warning
  | .undeclared _ _ => none

/-- The kinds of recovery. -/
inductive RecoveryKind
  | required | reconciled | compensated
deriving DecidableEq

instance : Declared RecoveryKind where
  all := [.required, .reconciled, .compensated]
  text
    | .required => "required"
    | .reconciled => "reconciled"
    | .compensated => "compensated"

/-- The edge and status of a recovery. -/
def RecoveryKind.relation : OpenEnum RecoveryKind → Option (EdgeClass × NodeStatus)
  | .declared .required => some (.reconciliation, .blocked)
  | .declared .reconciled => some (.reconciliation, .passed)
  | .declared .compensated => some (.compensation, .warning)
  | .undeclared _ _ => none

/-- An accepted requirement. -/
structure RequirementFact where
  nodeID : NodeID
  displayName : String
  contract : ContractSummary

/-- A step of a plan. -/
structure PlanStepFact where
  stepID : String
  nodeID : NodeID
  controlEdge : EdgeID
  displayName : String

/-- A declared plan with its steps. -/
structure PlanFact where
  revision : UInt64
  regionNodeID : NodeID
  regionDisplayName : String
  requirementNodeID : NodeID
  requirementEdgeID : EdgeID
  steps : List PlanStepFact

/-- An operation on a plan step. -/
structure OperationFact where
  kind : OpenEnum OperationKind
  nodeID : NodeID
  controlEdge : EdgeID
  planNodeID : NodeID
  planRevision : UInt64
  (planStepID displayName : String)
  state : OpenEnum ProjectionState

/-- An effect of an operation. -/
structure EffectFact where
  kind : OpenEnum EffectKind
  nodeID : NodeID
  controlEdge : EdgeID
  operationNode : NodeID
  planRevision : UInt64
  (planStepID displayName : String)
  state : OpenEnum ProjectionState

/-- An approval boundary. -/
structure ApprovalFact where
  nodeID : NodeID
  controlEdge : EdgeID
  predecessor : NodeID
  displayName : String
  state : OpenEnum ApprovalState
  planRevision : UInt64
  planStepID : String

/-- A validation and its evidence. -/
structure ValidationFact where
  obligationNodeID : NodeID
  controlEdge : EdgeID
  predecessor : NodeID
  displayName : String
  state : OpenEnum ProjectionState
  planRevision : UInt64
  planStepID : String
  resultNodeID : NodeID
  evidenceEdge : EdgeID
  resultDisplayName : String

/-- An artifact and its producer. -/
structure ArtifactFact where
  kind : OpenEnum ArtifactKind
  nodeID : NodeID
  provenanceEdge : EdgeID
  producerNode : NodeID
  displayName : String
  state : OpenEnum ProjectionState
  planRevision : UInt64
  planStepID : String

/-- A retry of earlier work. -/
structure RetryFact where
  edgeID : EdgeID
  (previousNodeID retryNodeID : NodeID)

/-- A recovery of earlier work. -/
structure RecoveryFact where
  kind : OpenEnum RecoveryKind
  nodeID : NodeID
  relationEdge : EdgeID
  checkpointNodeID : NodeID
  displayName : String

/-- A typed fact. -/
inductive Fact
  | requirement (fact : RequirementFact)
  | plan (fact : PlanFact)
  | operation (fact : OperationFact)
  | effect (fact : EffectFact)
  | approval (fact : ApprovalFact)
  | validation (fact : ValidationFact)
  | artifact (fact : ArtifactFact)
  | retry (fact : RetryFact)
  | recovery (fact : RecoveryFact)
  | tokenDelta

/-- The kind of event that carries a fact. -/
def Fact.kind : Fact → ProjectionEventKind
  | .requirement _ => .requirementAccepted
  | .plan _ => .planDeclared
  | .operation _ => .operationObserved
  | .effect _ => .effectObserved
  | .approval _ => .approvalBoundary
  | .validation _ => .validationObserved
  | .artifact _ => .artifactObserved
  | .retry _ => .retryObserved
  | .recovery _ => .recoveryObserved
  | .tokenDelta => .tokenDelta

/-- One ordered event. The payload holds the facts whose fields are set. -/
structure ProjectionEvent where
  sequence : UInt64
  sourceEventID : EventID
  taskID : TaskID
  occurredAt : Timestamp
  kind : OpenEnum ProjectionEventKind
  payload : List Fact

/-! ### The projection -/

/-- The most steps of a plan. -/
def maximumProjectedPlanSteps : Nat := 64

/-- The state of a task's graph. -/
structure GraphProjection where
  graph : Graph
  revision : Option Revision
  lastSequence : UInt64
  nodes : AList fun _ : NodeID => Node
  edges : AList fun _ : EdgeID => Edge
  /-- The number of the event that awaits its commit, or zero. -/
  pendingChange : UInt64

/-- A projection from a committed revision, if any. -/
def newGraphProjection (identity : Graph) (revision : Option Revision) (lastSequence : UInt64) :
    GraphResult GraphProjection := do
  identity.validate
  match revision with
  | none => return ⟨identity, none, lastSequence, ∅, ∅, 0⟩
  | some revision => do
    revision.validate
    ensure (revision.metadata.graphID = identity.id)
      (.projection "revision.graph_id" "does not match the projection graph")
    return {
      graph := identity
      revision := some revision
      lastSequence
      nodes := revision.nodes.foldl (fun nodes node => nodes.insert node.id node) ∅
      edges := revision.edges.foldl (fun edges edge => edges.insert edge.id edge) ∅
      pendingChange := 0 }

/-- Append what is not there yet. -/
def appendNew {α : Type} [DecidableEq α] (left right : List α) : List α :=
  right.foldl (fun acc value => if value ∈ acc then acc else acc ++ [value]) left

/-- The links of both, without repetition. -/
def mergeSources (left right : SourceLinks) : GraphResult SourceLinks :=
  newSourceLinks (appendNew left.eventIDs right.eventIDs)
    (appendNew left.planSteps right.planSteps)

variable (projection : GraphProjection)

/-- Add a node, or update the one that is there. -/
def putNode (id : NodeID) (nodeClass : NodeClass)
    (status : NodeStatus) (displayName : String) (contract : ContractSummary)
    (sources : SourceLinks) : GraphResult GraphProjection :=
  match projection.nodes.lookup id with
  | some existing => do
    ensure (existing.nodeClass = nodeClass ∧ existing.displayName = displayName ∧
        existing.contract = contract)
      (.projection "node.identity" "was reused for different immutable semantics")
    let merged ← mergeSources existing.sources sources
    let node ← newNode id nodeClass status displayName contract merged
    return { projection with nodes := projection.nodes.insert id node }
  | none => do
    let node ← newNode id nodeClass status displayName contract sources
    return { projection with nodes := projection.nodes.insert id node }

/-- Add an edge, or link the one that is there. -/
def putEdge (id : EdgeID) (edgeClass : EdgeClass)
    (source target : NodeID) (sources : SourceLinks) : GraphResult GraphProjection := do
  ensure (source ∈ projection.nodes) (.projection "edge.from" "references an unprojected node")
  ensure (target ∈ projection.nodes) (.projection "edge.to" "references an unprojected node")
  match projection.edges.lookup id with
  | some existing => do
    ensure (existing.edgeClass = edgeClass ∧ existing.fromNode = source ∧ existing.toNode = target)
      (.projection "edge.identity" "was reused for different immutable semantics")
    let merged ← mergeSources existing.sources sources
    let edge ← newEdge id edgeClass source target merged
    return { projection with edges := projection.edges.insert id edge }
  | none => do
    let edge ← newEdge id edgeClass source target sources
    return { projection with edges := projection.edges.insert id edge }

/-! ### Applying a fact -/

/-- Links to an event and a plan step. -/
def eventAndPlanSources (eventID : EventID) (revision : UInt64) (stepID : String) :
    GraphResult SourceLinks :=
  newSourceLinks [eventID] [⟨revision, stepID⟩]

/-- Links to an event and a plan step, if given. -/
def eventAndOptionalPlanSources (eventID : EventID) (revision : UInt64) (stepID : String) :
    GraphResult SourceLinks :=
  if revision = 0 ∧ stepID = "" then newSourceLinks [eventID] []
  else eventAndPlanSources eventID revision stepID

/-- Put a node, and the edge that leads to it. -/
def putNodeWithEdge (nodeID : NodeID) (nodeClass : NodeClass)
    (status : NodeStatus) (displayName : String) (edgeID : EdgeID) (edgeClass : EdgeClass)
    (predecessor : NodeID) (sources : SourceLinks) : GraphResult GraphProjection := do
  let projection ← putNode projection nodeID nodeClass status displayName .empty sources
  putEdge projection edgeID edgeClass predecessor nodeID sources

/-- Put a plan step below its plan. -/
def applyPlanStep (fact : PlanFact) (sources : SourceLinks) (projection : GraphProjection)
    (step : PlanStepFact) : GraphResult GraphProjection := do
  let stepSources ← newSourceLinks sources.eventIDs [⟨fact.revision, step.stepID⟩]
  putNodeWithEdge projection step.nodeID .planRegion .pending step.displayName step.controlEdge
    .control fact.regionNodeID stepSources

/-- Put a plan with its steps. -/
def applyPlan (fact : PlanFact) (sources : SourceLinks) : GraphResult GraphProjection := do
  let projection ← putNodeWithEdge projection fact.regionNodeID .planRegion .active
    fact.regionDisplayName fact.requirementEdgeID .control fact.requirementNodeID sources
  fact.steps.foldlM (applyPlanStep fact sources) projection

/-- Put a validation and its result. -/
def applyValidation (fact : ValidationFact) (status : NodeStatus)
    (eventID : EventID) : GraphResult GraphProjection := do
  let sources ← eventAndPlanSources eventID fact.planRevision fact.planStepID
  let projection ← putNodeWithEdge projection fact.obligationNodeID .obligation status
    fact.displayName fact.controlEdge .control fact.predecessor sources
  if fact.resultNodeID.isZero then return projection
  else
    putNodeWithEdge projection fact.resultNodeID .artifactResult status fact.resultDisplayName
      fact.evidenceEdge .evidenceDependency fact.obligationNodeID sources

/-- Put a fact that passed the checks. A state or kind that is not declared does not get here. -/
def applyProjectionFact (fact : Fact) (eventID : EventID)
    (eventSources : SourceLinks) : GraphResult GraphProjection :=
  match fact with
  | .requirement fact =>
    putNode projection fact.nodeID .requirement .passed fact.displayName fact.contract eventSources
  | .plan fact => applyPlan projection fact eventSources
  | .operation fact => do
    let status ← (ProjectionState.nodeStatus fact.state).elim
      (.error (.projection "operation" "is incomplete")) .ok
    let sources ← eventAndPlanSources eventID fact.planRevision fact.planStepID
    putNodeWithEdge projection fact.nodeID .atomOperation status fact.displayName fact.controlEdge
      .control fact.planNodeID sources
  | .effect fact => do
    let status ← (ProjectionState.nodeStatus fact.state).elim
      (.error (.projection "effect" "is incomplete")) .ok
    let sources ← eventAndPlanSources eventID fact.planRevision fact.planStepID
    putNodeWithEdge projection fact.nodeID .effect status fact.displayName fact.controlEdge
      .control fact.operationNode sources
  | .approval fact => do
    let status ← (ApprovalState.nodeStatus fact.state).elim
      (.error (.projection "approval" "is incomplete")) .ok
    let sources ← eventAndPlanSources eventID fact.planRevision fact.planStepID
    putNodeWithEdge projection fact.nodeID .branchMatchMerge status fact.displayName
      fact.controlEdge .control fact.predecessor sources
  | .validation fact => do
    let status ← (ProjectionState.nodeStatus fact.state).elim
      (.error (.projection "validation" "is incomplete")) .ok
    applyValidation projection fact status eventID
  | .artifact fact => do
    let status ← (ProjectionState.nodeStatus fact.state).elim
      (.error (.projection "artifact" "is incomplete")) .ok
    let sources ← eventAndOptionalPlanSources eventID fact.planRevision fact.planStepID
    putNodeWithEdge projection fact.nodeID .artifactResult status fact.displayName
      fact.provenanceEdge .dataProvenance fact.producerNode sources
  | .retry fact =>
    putEdge projection fact.edgeID .retry fact.previousNodeID fact.retryNodeID eventSources
  | .recovery fact => do
    let (relation, status) ← (RecoveryKind.relation fact.kind).elim
      (.error (.projection "recovery" "is incomplete")) .ok
    putNodeWithEdge projection fact.nodeID .branchMatchMerge status fact.displayName
      fact.relationEdge relation fact.checkpointNodeID eventSources
  | .tokenDelta => .error (.projection "event.kind" "is not projectable")

/-! ### Checking an event -/

/-- Check a plan. -/
def checkPlan (fact : PlanFact) : GraphResult Unit := do
  ensure (fact.revision ≠ 0 ∧ fact.regionNodeID.isZero = false ∧
      fact.requirementNodeID.isZero = false ∧ fact.requirementEdgeID.isZero = false ∧
      fact.steps ≠ [] ∧ fact.steps.length ≤ maximumProjectedPlanSteps)
    (.projection "plan" "is incomplete or exceeds its step limit")
  ensure (fact.requirementNodeID ∈ projection.nodes)
    (.projection "plan.requirement" "is not projected")
  fact.steps.zipIdx.forM fun (step, index) => do
    let earlier := fact.steps.take index
    ensure (step.stepID ≠ "" ∧ step.nodeID.isZero = false ∧ step.controlEdge.isZero = false)
      (.projection "plan.steps" "contains an incomplete step")
    ensure (step.stepID ∉ earlier.map PlanStepFact.stepID)
      (.projection "plan.steps" "contains a duplicate step identity")
    ensure (step.nodeID ∉ earlier.map PlanStepFact.nodeID)
      (.projection "plan.steps" "contains a duplicate node identity")
    ensure (step.controlEdge ∉ earlier.map PlanStepFact.controlEdge)
      (.projection "plan.steps" "contains a duplicate edge identity")

/-- Check a validation. -/
def checkValidation (fact : ValidationFact) : GraphResult Unit := do
  ensure (fact.obligationNodeID.isZero = false ∧ fact.controlEdge.isZero = false ∧
      fact.predecessor.isZero = false ∧ (ProjectionState.nodeStatus fact.state).isSome ∧
      fact.planRevision ≠ 0 ∧ fact.planStepID ≠ "")
    (.projection "validation" "is incomplete")
  ensure (fact.resultNodeID.isZero = fact.evidenceEdge.isZero ∧
      (fact.resultNodeID.isZero ↔ fact.resultDisplayName = ""))
    (.projection "validation.result" "must be entirely present or absent")

/-- Check a fact. -/
def validateProjectionPayload : Fact → GraphResult Unit
  | .requirement fact =>
    ensure (fact.nodeID.isZero = false) (.projection "requirement.node_id" "must not be empty")
  | .plan fact => checkPlan projection fact
  | .operation fact =>
    ensure (fact.kind.isValid ∧ fact.nodeID.isZero = false ∧ fact.controlEdge.isZero = false ∧
        fact.planNodeID.isZero = false ∧ fact.planRevision ≠ 0 ∧ fact.planStepID ≠ "" ∧
        (ProjectionState.nodeStatus fact.state).isSome)
      (.projection "operation" "is incomplete")
  | .effect fact =>
    ensure (fact.kind.isValid ∧ fact.nodeID.isZero = false ∧ fact.controlEdge.isZero = false ∧
        fact.operationNode.isZero = false ∧ fact.planRevision ≠ 0 ∧ fact.planStepID ≠ "" ∧
        (ProjectionState.nodeStatus fact.state).isSome)
      (.projection "effect" "is incomplete")
  | .approval fact =>
    ensure (fact.nodeID.isZero = false ∧ fact.controlEdge.isZero = false ∧
        fact.predecessor.isZero = false ∧ (ApprovalState.nodeStatus fact.state).isSome ∧
        fact.planRevision ≠ 0 ∧ fact.planStepID ≠ "")
      (.projection "approval" "is incomplete")
  | .validation fact => checkValidation fact
  | .artifact fact =>
    ensure (fact.kind.isValid ∧ fact.nodeID.isZero = false ∧ fact.provenanceEdge.isZero = false ∧
        fact.producerNode.isZero = false ∧ (ProjectionState.nodeStatus fact.state).isSome ∧
        (fact.planRevision = 0 ↔ fact.planStepID = ""))
      (.projection "artifact" "is incomplete")
  | .retry fact =>
    ensure (fact.edgeID.isZero = false ∧ fact.previousNodeID.isZero = false ∧
        fact.retryNodeID.isZero = false ∧ fact.previousNodeID ≠ fact.retryNodeID)
      (.projection "retry" "is incomplete")
  | .recovery fact =>
    ensure ((RecoveryKind.relation fact.kind).isSome ∧ fact.nodeID.isZero = false ∧
        fact.relationEdge.isZero = false ∧ fact.checkpointNodeID.isZero = false)
      (.projection "recovery" "is incomplete")
  | .tokenDelta => .ok ()

/-- The checks of an event, which return its one fact. -/
def validateProjectionEvent (event : ProjectionEvent) : GraphResult Fact := do
  ensure (projection.graph.id.isZero = false) (.projection "projection.graph" "is missing")
  ensure (event.sequence = projection.lastSequence + 1)
    (.projection "event.sequence" "must be the next contiguous sequence")
  ensure (event.sourceEventID.isZero = false)
    (.projection "event.source_event_id" "must not be empty")
  ensure (event.taskID.isZero = false ∧ event.taskID = projection.graph.taskID)
    (.projection "event.task_id" "does not match the graph task")
  ensure (validUTCTime event.occurredAt = true)
    (.projection "event.occurred_at" "must be a non-zero UTC timestamp")
  ensure (event.kind.isValid = true) (.projection "event.kind" "is not supported")
  match event.payload with
  | [fact] => do
    ensure (event.kind = fact.kind) (.projection "event.payload" "does not match the event kind")
    validateProjectionPayload projection fact
    return fact
  | _ => .error (.projection "event.payload" "must contain exactly one typed fact")

/-! ### Events and commits -/

/-- The nodes by identity. -/
def sortedNodes (values : AList fun _ : NodeID => Node) : List Node :=
  (values.entries.map Sigma.snd).insertionSort fun a b => a.id.value ≤ b.id.value

/-- The edges by identity. -/
def sortedEdges (values : AList fun _ : EdgeID => Edge) : List Edge :=
  (values.entries.map Sigma.snd).insertionSort fun a b => a.id.value ≤ b.id.value

/-- The candidate topology of one event. Token deltas change nothing. -/
inductive GraphChange
  | immaterial (sequence : UInt64)
  | material (graphID : GraphID) (sequence : UInt64) (occurredAt : Timestamp)
      (sources : SourceLinks) (nodes : List Node) (edges : List Edge)

/-- Project one event, as a pending change. -/
def projectSessionEvent (event : ProjectionEvent) :
    GraphResult (GraphProjection × GraphChange) := do
  ensure (projection.pendingChange = 0) .pending
  let fact ← validateProjectionEvent projection event
  let next := { projection with lastSequence := event.sequence }
  match fact with
  | .tokenDelta => return (next, .immaterial event.sequence)
  | fact => do
    let sources ← newSourceLinks [event.sourceEventID] []
    let applied ← applyProjectionFact next fact event.sourceEventID sources
    return ({ applied with pendingChange := event.sequence },
      .material projection.graph.id event.sequence event.occurredAt sources
        (sortedNodes applied.nodes) (sortedEdges applied.edges))

/-- The number of the next revision, and its parent. -/
def nextOrdinal : UInt64 :=
  match projection.revision with
  | none => 1
  | some revision => revision.metadata.ordinal + 1

/-- Commit the pending change as a revision. -/
def commitGraphRevision (change : GraphChange)
    (revisionID : GraphRevisionID) : GraphResult (GraphProjection × Revision) :=
  match change with
  | .immaterial _ =>
    .error (.projection "commit" "does not match a pending material change")
  | .material graphID sequence occurredAt sources nodes edges => do
    ensure (graphID = projection.graph.id ∧ projection.pendingChange ≠ 0 ∧
        projection.pendingChange = sequence ∧ revisionID.isZero = false)
      (.projection "commit" "does not match a pending material change")
    ensure (nodes = sortedNodes projection.nodes ∧ edges = sortedEdges projection.edges)
      (.projection "commit.change" "belongs to a different projection branch")
    let metadata ← newRevisionMetadata revisionID projection.graph.id (nextOrdinal projection)
      (projection.revision.map fun revision => revision.metadata.id) currentSchemaVersion
      occurredAt sources
    let revision ← newRevision metadata nodes edges
    return ({ projection with pendingChange := 0, revision := some revision }, revision)

/-- The projections reached from a new one, with the events that were projected. -/
inductive Runs (identity : Graph) (start : UInt64) : List ProjectionEvent → GraphProjection → Prop
  | start {projection : GraphProjection}
      (h : newGraphProjection identity none start = .ok projection) :
      Runs identity start [] projection
  | project {trace : List ProjectionEvent} {projection next : GraphProjection}
      {event : ProjectionEvent} {change : GraphChange} (hrun : Runs identity start trace projection)
      (h : projectSessionEvent projection event = .ok (next, change)) :
      Runs identity start (trace ++ [event]) next
  | commit {trace : List ProjectionEvent} {projection next : GraphProjection}
      {change : GraphChange} {revisionID : GraphRevisionID} {revision : Revision}
      (hrun : Runs identity start trace projection)
      (h : commitGraphRevision projection change revisionID = .ok (next, revision)) :
      Runs identity start trace next

end Codeflux.TaskGraph
