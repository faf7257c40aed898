import Codeflux.Domain.Identity
import Codeflux.Go.Time
import Codeflux.Library.Checked
import Codeflux.Library.OpenEnum

/-!
# Task graphs

Nodes and edges with bounded links to their sources, and revisions, which are complete snapshots.
The source builds them only by constructors that check; here each value carries the proof that its
check has passed.
-/

namespace Codeflux.TaskGraph

open Library Go Domain

/-- The errors of the graph packages. -/
inductive GraphError
  /-- A `*ValidationError`, whose cause is `ErrInvalidGraphModel`. -/
  | invalid (field reason : String)
  /-- `ErrInvalidProjectionEvent` with a field and a reason. -/
  | projection (field reason : String)
  /-- `ErrProjectionPending`. -/
  | pending
deriving DecidableEq

/-- A graph function that may fail. -/
abbrev GraphResult (α : Type) := Except GraphError α

/-! ### Enumerations -/

/-- The explanatory role of a node. -/
inductive NodeClass
  | requirement | planRegion | atomOperation | effect | branchMatchMerge | obligation
  | artifactResult
deriving DecidableEq

instance : Declared NodeClass where
  all := [.requirement, .planRegion, .atomOperation, .effect, .branchMatchMerge, .obligation,
    .artifactResult]
  text
    | .requirement => "requirement"
    | .planRegion => "plan-region"
    | .atomOperation => "atom-operation"
    | .effect => "effect"
    | .branchMatchMerge => "branch-match-merge"
    | .obligation => "obligation"
    | .artifactResult => "artifact-result"

/-- The relationship that an edge carries. -/
inductive EdgeClass
  | control | dataProvenance | evidenceDependency | retry | reconciliation | compensation
deriving DecidableEq

instance : Declared EdgeClass where
  all := [.control, .dataProvenance, .evidenceDependency, .retry, .reconciliation, .compensation]
  text
    | .control => "control"
    | .dataProvenance => "data-provenance"
    | .evidenceDependency => "evidence-dependency"
    | .retry => "retry"
    | .reconciliation => "reconciliation"
    | .compensation => "compensation"

/-- The execution or evidence state of a node. -/
inductive NodeStatus
  | pending | active | passed | warning | failed | blocked | invalidated
deriving DecidableEq

instance : Declared NodeStatus where
  all := [.pending, .active, .passed, .warning, .failed, .blocked, .invalidated]
  text
    | .pending => "pending"
    | .active => "active"
    | .passed => "passed"
    | .warning => "warning"
    | .failed => "failed"
    | .blocked => "blocked"
    | .invalidated => "invalidated"

/-! ### Texts and times -/

/-- The longest name of a node. -/
def maximumNodeDisplayNameBytes : Nat := 256

/-- The longest purpose. -/
def maximumContractPurposeBytes : Nat := 1024

/-- The most items of a contract's list. -/
def maximumContractItems : Nat := 32

/-- The longest item. -/
def maximumContractItemBytes : Nat := 512

/-- The most linked events. -/
def maximumSourceEventLinks : Nat := 64

/-- The most linked plan steps. -/
def maximumPlanStepLinks : Nat := 64

/-- The longest step identifier. -/
def maximumPlanStepIDBytes : Nat := 255

/-- Is the text trimmed, not empty and short enough? -/
def validateBoundedText (field value : String) (maximumBytes : Nat) : GraphResult Unit := do
  ensure (value ≠ "" ∧ trimSpace value = value ∧ byteLength value ≤ maximumBytes)
    (.invalid field "must be non-empty, trimmed, valid UTF-8, and bounded")
  ensure (value.toList.all (fun character => !isControl character) = true)
    (.invalid field "must not contain control characters")

/-- Is it a time in UTC? -/
def validUTCTime (value : Timestamp) : Bool := !value.isZero && value.utc

/-! ### Source links -/

/-- One step of one immutable plan revision. -/
structure PlanStepLink where
  planRevision : UInt64
  stepID : String
deriving DecidableEq

/-- Check a plan step link. -/
def PlanStepLink.validate (link : PlanStepLink) : GraphResult Unit := do
  ensure (link.planRevision ≠ 0)
    (.invalid "source.plan_step.plan_revision" "must be greater than zero")
  validateBoundedText "source.plan_step.step_id" link.stepID maximumPlanStepIDBytes

/-- Check source links. -/
def checkSourceLinks (eventIDs : List EventID) (planSteps : List PlanStepLink) :
    GraphResult Unit := do
  ensure (eventIDs.length ≤ maximumSourceEventLinks)
    (.invalid "source.event_ids" "exceeds the link limit")
  ensure (planSteps.length ≤ maximumPlanStepLinks)
    (.invalid "source.plan_steps" "exceeds the link limit")
  checkDistinct
    (fun id => ensure (id.isZero = false)
      (.invalid "source.event_ids" "contains an empty identity"))
    (fun _ => .invalid "source.event_ids" "contains a duplicate identity") (fun _ => .ok ())
    id eventIDs
  checkDistinct PlanStepLink.validate
    (fun _ => .invalid "source.plan_steps" "contains a duplicate link") (fun _ => .ok ())
    id planSteps

/-- Bounded, typed provenance links. -/
structure SourceLinks where
  eventIDs : List EventID
  planSteps : List PlanStepLink
  checked : checkSourceLinks eventIDs planSteps = .ok ()
deriving DecidableEq

/-- Checked source links. -/
def newSourceLinks (eventIDs : List EventID) (planSteps : List PlanStepLink) :
    GraphResult SourceLinks :=
  (certify (checkSourceLinks eventIDs planSteps)).map fun h => ⟨eventIDs, planSteps, h.down⟩

/-- Check again. -/
def SourceLinks.validate (links : SourceLinks) : GraphResult Unit :=
  checkSourceLinks links.eventIDs links.planSteps

variable {eventIDs : List EventID} {planSteps : List PlanStepLink} {sources : SourceLinks}

theorem checkSourceLinks_ok_iff :
    checkSourceLinks eventIDs planSteps = .ok () ↔
      (eventIDs.length ≤ maximumSourceEventLinks ∧ eventIDs.Nodup ∧
        ∀ id ∈ eventIDs, id.isZero = false) ∧
      planSteps.length ≤ maximumPlanStepLinks ∧ planSteps.Nodup ∧
        ∀ link ∈ planSteps, link.validate = .ok () := by
  simp only [checkSourceLinks, run_ok_iff, checkDistinct_ok_iff, List.map_id]
  constructor
  · rintro ⟨_, hevents, _, hsteps, _, ⟨hzero, hnodup⟩, hvalid, hdistinct⟩
    exact ⟨⟨hevents, hnodup, fun id hid => (hzero id hid).1⟩, hsteps, hdistinct,
      fun link hlink => (hvalid link hlink).1⟩
  · rintro ⟨⟨hevents, hnodup, hzero⟩, hsteps, hdistinct, hvalid⟩
    exact ⟨(), hevents, (), hsteps, (), ⟨fun id hid => ⟨hzero id hid, trivial⟩, hnodup⟩,
      fun link hlink => ⟨hvalid link hlink, trivial⟩, hdistinct⟩

theorem newSourceLinks_ok_iff {links : SourceLinks} :
    newSourceLinks eventIDs planSteps = .ok links ↔
      checkSourceLinks eventIDs planSteps = .ok () ∧ links.eventIDs = eventIDs ∧
        links.planSteps = planSteps := by
  rw [newSourceLinks, certify_map_ok_iff]
  constructor
  · rintro ⟨h, rfl⟩
    exact ⟨h, rfl, rfl⟩
  · obtain ⟨es, ps, _⟩ := links
    rintro ⟨h, rfl, rfl⟩
    exact ⟨h, rfl⟩

@[simp] theorem SourceLinks.validate_eq (links : SourceLinks) : links.validate = .ok () :=
  links.checked

/-! ### Contract summaries -/

/-- Check a contract's list. -/
def validateContractItems (field : String) (values : List String) : GraphResult Unit := do
  ensure (values.length ≤ maximumContractItems) (.invalid field "exceeds the item limit")
  checkDistinct (fun value => validateBoundedText field value maximumContractItemBytes)
    (fun _ => .invalid field "contains a duplicate item") (fun _ => .ok ()) id values

/-- Check a contract. -/
def checkContractSummary (purpose : String) (inputs outputs effects : List String) :
    GraphResult Unit :=
  if purpose = "" ∧ inputs = [] ∧ outputs = [] ∧ effects = [] then .ok ()
  else do
    validateBoundedText "contract.purpose" purpose maximumContractPurposeBytes
    validateContractItems "contract.inputs" inputs
    validateContractItems "contract.outputs" outputs
    validateContractItems "contract.effects" effects

/-- The shallow behaviour of a node. -/
structure ContractSummary where
  purpose : String
  (inputs outputs effects : List String)
  checked : checkContractSummary purpose inputs outputs effects = .ok ()
deriving DecidableEq

/-- The summary that says nothing. -/
def ContractSummary.empty : ContractSummary := ⟨"", [], [], [], rfl⟩

/-- Check again. -/
def ContractSummary.validate (summary : ContractSummary) : GraphResult Unit :=
  checkContractSummary summary.purpose summary.inputs summary.outputs summary.effects

@[simp] theorem ContractSummary.validate_eq (summary : ContractSummary) :
    summary.validate = .ok () :=
  summary.checked

/-! ### Nodes and edges -/

/-- One node of a revision. -/
structure Node where
  id : NodeID
  nodeClass : NodeClass
  status : NodeStatus
  displayName : String
  contract : ContractSummary
  sources : SourceLinks
  identified : id.isZero = false
  named : validateBoundedText "node.display_name" displayName maximumNodeDisplayNameBytes = .ok ()
deriving DecidableEq

/-- A checked node. -/
def newNode (id : NodeID) (nodeClass : OpenEnum NodeClass) (status : OpenEnum NodeStatus)
    (displayName : String) (contract : ContractSummary) (sources : SourceLinks) :
    GraphResult Node := do
  let identified ← certify (ensure (id.isZero = false) (.invalid "node.id" "must not be empty"))
  let nodeClass ← nodeClass.require (.invalid "node.class" "is not supported")
  let status ← status.require (.invalid "node.status" "is not supported")
  let named ← certify
    (validateBoundedText "node.display_name" displayName maximumNodeDisplayNameBytes)
  contract.validate
  sources.validate
  return {
    id, nodeClass, status, displayName, contract, sources
    identified := ensure_ok_iff.1 identified.down
    named := named.down }

/-- Check again. -/
def Node.validate (node : Node) : GraphResult Unit :=
  (newNode node.id node.nodeClass node.status node.displayName node.contract node.sources).map
    fun _ => ()

theorem newNode_ok_iff {id : NodeID} {nodeClass : NodeClass} {status : NodeStatus}
    {displayName : String} {contract : ContractSummary} {node : Node} :
    newNode id nodeClass status displayName contract sources = .ok node ↔
      node.id = id ∧ node.nodeClass = nodeClass ∧ node.status = status ∧
        node.displayName = displayName ∧ node.contract = contract ∧ node.sources = sources := by
  simp only [newNode, OpenEnum.require_declared, ContractSummary.validate_eq,
    SourceLinks.validate_eq, ok_bind, run_ok_iff]
  constructor
  · rintro ⟨_, _, _, _, rfl⟩
    exact ⟨rfl, rfl, rfl, rfl, rfl, rfl⟩
  · rintro ⟨rfl, rfl, rfl, rfl, rfl, rfl⟩
    exact ⟨⟨ensure_of node.identified _⟩, certify_eq_ok _, ⟨node.named⟩, certify_eq_ok _, rfl⟩

@[simp] theorem Node.validate_eq (node : Node) : node.validate = .ok () := by
  have h : newNode node.id node.nodeClass node.status node.displayName node.contract node.sources =
      .ok node := newNode_ok_iff.2 ⟨rfl, rfl, rfl, rfl, rfl, rfl⟩
  rw [Node.validate, h]
  rfl

/-- One edge of a revision. -/
structure Edge where
  id : EdgeID
  edgeClass : EdgeClass
  (fromNode toNode : NodeID)
  sources : SourceLinks
  identified : id.isZero = false
  anchored : fromNode.isZero = false ∧ toNode.isZero = false
deriving DecidableEq

/-- A checked edge. -/
def newEdge (id : EdgeID) (edgeClass : OpenEnum EdgeClass) (fromNode toNode : NodeID)
    (sources : SourceLinks) : GraphResult Edge := do
  let identified ← certify (ensure (id.isZero = false) (.invalid "edge.id" "must not be empty"))
  let edgeClass ← edgeClass.require (.invalid "edge.class" "is not supported")
  let anchored ← certify (ensure (fromNode.isZero = false ∧ toNode.isZero = false)
    (.invalid "edge.endpoints" "must not contain an empty node identity"))
  sources.validate
  return {
    id, edgeClass, fromNode, toNode, sources
    identified := ensure_ok_iff.1 identified.down
    anchored := ensure_ok_iff.1 anchored.down }

/-- Check again. -/
def Edge.validate (edge : Edge) : GraphResult Unit :=
  (newEdge edge.id edge.edgeClass edge.fromNode edge.toNode edge.sources).map fun _ => ()

theorem newEdge_ok_iff {id : EdgeID} {edgeClass : EdgeClass} {fromNode toNode : NodeID}
    {edge : Edge} :
    newEdge id edgeClass fromNode toNode sources = .ok edge ↔
      edge.id = id ∧ edge.edgeClass = edgeClass ∧ edge.fromNode = fromNode ∧
        edge.toNode = toNode ∧ edge.sources = sources := by
  simp only [newEdge, OpenEnum.require_declared, SourceLinks.validate_eq, ok_bind, run_ok_iff]
  constructor
  · rintro ⟨_, _, _, _, rfl⟩
    exact ⟨rfl, rfl, rfl, rfl, rfl⟩
  · rintro ⟨rfl, rfl, rfl, rfl, rfl⟩
    exact ⟨⟨ensure_of edge.identified _⟩, certify_eq_ok _, ⟨ensure_of edge.anchored _⟩,
      certify_eq_ok _, rfl⟩

@[simp] theorem Edge.validate_eq (edge : Edge) : edge.validate = .ok () := by
  have h : newEdge edge.id edge.edgeClass edge.fromNode edge.toNode edge.sources = .ok edge :=
    newEdge_ok_iff.2 ⟨rfl, rfl, rfl, rfl, rfl⟩
  rw [Edge.validate, h]
  rfl

/-! ### Graphs and revisions -/

/-- The stable identity of a task's graph. -/
structure Graph where
  id : GraphID
  taskID : TaskID
  createdAt : Timestamp

/-- Check a graph's identity. -/
def Graph.validate (graph : Graph) : GraphResult Unit := do
  ensure (graph.id.isZero = false) (.invalid "graph.id" "must not be empty")
  ensure (graph.taskID.isZero = false) (.invalid "graph.task_id" "must not be empty")
  ensure (validUTCTime graph.createdAt = true)
    (.invalid "graph.created_at" "must be a non-zero UTC timestamp")

/-- The only schema version. -/
def currentSchemaVersion : UInt32 := 1

/-- Check a revision's metadata. -/
def checkRevisionMetadata (id : GraphRevisionID) (graphID : GraphID) (ordinal : UInt64)
    (parentID : Option GraphRevisionID) (schemaVersion : UInt32) (createdAt : Timestamp)
    (sources : SourceLinks) : GraphResult Unit := do
  ensure (id.isZero = false) (.invalid "revision.id" "must not be empty")
  ensure (graphID.isZero = false) (.invalid "revision.graph_id" "must not be empty")
  ensure (ordinal ≠ 0) (.invalid "revision.ordinal" "must be greater than zero")
  ensure (ordinal = 1 ↔ parentID = none)
    (.invalid "revision.parent_id" "must be absent only for the first revision")
  ensure (∀ parent ∈ parentID, parent.isZero = false ∧ parent ≠ id)
    (.invalid "revision.parent_id" "must identify a distinct prior revision")
  ensure (schemaVersion = currentSchemaVersion)
    (.invalid "revision.schema_version" "is not supported")
  ensure (validUTCTime createdAt = true)
    (.invalid "revision.created_at" "must be a non-zero UTC timestamp")
  sources.validate

/-- What binds a revision to its graph and its parent. -/
structure RevisionMetadata where
  id : GraphRevisionID
  graphID : GraphID
  ordinal : UInt64
  parentID : Option GraphRevisionID
  schemaVersion : UInt32
  createdAt : Timestamp
  sources : SourceLinks
  checked :
    checkRevisionMetadata id graphID ordinal parentID schemaVersion createdAt sources = .ok ()

/-- Checked metadata. -/
def newRevisionMetadata (id : GraphRevisionID) (graphID : GraphID) (ordinal : UInt64)
    (parentID : Option GraphRevisionID) (schemaVersion : UInt32) (createdAt : Timestamp)
    (sources : SourceLinks) : GraphResult RevisionMetadata :=
  (certify (checkRevisionMetadata id graphID ordinal parentID schemaVersion createdAt sources)).map
    fun h => ⟨id, graphID, ordinal, parentID, schemaVersion, createdAt, sources, h.down⟩

section

variable (metadata : RevisionMetadata)

/-- Check again. -/
def RevisionMetadata.validate : GraphResult Unit :=
  checkRevisionMetadata metadata.id metadata.graphID metadata.ordinal metadata.parentID
    metadata.schemaVersion metadata.createdAt metadata.sources

@[simp] theorem RevisionMetadata.validate_eq : metadata.validate = .ok () :=
  metadata.checked

/-- Check a whole revision. -/
def checkRevision (nodes : List Node) (edges : List Edge) : GraphResult Unit := do
  metadata.validate
  checkDistinct Node.validate
    (fun _ => .invalid "revision.nodes" "contains a duplicate stable identity") (fun _ => .ok ())
    Node.id nodes
  checkDistinct Edge.validate
    (fun _ => .invalid "revision.edges" "contains a duplicate stable identity")
    (fun edge => do
      ensure (edge.fromNode ∈ nodes.map Node.id)
        (.invalid "revision.edges" "references an absent source node")
      ensure (edge.toNode ∈ nodes.map Node.id)
        (.invalid "revision.edges" "references an absent destination node"))
    Edge.id edges

/-- A complete snapshot of a task's graph. -/
structure Revision where
  metadata : RevisionMetadata
  nodes : List Node
  edges : List Edge
  checked : checkRevision metadata nodes edges = .ok ()

/-- A checked revision. -/
def newRevision (nodes : List Node) (edges : List Edge) : GraphResult Revision :=
  (certify (checkRevision metadata nodes edges)).map fun h => ⟨metadata, nodes, edges, h.down⟩

end

/-- Check again. -/
def Revision.validate (revision : Revision) : GraphResult Unit :=
  checkRevision revision.metadata revision.nodes revision.edges

/-- Distinct nodes, and distinct edges between them, are a revision under any metadata. -/
theorem checkRevision_ok_iff {metadata : RevisionMetadata} {nodes : List Node} {edges : List Edge} :
    checkRevision metadata nodes edges = .ok () ↔
      (nodes.map Node.id).Nodup ∧ (edges.map Edge.id).Nodup ∧
        ∀ edge ∈ edges, edge.fromNode ∈ nodes.map Node.id ∧ edge.toNode ∈ nodes.map Node.id := by
  simp only [checkRevision, RevisionMetadata.validate_eq, ok_bind, run_ok_iff, checkDistinct_ok_iff,
    Node.validate_eq, Edge.validate_eq]
  constructor
  · rintro ⟨_, ⟨-, hnodes⟩, hends, hedges⟩
    refine ⟨hnodes, hedges, fun edge hedge => ?_⟩
    obtain ⟨-, _, hfrom, hto⟩ := hends edge hedge
    exact ⟨hfrom, hto⟩
  · rintro ⟨hnodes, hedges, hends⟩
    refine ⟨(), ⟨fun _ _ => ⟨trivial, trivial⟩, hnodes⟩, fun edge hedge => ?_, hedges⟩
    exact ⟨trivial, (), hends edge hedge⟩

end Codeflux.TaskGraph
