import Codeflux.TaskGraph.Projector

/-!
# What a fact writes

Seen from outside, a projection is a table of entries, each with a mark that never changes, a
status, and links to its sources. A write to an entry that is there must agree with its mark, and
adds to its links.
-/

namespace Codeflux.TaskGraph

open Library Domain List

/-! ### Entries -/

/-- What an entry is about. -/
inductive Key
  | node (id : NodeID)
  | edge (id : EdgeID)
deriving DecidableEq

/-- What never changes about an entry. -/
inductive Mark
  | node (nodeClass : NodeClass) (displayName : String) (contract : ContractSummary)
  | edge (edgeClass : EdgeClass) (source target : NodeID)

/-- A node or an edge. Only nodes have a status. -/
structure Entry where
  mark : Mark
  status : Option NodeStatus
  sources : SourceLinks

/-- The entry of a node. -/
def Node.entry (node : Node) : Entry :=
  ⟨.node node.nodeClass node.displayName node.contract, some node.status, node.sources⟩

/-- The entry of an edge. -/
def Edge.entry (edge : Edge) : Entry :=
  ⟨.edge edge.edgeClass edge.fromNode edge.toNode, none, edge.sources⟩

variable (projection : GraphProjection)

/-- The table that a projection is. -/
def GraphProjection.entry : Key → Option Entry
  | .node id => (projection.nodes.lookup id).map Node.entry
  | .edge id => (projection.edges.lookup id).map Edge.entry

/-- Every node and edge is filed under its identity. -/
structure GraphProjection.Filed (projection : GraphProjection) : Prop where
  node_id : ∀ id node, projection.nodes.lookup id = some node → node.id = id
  edge_id : ∀ id edge, projection.edges.lookup id = some edge → edge.id = id

/-- A write to one entry. -/
inductive Write
  | node (id : NodeID) (nodeClass : NodeClass) (status : NodeStatus) (displayName : String)
      (contract : ContractSummary) (sources : SourceLinks)
  | edge (id : EdgeID) (edgeClass : EdgeClass) (source target : NodeID) (sources : SourceLinks)

namespace Write

/-- The entry written to. -/
def key : Write → Key
  | node id .. => .node id
  | edge id .. => .edge id

/-- What identifies the entry. -/
def mark : Write → Mark
  | node _ nodeClass _ displayName contract _ => .node nodeClass displayName contract
  | edge _ edgeClass source target _ => .edge edgeClass source target

/-- The status that is written. -/
def status : Write → Option NodeStatus
  | node _ _ status _ _ _ => some status
  | edge .. => none

/-- The links that are added. -/
def sources : Write → SourceLinks
  | node _ _ _ _ _ sources => sources
  | edge _ _ _ _ sources => sources

/-- The write, carried out. -/
def put : Write → GraphResult GraphProjection
  | node id nodeClass status displayName contract sources =>
    putNode projection id nodeClass status displayName contract sources
  | edge id edgeClass source target sources => putEdge projection id edgeClass source target sources

/-- The links of an entry after a write to it. -/
def Merges (write : Write) : Option Entry → SourceLinks → Prop
  | none, links => links = write.sources
  | some entry, links => entry.mark = write.mark ∧
      mergeSources entry.sources write.sources = .ok links

/-- The ends of an edge that is written are there. -/
def Anchored (write : Write) (projection : GraphProjection) : Prop :=
  ∀ edgeClass source target, write.mark = .edge edgeClass source target →
    projection.entry (.node source) ≠ none ∧ projection.entry (.node target) ≠ none

end Write

/-- Everything that a write does. -/
structure Puts (write : Write) (projection next : GraphProjection) : Prop where
  graph_eq : next.graph = projection.graph
  revision_eq : next.revision = projection.revision
  lastSequence_eq : next.lastSequence = projection.lastSequence
  pendingChange_eq : next.pendingChange = projection.pendingChange
  written : ∃ links, next.entry write.key = some ⟨write.mark, write.status, links⟩ ∧
    write.Merges (projection.entry write.key) links
  others : ∀ key, key ≠ write.key → next.entry key = projection.entry key
  anchored : write.Anchored projection
  filed : projection.Filed → next.Filed

theorem entry_insert_node (id : NodeID) (node : Node) (key : Key) :
    ({ projection with nodes := projection.nodes.insert id node } : GraphProjection).entry key =
      if key = .node id then some node.entry else projection.entry key := by
  cases key <;> simp [GraphProjection.entry, lookup_insert_eq, apply_ite (Option.map Node.entry)]

theorem entry_insert_edge (id : EdgeID) (edge : Edge) (key : Key) :
    ({ projection with edges := projection.edges.insert id edge } : GraphProjection).entry key =
      if key = .edge id then some edge.entry else projection.entry key := by
  cases key <;> simp [GraphProjection.entry, lookup_insert_eq, apply_ite (Option.map Edge.entry)]

variable {id : NodeID} {node : Node} {edge : Edge} {sources links left right : SourceLinks}
  {α : Type} {projection : GraphProjection}

theorem entry_node_ne_none : projection.entry (.node id) ≠ none ↔ id ∈ projection.nodes := by
  rw [GraphProjection.entry, Ne, Option.map_eq_none_iff, AList.lookup_eq_none, not_not]

theorem puts_insert_node {nodeClass : NodeClass}
    {status : NodeStatus} {displayName : String} {contract : ContractSummary}
    (hnode : newNode id nodeClass status displayName contract links = .ok node)
    (hmerges : (Write.node id nodeClass status displayName contract sources).Merges
      (projection.entry (.node id)) links) :
    Puts (.node id nodeClass status displayName contract sources) projection
      { projection with nodes := projection.nodes.insert id node } := by
  obtain ⟨hid, hclass, hstatus, hname, hcontract, hlinks⟩ := newNode_ok_iff.1 hnode
  refine ⟨rfl, rfl, rfl, rfl, ⟨links, ?_, hmerges⟩, ?_, fun _ _ _ h => (nomatch h), ?_⟩
  · refine (entry_insert_node projection id node _).trans ((if_pos rfl).trans ?_)
    rw [Node.entry, hclass, hstatus, hname, hcontract, hlinks]
    rfl
  · intro key hkey
    exact (entry_insert_node projection id node key).trans (if_neg hkey)
  · exact fun h => ⟨forall_lookup_insert h.node_id hid, h.edge_id⟩

theorem puts_insert_edge {id : EdgeID} {edgeClass : EdgeClass}
    {source target : NodeID} (hedge : newEdge id edgeClass source target links = .ok edge)
    (hsource : source ∈ projection.nodes) (htarget : target ∈ projection.nodes)
    (hmerges : (Write.edge id edgeClass source target sources).Merges
      (projection.entry (.edge id)) links) :
    Puts (.edge id edgeClass source target sources) projection
      { projection with edges := projection.edges.insert id edge } := by
  obtain ⟨hid, hclass, hfrom, hto, hlinks⟩ := newEdge_ok_iff.1 hedge
  refine ⟨rfl, rfl, rfl, rfl, ⟨links, ?_, hmerges⟩, ?_, ?_, ?_⟩
  · refine (entry_insert_edge projection id edge _).trans ((if_pos rfl).trans ?_)
    rw [Edge.entry, hclass, hfrom, hto, hlinks]
    rfl
  · intro key hkey
    exact (entry_insert_edge projection id edge key).trans (if_neg hkey)
  · rintro _ _ _ ⟨⟩
    exact ⟨entry_node_ne_none.2 hsource, entry_node_ne_none.2 htarget⟩
  · exact fun h => ⟨h.node_id, forall_lookup_insert h.edge_id hid⟩

variable {write : Write} {next : GraphProjection}

/-- **Everything that a write does.** -/
theorem Write.put_ok (h : write.put projection = .ok next) : Puts write projection next := by
  cases write with
  | node id nodeClass status displayName contract sources =>
    simp only [Write.put, putNode] at h
    split at h
    · next existing hexisting =>
      simp only [run_ok_iff] at h
      obtain ⟨_, ⟨hclass, hname, hcontract⟩, links, hmerge, node, hnode, rfl⟩ := h
      refine puts_insert_node hnode ?_
      rw [GraphProjection.entry, hexisting]
      refine ⟨?_, hmerge⟩
      rw [Node.entry, hclass, hname, hcontract]
      rfl
    · next habsent =>
      simp only [run_ok_iff] at h
      obtain ⟨node, hnode, rfl⟩ := h
      refine puts_insert_node hnode ?_
      rw [GraphProjection.entry, habsent]
      rfl
  | edge id edgeClass source target sources =>
    simp only [Write.put, putEdge, run_ok_iff] at h
    obtain ⟨_, hsource, _, htarget, h⟩ := h
    split at h
    · next existing hexisting =>
      simp only [run_ok_iff] at h
      obtain ⟨_, ⟨hclass, hfrom, hto⟩, links, hmerge, edge, hedge, rfl⟩ := h
      refine puts_insert_edge hedge hsource htarget ?_
      rw [GraphProjection.entry, hexisting]
      refine ⟨?_, hmerge⟩
      rw [Edge.entry, hclass, hfrom, hto]
      rfl
    · next habsent =>
      simp only [run_ok_iff] at h
      obtain ⟨edge, hedge, rfl⟩ := h
      refine puts_insert_edge hedge hsource htarget ?_
      rw [GraphProjection.entry, habsent]
      rfl

/-- A write to an entry that is there is accepted when the links can be merged. -/
theorem Write.put_of_merge {entry : Entry}
    (hfiled : projection.Filed) (hentry : projection.entry write.key = some entry)
    (hmark : entry.mark = write.mark) (hanchored : write.Anchored projection)
    (hmerge : mergeSources entry.sources write.sources = .ok links) :
    ∃ next, write.put projection = .ok next := by
  cases write with
  | node id nodeClass status displayName contract sources =>
    obtain ⟨node, hnode, rfl⟩ := Option.map_eq_some_iff.1 hentry
    obtain ⟨rfl, rfl, rfl⟩ : node.nodeClass = nodeClass ∧ node.displayName = displayName ∧
        node.contract = contract := by simpa [Node.entry, Write.mark] using hmark
    have hid := hfiled.node_id id node hnode
    have hnew : newNode id node.nodeClass status node.displayName node.contract links =
        .ok { node with status, sources := links } :=
      newNode_ok_iff.2 ⟨hid, rfl, rfl, rfl, rfl, rfl⟩
    have hmerge : mergeSources node.sources sources = .ok links := hmerge
    simp only [Write.put, putNode, hnode, ensure_of, and_self, ok_bind, hmerge, hnew]
    exact ⟨_, rfl⟩
  | edge id edgeClass source target sources =>
    obtain ⟨edge, hedge, rfl⟩ := Option.map_eq_some_iff.1 hentry
    obtain ⟨rfl, rfl, rfl⟩ : edge.edgeClass = edgeClass ∧ edge.fromNode = source ∧
        edge.toNode = target := by simpa [Edge.entry, Write.mark] using hmark
    have hid := hfiled.edge_id id edge hedge
    have hnew : newEdge id edge.edgeClass edge.fromNode edge.toNode links =
        .ok { edge with sources := links } :=
      newEdge_ok_iff.2 ⟨hid, rfl, rfl, rfl, rfl⟩
    have hmerge : mergeSources edge.sources sources = .ok links := hmerge
    obtain ⟨hsource, htarget⟩ := hanchored _ _ _ rfl
    simp only [Write.put, putEdge, ensure_of (entry_node_ne_none.1 hsource),
      ensure_of (entry_node_ne_none.1 htarget), hedge, ensure_of, and_self, ok_bind, hmerge, hnew]
    exact ⟨_, rfl⟩

/-! ### The writes of a fact -/

/-- A node with the edge that leads to it. -/
structure Spot where
  nodeID : NodeID
  nodeClass : NodeClass
  displayName : String
  edgeID : EdgeID
  edgeClass : EdgeClass
  predecessor : NodeID

/-- The writes of a spot. -/
def Spot.writes (spot : Spot) (status : NodeStatus) (sources : SourceLinks) : List Write :=
  [.node spot.nodeID spot.nodeClass status spot.displayName .empty sources,
    .edge spot.edgeID spot.edgeClass spot.predecessor spot.nodeID sources]

/-- The spot of a plan. -/
def PlanFact.region (fact : PlanFact) : Spot :=
  ⟨fact.regionNodeID, .planRegion, fact.regionDisplayName, fact.requirementEdgeID, .control,
    fact.requirementNodeID⟩

/-- The spot of a plan step. -/
def PlanFact.stepSpot (fact : PlanFact) (step : PlanStepFact) : Spot :=
  ⟨step.nodeID, .planRegion, step.displayName, step.controlEdge, .control, fact.regionNodeID⟩

/-- The writes of the steps of a plan. -/
def stepWrites (fact : PlanFact) (sources : SourceLinks) : List PlanStepFact →
    GraphResult (List Write)
  | [] => .ok []
  | step :: steps => do
    let stepSources ← newSourceLinks sources.eventIDs [⟨fact.revision, step.stepID⟩]
    let rest ← stepWrites fact sources steps
    return (fact.stepSpot step).writes .pending stepSources ++ rest

/-- A fact about work on a step of a plan: the nodes it observes, the step and the status. -/
structure Observation where
  spots : List Spot
  planRevision : UInt64
  planStepID : String

/-- What an operation observes. -/
def OperationFact.observation (fact : OperationFact) : Observation :=
  ⟨[⟨fact.nodeID, .atomOperation, fact.displayName, fact.controlEdge, .control, fact.planNodeID⟩],
    fact.planRevision, fact.planStepID⟩

/-- What an effect observes. -/
def EffectFact.observation (fact : EffectFact) : Observation :=
  ⟨[⟨fact.nodeID, .effect, fact.displayName, fact.controlEdge, .control, fact.operationNode⟩],
    fact.planRevision, fact.planStepID⟩

/-- What an approval observes. -/
def ApprovalFact.observation (fact : ApprovalFact) : Observation :=
  ⟨[⟨fact.nodeID, .branchMatchMerge, fact.displayName, fact.controlEdge, .control,
    fact.predecessor⟩], fact.planRevision, fact.planStepID⟩

/-- What a validation observes. -/
def ValidationFact.observation (fact : ValidationFact) : Observation :=
  ⟨⟨fact.obligationNodeID, .obligation, fact.displayName, fact.controlEdge, .control,
      fact.predecessor⟩ ::
      if fact.resultNodeID.isZero then []
      else [⟨fact.resultNodeID, .artifactResult, fact.resultDisplayName, fact.evidenceEdge,
        .evidenceDependency, fact.obligationNodeID⟩],
    fact.planRevision, fact.planStepID⟩

/-- The writes of an observation with its status. -/
def Observation.writes (observation : Observation) (status : Option NodeStatus)
    (incomplete : GraphError) (eventID : EventID) : GraphResult (List Write) := do
  let status ← status.elim (.error incomplete) .ok
  let sources ← eventAndPlanSources eventID observation.planRevision observation.planStepID
  return observation.spots.flatMap fun spot => spot.writes status sources

/-- The writes of a fact. -/
def factWrites (fact : Fact) (eventID : EventID) (eventSources : SourceLinks) :
    GraphResult (List Write) :=
  match fact with
  | .requirement fact =>
    .ok [.node fact.nodeID .requirement .passed fact.displayName fact.contract eventSources]
  | .plan fact => do
    let steps ← stepWrites fact eventSources fact.steps
    return fact.region.writes .active eventSources ++ steps
  | .operation fact => fact.observation.writes (ProjectionState.nodeStatus fact.state)
      (.projection "operation" "is incomplete") eventID
  | .effect fact => fact.observation.writes (ProjectionState.nodeStatus fact.state)
      (.projection "effect" "is incomplete") eventID
  | .approval fact => fact.observation.writes (ApprovalState.nodeStatus fact.state)
      (.projection "approval" "is incomplete") eventID
  | .validation fact => fact.observation.writes (ProjectionState.nodeStatus fact.state)
      (.projection "validation" "is incomplete") eventID
  | .artifact fact => do
    let status ← (ProjectionState.nodeStatus fact.state).elim
      (.error (.projection "artifact" "is incomplete")) .ok
    let sources ← eventAndOptionalPlanSources eventID fact.planRevision fact.planStepID
    return Spot.writes ⟨fact.nodeID, .artifactResult, fact.displayName, fact.provenanceEdge,
      .dataProvenance, fact.producerNode⟩ status sources
  | .retry fact => .ok [.edge fact.edgeID .retry fact.previousNodeID fact.retryNodeID eventSources]
  | .recovery fact => do
    let (relation, status) ← (RecoveryKind.relation fact.kind).elim
      (.error (.projection "recovery" "is incomplete")) .ok
    return Spot.writes ⟨fact.nodeID, .branchMatchMerge, fact.displayName, fact.relationEdge,
      relation, fact.checkpointNodeID⟩ status eventSources
  | .tokenDelta => .error (.projection "event.kind" "is not projectable")

variable {eventID : EventID}

section Apply

theorem putNodeWithEdge_eq (spot : Spot) (status : NodeStatus) (sources : SourceLinks)
    (projection : GraphProjection) :
    putNodeWithEdge projection spot.nodeID spot.nodeClass status spot.displayName spot.edgeID
        spot.edgeClass spot.predecessor sources =
      (spot.writes status sources).foldlM Write.put projection := by
  simp [putNodeWithEdge, Spot.writes, Write.put]

variable {fact : PlanFact}

theorem foldlM_applyPlanStep_ok_iff {steps : List PlanStepFact} :
    steps.foldlM (applyPlanStep fact sources) projection = .ok next ↔
      ∃ writes, stepWrites fact sources steps = .ok writes ∧
        writes.foldlM Write.put projection = .ok next := by
  induction steps generalizing projection with
  | nil => simp [stepWrites]
  | cons step steps ih =>
    have hspot : ∀ stepSources, putNodeWithEdge projection step.nodeID .planRegion .pending
        step.displayName step.controlEdge .control fact.regionNodeID stepSources =
        ((fact.stepSpot step).writes .pending stepSources).foldlM Write.put projection :=
      fun stepSources => putNodeWithEdge_eq (fact.stepSpot step) .pending stepSources projection
    simp only [foldlM_cons, applyPlanStep, stepWrites, run_ok_iff, ih, hspot]
    constructor
    · rintro ⟨middle, ⟨stepSources, hsources, hstep⟩, writes, hwrites, hrest⟩
      exact ⟨_, ⟨stepSources, hsources, writes, hwrites, rfl⟩,
        foldlM_append_ok_iff.2 ⟨middle, hstep, hrest⟩⟩
    · rintro ⟨_, ⟨stepSources, hsources, writes, hwrites, rfl⟩, hfold⟩
      obtain ⟨middle, hstep, hrest⟩ := foldlM_append_ok_iff.1 hfold
      exact ⟨middle, ⟨stepSources, hsources, hstep⟩, writes, hwrites, hrest⟩

theorem applyPlan_ok_iff :
    applyPlan projection fact sources = .ok next ↔
      ∃ writes, stepWrites fact sources fact.steps = .ok writes ∧
        (fact.region.writes .active sources ++ writes).foldlM Write.put projection = .ok next := by
  have hregion : putNodeWithEdge projection fact.regionNodeID .planRegion .active
      fact.regionDisplayName fact.requirementEdgeID .control fact.requirementNodeID sources =
      (fact.region.writes .active sources).foldlM Write.put projection :=
    putNodeWithEdge_eq fact.region .active sources projection
  simp only [applyPlan, bind_ok_iff, hregion, foldlM_applyPlanStep_ok_iff, foldlM_append_ok_iff,
    ← exists_and_left, and_left_comm]
  exact exists_comm

theorem applyValidation_eq (fact : ValidationFact) (status : NodeStatus) (eventID : EventID) :
    applyValidation projection fact status eventID =
      eventAndPlanSources eventID fact.planRevision fact.planStepID >>= fun sources =>
        (fact.observation.spots.flatMap fun spot => spot.writes status sources).foldlM Write.put
          projection := by
  unfold applyValidation ValidationFact.observation
  refine bind_congr fun sources => ?_
  rw [flatMap_cons, foldlM_append, ← putNodeWithEdge_eq]
  refine bind_congr fun middle => ?_
  split_ifs
  · simp
  · rw [flatMap_cons, flatMap_nil, append_nil, ← putNodeWithEdge_eq]

theorem bind_foldlM_ok_iff {x : GraphResult α} {f : α → List Write} :
    (x >>= fun a => (f a).foldlM Write.put projection) = .ok next ↔
      ∃ writes, (x >>= fun a => pure (f a)) = .ok writes ∧
        writes.foldlM Write.put projection = .ok next := by
  simp only [run_ok_iff, exists_exists_and_eq_and]

theorem Observation.writes_ok_iff {observation : Observation} {status : Option NodeStatus}
    {incomplete : GraphError} :
    ((status.elim (.error incomplete) .ok : GraphResult NodeStatus) >>= fun status =>
        eventAndPlanSources eventID observation.planRevision observation.planStepID >>=
          fun sources => (observation.spots.flatMap fun spot => spot.writes status sources).foldlM
            Write.put projection) = .ok next ↔
      ∃ writes, observation.writes status incomplete eventID = .ok writes ∧
        writes.foldlM Write.put projection = .ok next := by
  cases status with
  | none => simp [Observation.writes]
  | some status => exact bind_foldlM_ok_iff

/-- **Applying a fact is doing its writes in turn.** -/
theorem applyProjectionFact_ok_iff {fact : Fact} {eventSources : SourceLinks} :
    applyProjectionFact projection fact eventID eventSources = .ok next ↔
      ∃ writes, factWrites fact eventID eventSources = .ok writes ∧
        writes.foldlM Write.put projection = .ok next := by
  -- a fact with one spot puts the node and the edge that the spot writes
  have hsingle : ∀ spot : Spot, ∀ status sources,
      putNodeWithEdge projection spot.nodeID spot.nodeClass status spot.displayName spot.edgeID
        spot.edgeClass spot.predecessor sources =
      ([spot].flatMap fun spot => spot.writes status sources).foldlM Write.put projection := by
    intro spot status sources
    rw [putNodeWithEdge_eq, flatMap_cons, flatMap_nil, append_nil]
  cases fact with
  | requirement fact => simp [applyProjectionFact, factWrites, Write.put]
  | plan fact =>
    simp only [applyProjectionFact, factWrites, applyPlan_ok_iff, run_ok_iff,
      exists_exists_and_eq_and]
  | operation fact =>
    rw [factWrites, ← Observation.writes_ok_iff]
    simp only [applyProjectionFact, OperationFact.observation, ← hsingle]
  | effect fact =>
    rw [factWrites, ← Observation.writes_ok_iff]
    simp only [applyProjectionFact, EffectFact.observation, ← hsingle]
  | approval fact =>
    rw [factWrites, ← Observation.writes_ok_iff]
    simp only [applyProjectionFact, ApprovalFact.observation, ← hsingle]
  | validation fact =>
    rw [factWrites, ← Observation.writes_ok_iff]
    simp only [applyProjectionFact, applyValidation_eq]
    rfl
  | artifact fact =>
    cases hstatus : ProjectionState.nodeStatus fact.state with
    | none => simp [applyProjectionFact, factWrites, hstatus]
    | some status =>
      simp only [applyProjectionFact, factWrites, hstatus, Option.elim_some, ok_bind]
      rw [← bind_foldlM_ok_iff]
      simp [← putNodeWithEdge_eq]
  | retry fact => simp [applyProjectionFact, factWrites, Write.put]
  | recovery fact =>
    cases hrelation : RecoveryKind.relation fact.kind with
    | none => simp [applyProjectionFact, factWrites, hrelation]
    | some pair =>
      simp [applyProjectionFact, factWrites, ← putNodeWithEdge_eq]
  | tokenDelta => simp [applyProjectionFact, factWrites]

end Apply

/-! ### Merging links -/

theorem mem_appendNew [DecidableEq α] {left right : List α} {a : α} :
    a ∈ appendNew left right ↔ a ∈ left ∨ a ∈ right := by
  induction right generalizing left with
  | nil => simp [appendNew]
  | cons b right ih =>
    rw [appendNew, foldl_cons, ← appendNew, ih]
    split_ifs with hb
    · grind
    · simp [or_assoc]

theorem appendNew_of_subset [DecidableEq α] {left right : List α} (h : right ⊆ left) :
    appendNew left right = left := by
  induction right with
  | nil => rfl
  | cons b right ih =>
    rw [cons_subset] at h
    rw [appendNew, foldl_cons, if_pos h.1, ← appendNew, ih h.2]

theorem appendNew_singleton [DecidableEq α] {left : List α} {a : α} (h : a ∉ left) :
    appendNew left [a] = left ++ [a] := by
  simp [appendNew, h]

theorem planSteps_of_mergeSources (h : mergeSources left right = .ok links) :
    left.planSteps ⊆ links.planSteps ∧ right.planSteps ⊆ links.planSteps := by
  obtain ⟨-, -, hsteps⟩ := newSourceLinks_ok_iff.1 h
  rw [hsteps]
  exact ⟨fun _ h => mem_appendNew.2 (.inl h), fun _ h => mem_appendNew.2 (.inr h)⟩

/-- One more event can be linked while there is room. -/
theorem checkSourceLinks_concat_iff (hzero : eventID.isZero = false)
    (hfresh : eventID ∉ links.eventIDs) :
    checkSourceLinks (links.eventIDs ++ [eventID]) links.planSteps = .ok () ↔
      links.eventIDs.length < maximumSourceEventLinks := by
  obtain ⟨⟨-, hnodup, hnonzero⟩, hplan⟩ := checkSourceLinks_ok_iff.1 links.checked
  rw [checkSourceLinks_ok_iff, length_append, length_singleton]
  refine ⟨fun h => h.1.1, fun hlen => ⟨⟨hlen, ?_, ?_⟩, hplan⟩⟩
  · rw [← concat_eq_append]
    exact hnodup.concat hfresh
  · exact forall_mem_append.2 ⟨hnonzero, forall_mem_singleton.2 hzero⟩

/-- A link to a new event, with plan steps that are there, is accepted while there is room. -/
theorem exists_mergeSources_iff (hevent : right.eventIDs = [eventID])
    (hzero : eventID.isZero = false) (hfresh : eventID ∉ left.eventIDs)
    (hsteps : right.planSteps ⊆ left.planSteps) :
    (∃ links, mergeSources left right = .ok links) ↔
      left.eventIDs.length < maximumSourceEventLinks := by
  rw [mergeSources, hevent, appendNew_singleton hfresh, appendNew_of_subset hsteps,
    ← checkSourceLinks_concat_iff hzero hfresh]
  constructor
  · rintro ⟨links, h⟩
    exact (newSourceLinks_ok_iff.1 h).1
  · exact fun h => ⟨⟨_, _, h⟩, newSourceLinks_ok_iff.2 ⟨h, rfl, rfl⟩⟩

/-! ### Writes to entries that are there -/

namespace Write

/-- The table has the entry of a write, with its plan steps. -/
def Stands (write : Write) (projection : GraphProjection) : Prop :=
  ∃ entry, projection.entry write.key = some entry ∧ entry.mark = write.mark ∧
    write.sources.planSteps ⊆ entry.sources.planSteps

theorem stands_of_puts (h : Puts write projection next) : write.Stands next := by
  obtain ⟨links, hentry, hmerges⟩ := h.written
  refine ⟨_, hentry, rfl, ?_⟩
  cases hprior : projection.entry write.key with
  | none =>
    rw [hprior] at hmerges
    rw [hmerges]
    exact List.Subset.refl _
  | some entry =>
    rw [hprior] at hmerges
    exact (planSteps_of_mergeSources hmerges.2).2

/-- A write leaves every other entry as it is, and what stands in its own entry. -/
theorem Stands.of_puts {other : Write} (h : Puts write projection next)
    (hstands : other.Stands projection) : other.Stands next := by
  obtain ⟨entry, hentry, hmark, hsteps⟩ := hstands
  by_cases hkey : other.key = write.key
  · obtain ⟨links, hnext, hmerges⟩ := h.written
    rw [hkey] at hentry
    rw [hentry] at hmerges
    refine ⟨_, hkey ▸ hnext, hmerges.1.symm.trans hmark, ?_⟩
    exact List.Subset.trans hsteps (planSteps_of_mergeSources hmerges.2).1
  · exact ⟨entry, (h.others _ hkey).trans hentry, hmark, hsteps⟩

end Write

variable {writes : List Write}

theorem foldlM_put_stands (h : writes.foldlM Write.put projection = .ok next) :
    (∀ write ∈ writes, write.Stands next) ∧
      ∀ other : Write, other.Stands projection → other.Stands next := by
  refine foldlM_induction h ⟨nofun, fun _ ho => ho⟩ fun write writes projection middle hput ih => ?_
  have hputs := Write.put_ok hput
  obtain ⟨hrest, hkeep⟩ := ih
  refine ⟨?_, fun other ho => hkeep other (ho.of_puts hputs)⟩
  exact forall_mem_cons.2 ⟨hkeep write (Write.stands_of_puts hputs), hrest⟩

/-- An entry that is there has room for one more event. -/
def Write.HasRoom (write : Write) (projection : GraphProjection) : Prop :=
  ∀ entry, projection.entry write.key = some entry →
    entry.sources.eventIDs.length < maximumSourceEventLinks

/-- Writes that observe again what is there, for one new event. -/
structure Reapplies (eventID : EventID) (writes : List Write) (projection : GraphProjection) :
    Prop where
  filed : projection.Filed
  stands : ∀ write ∈ writes, write.Stands projection
  anchored : ∀ write ∈ writes, write.Anchored projection
  distinct : (writes.map Write.key).Nodup
  events : ∀ write ∈ writes, write.sources.eventIDs = [eventID]
  fresh : ∀ write ∈ writes, ∀ entry, projection.entry write.key = some entry →
    eventID ∉ entry.sources.eventIDs

theorem Puts.entry_ne_none (h : Puts write projection next) {key : Key}
    (hkey : projection.entry key ≠ none) :
    next.entry key ≠ none := by
  by_cases hk : key = write.key
  · obtain ⟨links, hentry, -⟩ := h.written
    rw [hk, hentry]
    exact Option.some_ne_none _
  · rwa [h.others key hk]

namespace Reapplies

theorem tail (h : Reapplies eventID (write :: writes) projection)
    (hputs : Puts write projection next) : Reapplies eventID writes next := by
  have hdistinct := h.distinct
  rw [map_cons, nodup_cons] at hdistinct
  refine ⟨hputs.filed h.filed, ?_, ?_, hdistinct.2, ?_, ?_⟩
  · exact fun w hw => (h.stands w (mem_cons_of_mem write hw)).of_puts hputs
  · intro w hw edgeClass source target hmark
    obtain ⟨hsource, htarget⟩ := h.anchored w (mem_cons_of_mem write hw) _ _ _ hmark
    exact ⟨hputs.entry_ne_none hsource, hputs.entry_ne_none htarget⟩
  · exact fun w hw => h.events w (mem_cons_of_mem write hw)
  · intro w hw entry hentry
    have hkey : w.key ≠ write.key := fun heq => hdistinct.1 (heq ▸ mem_map_of_mem hw)
    rw [hputs.others _ hkey] at hentry
    exact h.fresh w (mem_cons_of_mem write hw) entry hentry

/-- The first of the writes is accepted exactly when its entry has room. -/
theorem head_ok_iff (h : Reapplies eventID (write :: writes) projection)
    (hzero : eventID.isZero = false) :
    (∃ next, write.put projection = .ok next) ↔ write.HasRoom projection := by
  obtain ⟨entry, hentry, hmark, hsteps⟩ := h.stands write mem_cons_self
  have hiff := exists_mergeSources_iff (h.events write mem_cons_self) hzero
    (h.fresh write mem_cons_self entry hentry) hsteps
  constructor
  · rintro ⟨next, hput⟩ entry' hentry'
    obtain rfl : entry = entry' := Option.some.inj (hentry.symm.trans hentry')
    obtain ⟨links, -, hmerges⟩ := (Write.put_ok hput).written
    rw [hentry] at hmerges
    exact hiff.1 ⟨links, hmerges.2⟩
  · intro hroom
    obtain ⟨links, hmerge⟩ := hiff.2 (hroom entry hentry)
    exact Write.put_of_merge h.filed hentry hmark (h.anchored write mem_cons_self) hmerge

end Reapplies

/-- **Observing again what is there.** Writes for one new event to entries that are there are
accepted exactly when each of the entries has room for the event. -/
theorem foldlM_put_ok_iff (hzero : eventID.isZero = false)
    (h : Reapplies eventID writes projection) :
    (∃ next, writes.foldlM Write.put projection = .ok next) ↔
      ∀ write ∈ writes, write.HasRoom projection := by
  induction writes generalizing projection with
  | nil => simp [pure, Except.pure]
  | cons write writes ih =>
    have hdistinct := h.distinct
    rw [map_cons, nodup_cons] at hdistinct
    have hothers : ∀ {next}, Puts write projection next → ∀ w ∈ writes,
        (w.HasRoom next ↔ w.HasRoom projection) := by
      intro next hputs w hw
      have hkey : w.key ≠ write.key := fun heq => hdistinct.1 (heq ▸ mem_map_of_mem hw)
      rw [Write.HasRoom, Write.HasRoom, hputs.others _ hkey]
    constructor
    · rintro ⟨next, hfold⟩
      rw [foldlM_cons, bind_ok_iff] at hfold
      obtain ⟨middle, hput, hrest⟩ := hfold
      have hputs := Write.put_ok hput
      have hroom := (ih (h.tail hputs)).1 ⟨next, hrest⟩
      refine forall_mem_cons.2 ⟨(h.head_ok_iff hzero).1 ⟨middle, hput⟩, ?_⟩
      exact fun w hw => (hothers hputs w hw).1 (hroom w hw)
    · intro hroom
      rw [forall_mem_cons] at hroom
      obtain ⟨middle, hput⟩ := (h.head_ok_iff hzero).2 hroom.1
      have hputs := Write.put_ok hput
      obtain ⟨next, hrest⟩ := (ih (h.tail hputs)).2
        fun w hw => (hothers hputs w hw).2 (hroom.2 w hw)
      refine ⟨next, ?_⟩
      rwa [foldlM_cons, hput, ok_bind]

/-- Writes to different entries leave each entry as the write to it says, and all else in place. -/
theorem foldlM_put_entries (hdistinct : (writes.map Write.key).Nodup)
    (h : writes.foldlM Write.put projection = .ok next) :
    (∀ write ∈ writes, ∃ links, next.entry write.key = some ⟨write.mark, write.status, links⟩ ∧
      write.Merges (projection.entry write.key) links) ∧
      ∀ key, key ∉ writes.map Write.key → next.entry key = projection.entry key := by
  revert hdistinct
  refine foldlM_induction h (fun _ => ⟨nofun, fun _ _ => rfl⟩)
    fun write writes projection middle hput ih hdistinct => ?_
  rw [map_cons, nodup_cons] at hdistinct
  have hputs := Write.put_ok hput
  obtain ⟨hrest, hothers⟩ := ih hdistinct.2
  refine ⟨forall_mem_cons.2 ⟨?_, ?_⟩, ?_⟩
  · obtain ⟨links, hentry, hmerges⟩ := hputs.written
    exact ⟨links, (hothers _ hdistinct.1).trans hentry, hmerges⟩
  · intro w hw
    have hkey : w.key ≠ write.key := fun heq => hdistinct.1 (heq ▸ mem_map_of_mem hw)
    rw [← hputs.others _ hkey]
    exact hrest w hw
  · intro key hkey
    rw [map_cons, mem_cons, not_or] at hkey
    exact (hothers key hkey.2).trans (hputs.others key hkey.1)

end Codeflux.TaskGraph
