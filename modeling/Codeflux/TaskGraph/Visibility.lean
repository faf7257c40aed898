import Codeflux.TaskGraph.Model
import Codeflux.Library.FinDigraph
import Codeflux.Library.KeySort
import Mathlib.Data.String.Basic

/-!
# Modes of a graph view

The program view shows every node and the execution view all but the requirements. The evidence view
starts from requirements, obligations and results, and follows the edges that carry evidence, in
both directions, until no node is added.
-/

namespace Codeflux.TaskGraph

open Library Domain List

/-- One projection over a task's graph. -/
inductive Mode
  | program | execution | evidence
deriving DecidableEq

instance : Declared Mode where
  all := [.program, .execution, .evidence]
  text
    | .program => "program"
    | .execution => "execution"
    | .evidence => "evidence"

/-- The part of a revision a mode shows. -/
structure ModeSlice where
  mode : Mode
  nodes : List Node
  edges : List Edge

/-- The classes at which the evidence view starts. -/
def NodeClass.startsEvidence (nodeClass : NodeClass) : Bool :=
  nodeClass = .requirement || nodeClass = .obligation || nodeClass = .artifactResult

/-- The classes along which the evidence view extends. -/
def EdgeClass.carriesEvidence (edgeClass : EdgeClass) : Bool :=
  edgeClass = .dataProvenance || edgeClass = .evidenceDependency || edgeClass = .reconciliation ||
    edgeClass = .compensation

variable (revision : Revision)

/-- The nodes of some classes. -/
def Revision.nodeIDs (select : NodeClass → Bool) : Finset NodeID :=
  ((revision.nodes.filter fun node => select node.nodeClass).map Node.id).toFinset

/-- The ends of the edges that carry evidence. -/
def Revision.evidenceEnds : List (NodeID × NodeID) :=
  (revision.edges.filter fun edge => edge.edgeClass.carriesEvidence).map fun edge =>
    (edge.fromNode, edge.toNode)

/-- The nodes a mode shows. -/
def Revision.visible : Mode → Finset NodeID
  | .program => revision.nodeIDs fun _ => true
  | .execution => revision.nodeIDs (· ≠ .requirement)
  | .evidence => saturate revision.evidenceEnds (revision.nodeIDs NodeClass.startsEvidence)

/-- The view of a revision. -/
def deriveModeVisibility (mode : OpenEnum Mode) : GraphResult ModeSlice := do
  revision.validate
  let mode ← mode.require (.projection "mode" "is not supported")
  let visible := revision.visible mode
  return {
    mode
    nodes := sortOn (·.id.value) (revision.nodes.filter (·.id ∈ visible))
    edges := sortOn (·.id.value)
      (revision.edges.filter fun edge => edge.fromNode ∈ visible ∧ edge.toNode ∈ visible) }

/-- Two nodes are joined by an edge that carries evidence, in either direction. -/
def Revision.EvidenceLink (x y : NodeID) : Prop :=
  ∃ edge ∈ revision.edges,
    edge.edgeClass ∈ [.dataProvenance, .evidenceDependency, .reconciliation, .compensation] ∧
      (edge.fromNode = x ∧ edge.toNode = y ∨ edge.fromNode = y ∧ edge.toNode = x)

/-- A path of such edges leads to a node from a requirement, an obligation or a result. -/
def Revision.Evidenced (id : NodeID) : Prop :=
  ∃ start ∈ revision.nodes, start.nodeClass ∈ [.requirement, .obligation, .artifactResult] ∧
    Relation.ReflTransGen revision.EvidenceLink start.id id

variable {revision}

theorem linked_evidenceEnds : Linked revision.evidenceEnds = revision.EvidenceLink := by
  funext x y
  simp only [Linked, Revision.evidenceEnds, Revision.EvidenceLink, EdgeClass.carriesEvidence,
    mem_map, mem_filter, Prod.mk.injEq, Bool.or_eq_true, decide_eq_true_eq, mem_cons,
    not_mem_nil, or_false, ← exists_or, eq_iff_iff, or_assoc]
  refine exists_congr fun edge => ?_
  tauto

theorem mem_visible_evidence_iff {id : NodeID} :
    id ∈ revision.visible .evidence ↔ revision.Evidenced id := by
  rw [Revision.visible, mem_saturate_iff, linked_evidenceEnds]
  simp only [Revision.nodeIDs, Revision.Evidenced, NodeClass.startsEvidence, mem_toFinset,
    mem_map, mem_filter, Bool.or_eq_true, decide_eq_true_eq, mem_cons,
    not_mem_nil, or_false, or_assoc]
  constructor
  · rintro ⟨_, ⟨start, ⟨hstart, hclass⟩, rfl⟩, hpath⟩
    exact ⟨start, hstart, hclass, hpath⟩
  · rintro ⟨start, hstart, hclass, hpath⟩
    exact ⟨_, ⟨start, ⟨hstart, hclass⟩, rfl⟩, hpath⟩

/-- **The evidence view is the closure under evidence edges**: each node that a path reaches once,
and each edge between two of them once. -/
theorem deriveModeVisibility_evidence (revision : Revision) :
    ∃ slice, deriveModeVisibility revision (.declared .evidence) = .ok slice ∧
      (∀ node, node ∈ slice.nodes ↔ node ∈ revision.nodes ∧ revision.Evidenced node.id) ∧
      (∀ edge, edge ∈ slice.edges ↔ edge ∈ revision.edges ∧
        edge.fromNode ∈ slice.nodes.map Node.id ∧ edge.toNode ∈ slice.nodes.map Node.id) ∧
      slice.nodes.Nodup ∧ slice.edges.Nodup := by
  obtain ⟨hnodes, hedges, hends⟩ := checkRevision_ok_iff.1 revision.checked
  refine ⟨_, congrArg (· >>= _) revision.checked, fun node => ?_, fun edge => ?_, ?_, ?_⟩
  · simp only [mem_sortOn, mem_filter, decide_eq_true_eq, mem_visible_evidence_iff]
  · have hshown {id : NodeID} (h : id ∈ revision.nodes.map Node.id) :
        id ∈ (sortOn (·.id.value) (revision.nodes.filter
          (·.id ∈ revision.visible .evidence))).map Node.id ↔ id ∈ revision.visible .evidence := by
      obtain ⟨node, hnode, rfl⟩ := mem_map.1 h
      simp only [mem_map, mem_sortOn, mem_filter, decide_eq_true_eq]
      exact ⟨fun ⟨_, h, heq⟩ => heq ▸ h.2, fun h => ⟨node, ⟨hnode, h⟩, rfl⟩⟩
    simp only [mem_sortOn, mem_filter, decide_eq_true_eq]
    refine and_congr_right fun hedge => ?_
    exact and_congr (hshown (hends edge hedge).1).symm (hshown (hends edge hedge).2).symm
  · exact (sortOn_perm _ _).nodup_iff.2 (hnodes.of_map.filter _)
  · exact (sortOn_perm _ _).nodup_iff.2 (hedges.of_map.filter _)

end Codeflux.TaskGraph
