import Codeflux.TaskGraph.Model
import Mathlib.Data.String.Basic

/-!
# Inputs and outputs of the graph layout
-/

namespace Codeflux.GraphLayout

open Library Domain TaskGraph

/-- The version of the algorithm. -/
def algorithmVersion : String := "ltr-layered-scc-v1"

/-- The width of a node. -/
def defaultNodeWidth : Int64 := 240

/-- The height of a node. -/
def defaultNodeHeight : Int64 := 88

/-- The gap between columns. -/
def defaultRankGap : Int64 := 112

/-- The gap within a column. -/
def defaultSiblingGap : Int64 := 40

/-- The margin. -/
def defaultPadding : Int64 := 64

/-- The most nodes. -/
def maxLayoutNodes : Nat := 1200

/-- The most edges. -/
def maxLayoutEdges : Nat := 4800

/-- The least rank of a component with a node of the class. -/
def classRankFloor : OpenEnum NodeClass → Nat
  | .declared .requirement => 0
  | .declared .planRegion => 1
  | .declared .atomOperation => 2
  | .declared .branchMatchMerge => 2
  | .declared .effect => 3
  | .declared .obligation => 4
  | .declared .artifactResult => 5
  | .undeclared _ _ => 0

theorem classRankFloor_le (nodeClass : OpenEnum NodeClass) : classRankFloor nodeClass ≤ 5 := by
  cases nodeClass with
  | declared c => cases c <;> decide
  | undeclared raw h => exact Nat.zero_le 5

/-- A node to be placed. -/
structure Node where
  id : NodeID
  nodeClass : OpenEnum NodeClass

/-- A directed edge. -/
structure Edge where
  id : EdgeID
  (fromNode toNode : NodeID)

/-- A rectangle. -/
structure Rect where
  (x y width height : Int64)
deriving DecidableEq

/-- Its right side. -/
def Rect.right (rectangle : Rect) : Int64 := rectangle.x + rectangle.width

/-- Its lower side. -/
def Rect.bottom (rectangle : Rect) : Int64 := rectangle.y + rectangle.height

/-- Where a node is placed. -/
structure Placement where
  (nodeID componentKey : NodeID)
  (rank order : Int)
  bounds : Rect

/-- Nodes that share a rank because each reaches the others. -/
structure Component where
  key : NodeID
  members : List NodeID
  rank : Int

/-- The result of a layout. -/
structure Layout where
  algorithmVersion : String
  nodes : List Placement
  components : List Component
  bounds : Rect

/-- A layout to take positions from. -/
structure PriorLayout where
  algorithmVersion : String
  nodes : List Placement

/-- A graph and its prior layout. -/
structure Input where
  nodes : List Node
  edges : List Edge
  previous : Option PriorLayout

/-- The input is malformed. -/
def errInvalidLayoutInput : Failure := .new "invalid graph layout input"

/-- The same, with a detail. -/
def invalidInput (detail : String) : Failure := .detail errInvalidLayoutInput detail

/-- Check the input. -/
def validateInput (input : Input) : Result Unit := do
  ensure (input.nodes.length ≤ maxLayoutNodes ∧ input.edges.length ≤ maxLayoutEdges)
    (invalidInput "bounded layout supports at most 1200 nodes and 4800 edges")
  checkDistinct
    (fun node => ensure (node.id.isZero = false ∧ node.nodeClass.isValid = true)
      (invalidInput "node identity and class are required"))
    (fun node => invalidInput ("duplicate node " ++ node.id.value)) (fun _ => .ok ())
    Node.id input.nodes
  checkDistinct
    (fun edge => ensure
      (edge.id.isZero = false ∧ edge.fromNode.isZero = false ∧ edge.toNode.isZero = false)
      (invalidInput "edge identity and endpoints are required"))
    (fun edge => invalidInput ("duplicate edge " ++ edge.id.value))
    (fun edge => do
      ensure (edge.fromNode ∈ input.nodes.map Node.id)
        (invalidInput ("edge " ++ edge.id.value ++ " has an unknown source"))
      ensure (edge.toNode ∈ input.nodes.map Node.id)
        (invalidInput ("edge " ++ edge.id.value ++ " has an unknown destination")))
    Edge.id input.edges

/-- What the accepted inputs have in common. -/
structure ValidInput (input : Input) : Prop where
  nodes_le : input.nodes.length ≤ maxLayoutNodes
  edges_le : input.edges.length ≤ maxLayoutEdges
  identified : ∀ node ∈ input.nodes, node.id.isZero = false ∧ node.nodeClass.isValid = true
  distinct : (input.nodes.map Node.id).Nodup
  edges_identified : ∀ edge ∈ input.edges,
    edge.id.isZero = false ∧ edge.fromNode.isZero = false ∧ edge.toNode.isZero = false
  edges_distinct : (input.edges.map Edge.id).Nodup
  known : ∀ edge ∈ input.edges,
    edge.fromNode ∈ input.nodes.map Node.id ∧ edge.toNode ∈ input.nodes.map Node.id

theorem validateInput_ok_iff {input : Input} : validateInput input = .ok () ↔ ValidInput input := by
  simp only [validateInput, run_ok_iff, checkDistinct_ok_iff]
  constructor
  · rintro ⟨_, ⟨hnodes, hedges⟩, _, ⟨hident, hdistinct⟩, hall, hedistinct⟩
    refine ⟨hnodes, hedges, fun node hnode => (hident node hnode).1, hdistinct,
      fun edge hedge => (hall edge hedge).1, hedistinct, ?_⟩
    intro edge hedge
    obtain ⟨-, _, hsource, htarget⟩ := hall edge hedge
    exact ⟨hsource, htarget⟩
  · intro h
    refine ⟨(), ⟨h.nodes_le, h.edges_le⟩, (), ⟨fun node hnode => ⟨h.identified node hnode, trivial⟩,
      h.distinct⟩, ?_, h.edges_distinct⟩
    intro edge hedge
    exact ⟨h.edges_identified edge hedge, (), (h.known edge hedge).1, (h.known edge hedge).2⟩

end Codeflux.GraphLayout
