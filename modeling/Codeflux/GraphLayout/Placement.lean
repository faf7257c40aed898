import Codeflux.GraphLayout.Ranking

/-!
# Placement of the nodes

Each rank is a column, in which its nodes are stacked. A node that a prior layout has in the same
column keeps its place if that is free; every other node is placed by a search for a free place on a
grid around the place it would like.
-/

namespace Codeflux.GraphLayout

open Library Domain TaskGraph

/-! ### Canonical placements -/

section

variable (components : List ComponentState)

/-- The component with an index. -/
def componentAt (index : Nat) : ComponentState :=
  components[index]?.getD ⟨TypedID.zero, [], 0, 0⟩

/-- The order of the nodes: by rank, then by component, then by identity. -/
def precedes (a b : Node) : Bool :=
  let left := componentAt components (componentOf components a.id)
  let right := componentAt components (componentOf components b.id)
  if left.rank ≠ right.rank then left.rank < right.rank
  else if left.key ≠ right.key then left.key.value < right.key.value
  else a.id.value ≤ b.id.value

/-- The number of nodes placed in each rank, and the places. -/
structure Numbering where
  orders : Nat → Nat
  result : NodeID → Option Placement

/-- The left side of a column. -/
def canonicalX (rank : Nat) : Int64 :=
  defaultPadding + Int64.ofNat rank * (defaultNodeWidth + defaultRankGap)

/-- The upper side of a row. -/
def canonicalY (order : Nat) : Int64 :=
  defaultPadding + Int64.ofNat order * (defaultNodeHeight + defaultSiblingGap)

/-- Place the next node of its column. -/
def Numbering.place (s : Numbering) (node : Node) : Numbering :=
  let component := componentAt components (componentOf components node.id)
  let order := s.orders component.rank
  { orders := Function.update s.orders component.rank (order + 1)
    result := Function.update s.result node.id (some {
      nodeID := node.id
      componentKey := component.key
      rank := component.rank
      order
      bounds := {
        x := canonicalX component.rank
        y := canonicalY order
        width := defaultNodeWidth
        height := defaultNodeHeight } }) }

end

/-- The placements without a prior layout. -/
def canonicalPlacements (nodes : List Node) (components : List ComponentState) :
    NodeID → Option Placement :=
  ((nodes.insertionSort fun a b => precedes components a b).foldl (Numbering.place components)
    ⟨fun _ => 0, fun _ => none⟩).result

/-! ### The search for a free place -/

/-- Do two rectangles overlap, with the gaps around them? -/
def overlaps (candidate existing : Rect) : Bool :=
  candidate.x < existing.right + defaultRankGap && candidate.right + defaultRankGap > existing.x &&
    candidate.y < existing.bottom + defaultSiblingGap &&
    candidate.bottom + defaultSiblingGap > existing.y

section

variable (candidate : Rect)

/-- Does it overlap an occupied place? -/
def overlapsAny (occupied : List Rect) : Bool :=
  occupied.any (overlaps candidate)

/-- The rectangle at another height. -/
def Rect.at (rectangle : Rect) (y : Int64) : Rect := { rectangle with y }

/-- The distance between two places of the grid. -/
def gridStep : Int64 := defaultNodeHeight + defaultSiblingGap

/-- The height so many steps below. -/
def downY (distance : Nat) : Int64 :=
  candidate.y + Int64.ofNat distance * gridStep

/-- The height so many steps above. -/
def upY (distance : Nat) : Int64 :=
  candidate.y - Int64.ofNat distance * gridStep

/-- The places tried at a distance: the one below, then the one above unless it is too high. -/
def probesAt (distance : Nat) : List Int64 :=
  downY candidate distance ::
    if upY candidate distance ≥ defaultPadding then [upY candidate distance] else []

/-- The places tried, in order: the candidate's own, then those at growing distances. -/
def probes (occupied : List Rect) : List Int64 :=
  candidate.y :: (List.range' 1 (occupied.length + 1)).flatMap (probesAt candidate)

/-- The first free place that is tried, and the last one below if none is free. -/
def nearestFreeY (occupied : List Rect) : Int64 :=
  ((probes candidate occupied).find? fun y => !overlapsAny (candidate.at y) occupied).getD
    (downY candidate (occupied.length + 1))

end

/-! ### Reuse and placement -/

/-- The places given so far, the rectangles taken in each rank, and the nodes that kept a place. -/
structure Placing where
  result : NodeID → Option Placement
  occupied : Int → List Rect
  reused : NodeID → Bool

/-- Nothing is placed. -/
def Placing.start : Placing := ⟨fun _ => none, fun _ => [], fun _ => false⟩

/-- Record a place. -/
def Placing.put (s : Placing) (id : NodeID) (placement : Placement) : Placing where
  result := Function.update s.result id (some placement)
  occupied := Function.update s.occupied placement.rank
    (s.occupied placement.rank ++ [placement.bounds])
  reused := s.reused

/-- Record a place that was taken over. -/
def Placing.keep (s : Placing) (id : NodeID) (placement : Placement) : Placing :=
  { s.put id placement with reused := Function.update s.reused id true }

@[simp] theorem Placing.keep_result (s : Placing) (id : NodeID) (placement : Placement) :
    (s.keep id placement).result = (s.put id placement).result := rfl

@[simp] theorem Placing.keep_occupied (s : Placing) (id : NodeID) (placement : Placement) :
    (s.keep id placement).occupied = (s.put id placement).occupied := rfl

/-- Can a node keep the place that the prior layout has for it? -/
def keeps (s : Placing) (hint placement : Placement) : Bool :=
  hint.rank = placement.rank && hint.bounds.width = defaultNodeWidth &&
    hint.bounds.height = defaultNodeHeight && hint.bounds.x = placement.bounds.x &&
    !(hint.bounds.y < 0) && !overlapsAny hint.bounds (s.occupied hint.rank)

section

variable (canonical : NodeID → Option Placement)

/-- Take one place over from the prior layout. -/
def reuse (s : Placing) (hint : Placement) : Placing :=
  match canonical hint.nodeID with
  | none => s
  | some placement =>
    if keeps s hint placement then s.keep hint.nodeID { placement with bounds := hint.bounds }
    else s

/-- The neighbours of a node, one for each end of an edge. -/
def stableNeighbors (edges : List Edge) (id : NodeID) : List NodeID :=
  sortIDs (edges.flatMap fun edge =>
    (if edge.fromNode = id then [edge.toNode] else []) ++
      if edge.toNode = id then [edge.fromNode] else [])

/-- The mean height of the neighbours that kept their places. -/
def stableNeighborY (neighbors : List NodeID) (s : Placing) : Option Int64 :=
  let kept := neighbors.filterMap fun neighbor =>
    if s.reused neighbor then (s.result neighbor).map fun placement => placement.bounds.y else none
  let total := kept.foldl (· + ·) 0
  if kept.length = 0 then none else some (total / Int64.ofNat kept.length)

/-- Where a new node would like to be. -/
def candidate (edges : List Edge) (s : Placing) (id : NodeID) (placement : Placement) : Rect :=
  match stableNeighborY (stableNeighbors edges id) s with
  | none => placement.bounds
  | some y => placement.bounds.at (max defaultPadding y)

/-- Place one node that has no place yet. -/
def placeNew (edges : List Edge) (s : Placing) (id : NodeID) : Placing :=
  match s.result id, canonical id with
  | none, some placement =>
    let bounds := candidate edges s id placement
    s.put id { placement with
      bounds := bounds.at (nearestFreeY bounds (s.occupied placement.rank)) }
  | _, _ => s

/-- A way to sort the prior placements by node. Placements of one node may come in any order. -/
structure HintSort where
  sort : List Placement → List Placement
  perm : ∀ hints, (sort hints).Perm hints
  sorted : ∀ hints, (sort hints).Pairwise fun a b => a.nodeID.value ≤ b.nodeID.value

/-- The prior placements that count: those of a layout of this version. -/
def priorHints (hintSort : HintSort) (previous : Option PriorLayout) : List Placement :=
  match previous with
  | none => []
  | some prior =>
    if prior.algorithmVersion = algorithmVersion then hintSort.sort prior.nodes else []

/-- The state after the first pass. -/
def reuseHints (hints : List Placement) : Placing :=
  hints.foldl (reuse canonical) Placing.start

/-- Both passes. -/
def reuseAndPlace (ids : List NodeID) (edges : List Edge) (hints : List Placement) : Placing :=
  ids.foldl (placeNew canonical edges) (reuseHints canonical hints)

end

/-- The order within a rank: by height, then by identity. -/
def above (a b : Placement) : Bool :=
  if a.bounds.y = b.bounds.y then a.nodeID.value ≤ b.nodeID.value else a.bounds.y < b.bounds.y

/-- Number the placements of each rank from the top. -/
def assignOrders (placements : List Placement) : List Placement :=
  placements.map fun placement =>
    { placement with
      order := ((placements.filter fun other => other.rank = placement.rank).insertionSort
        fun a b => above a b).findIdx fun other => other.nodeID = placement.nodeID }

/-- The bounds of all placements. -/
def layoutBounds (nodes : List Placement) : Rect :=
  match nodes with
  | [] => ⟨0, 0, 2 * defaultPadding, 2 * defaultPadding⟩
  | first :: rest =>
    let minX := rest.foldl (fun x node => min x node.bounds.x) first.bounds.x
    let minY := rest.foldl (fun y node => min y node.bounds.y) first.bounds.y
    let maxX := rest.foldl (fun x node => max x node.bounds.right) first.bounds.right
    let maxY := rest.foldl (fun y node => max y node.bounds.bottom) first.bounds.bottom
    { x := max 0 (minX - defaultPadding)
      y := max 0 (minY - defaultPadding)
      width := maxX - max 0 (minX - defaultPadding) + defaultPadding
      height := maxY - max 0 (minY - defaultPadding) + defaultPadding }

/-- The nodes in the order of their identities. -/
def sortNodes (nodes : List Node) : List Node :=
  nodes.insertionSort fun a b => a.id.value ≤ b.id.value

/-- The edges by identity. -/
def sortEdges (edges : List Edge) : List Edge :=
  edges.insertionSort fun a b => a.id.value ≤ b.id.value

/-- The ranked components of an input. -/
def rankedComponents (input : Input) : List ComponentState :=
  rankComponents (collapseComponents (sortNodes input.nodes) (sortEdges input.edges))
    (sortEdges input.edges)

/-- The canonical placements of an input. -/
def canonicalOf (input : Input) : NodeID → Option Placement :=
  canonicalPlacements (sortNodes input.nodes) (rankedComponents input)

/-- The identities of an input's nodes, in order. -/
def sortedIDs (input : Input) : List NodeID := (sortNodes input.nodes).map Node.id

/-- The state after both passes. -/
def placed (hintSort : HintSort) (input : Input) : Placing :=
  reuseAndPlace (canonicalOf input) (sortedIDs input) (sortEdges input.edges)
    (priorHints hintSort input.previous)

/-- The layout of a graph. -/
def compute (hintSort : HintSort) (input : Input) : Result Layout := do
  validateInput input
  if input.nodes = [] then
    return {
      algorithmVersion
      nodes := []
      components := []
      bounds := ⟨0, 0, 2 * defaultPadding, 2 * defaultPadding⟩ }
  else
    let nodes := assignOrders ((sortedIDs input).filterMap (placed hintSort input).result)
    return {
      algorithmVersion
      nodes
      components := ((rankedComponents input).map fun component =>
        (⟨component.key, component.members, component.rank⟩ : Component)).insertionSort
          fun a b => a.key.value ≤ b.key.value
      bounds := layoutBounds nodes }

end Codeflux.GraphLayout
