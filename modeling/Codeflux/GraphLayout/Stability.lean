import Codeflux.GraphLayout.Search

/-!
# Stability of successive layouts

Each layout is the prior layout of the next. A node whose rank stays keeps its place as long as no
two places of the layout that is passed on overlap. The search for a place may fall back on one that
is not free, and then the next layout moves a node.
-/

namespace Codeflux.GraphLayout

open Library Domain Placing List

/-- Lay the graphs out in turn. The last layout comes first. -/
def layoutAll (hintSort : HintSort) (graphs : List (List Node × List Edge)) :
    Result (List Layout) :=
  graphs.foldlM (fun layouts graph => do
    let layout ← compute hintSort ⟨graph.1, graph.2, layouts.head?.map fun prior =>
      ⟨prior.algorithmVersion, prior.nodes⟩⟩
    return layout :: layouts) []

/-- The nodes that two layouts have in the same rank are in the same place. -/
def Unmoved (earlier later : Layout) : Prop :=
  ∀ p ∈ earlier.nodes, ∀ q ∈ later.nodes, p.nodeID = q.nodeID → p.rank = q.rank →
    p.bounds = q.bounds

/-- No two places of a rank overlap, by the test of the passes, and none is above the top. -/
def Layout.Tidy (layout : Layout) : Prop :=
  (∀ p ∈ layout.nodes, 0 ≤ p.bounds.y) ∧ ∀ p ∈ layout.nodes, ∀ q ∈ layout.nodes,
    p.nodeID ≠ q.nodeID → p.rank = q.rank → overlaps p.bounds q.bounds = false

instance : DecidableRel Unmoved := fun _ _ =>
  inferInstanceAs (Decidable (∀ p ∈ _, ∀ q ∈ _, _ → _ → _))

instance (layout : Layout) : Decidable layout.Tidy := inferInstanceAs (Decidable (_ ∧ _))

variable {canonical : NodeID → Option Placement} {p : Placement}
  {s : Placing} {id : NodeID} {hintSort : HintSort} {input : Input} {layout later : Layout}

/-! ### Two layouts in turn -/

theorem result_foldl_placeNew {edges : List Edge} (h : s.result id = some p) (ids : List NodeID) :
    (ids.foldl (placeNew canonical edges) s).result id = some p := by
  refine foldlRecOn (motive := fun s => result s id = some p) ids _ h fun s h other _ => ?_
  rcases placeNew_cases canonical edges s other with ⟨heq, -⟩ | ⟨_, hnew, -, heq⟩
  · rwa [heq]
  · rw [heq]
    refine result_put.2 (.inr ⟨?_, h⟩)
    rintro rfl
    cases h.symm.trans hnew

/-- The places given so far are in the canonical ranks. -/
def Placing.Ranked (canonical : NodeID → Option Placement) (s : Placing) : Prop :=
  ∀ id p, s.result id = some p → ∃ c, canonical id = some c ∧ p.rank = c.rank

theorem Placing.Ranked.put (h : s.Ranked canonical) {c : Placement} (hc : canonical id = some c)
    (bounds : Rect) : (s.put id { c with bounds }).Ranked canonical := by
  intro other p hp
  rcases result_put.1 hp with ⟨rfl, rfl⟩ | ⟨-, hold⟩
  · exact ⟨c, hc, rfl⟩
  · exact h other p hold

theorem placed_ranked (hintSort : HintSort) (input : Input) :
    (placed hintSort input).Ranked (canonicalOf input) := by
  have hreuse : (reuseHints (canonicalOf input) (priorHints hintSort input.previous)).Ranked
      (canonicalOf input) := by
    refine foldlRecOn _ _ nofun fun s hs hint _ => ?_
    rcases reuse_cases (canonicalOf input) s hint with heq | ⟨c, hc, -, heq⟩
    · rwa [heq]
    · rw [heq]
      exact hs.put hc _
  refine foldlRecOn _ _ hreuse fun s hs id _ => ?_
  rcases placeNew_cases (canonicalOf input) (sortEdges input.edges) s id with
    ⟨heq, -⟩ | ⟨c, -, hc, heq⟩
  · rwa [heq]
  · rw [heq]
    exact hs.put hc _

theorem layout_nodes (h : compute hintSort input = .ok layout) :
    (layout.nodes.map Placement.nodeID).Nodup ∧ ∀ p ∈ layout.nodes, ∃ placement,
      (placed hintSort input).result p.nodeID = some placement ∧ p.rank = placement.rank ∧
        p.bounds = placement.bounds := by
  obtain ⟨hvalid, -, hnodes⟩ := compute_nodes h
  have hknown := fun id p h => ((Placing.Sound.placed hvalid hintSort).known id p h).1
  rw [hnodes, assignOrders]
  refine ⟨?_, fun p hp => ?_⟩
  · rw [map_map, Nodup, pairwise_map, pairwise_filterMap]
    refine (nodup_sortedIDs hvalid).imp fun {a b} hab p hp q hq heq => hab ?_
    rw [← hknown a p hp, ← hknown b q hq]
    exact heq
  · obtain ⟨placement, hmem, rfl⟩ := mem_map.1 hp
    obtain ⟨id, -, hid⟩ := mem_filterMap.1 hmem
    obtain rfl := hknown id placement hid
    exact ⟨placement, hid, rfl, rfl⟩

/-- **A tidy layout is taken over**, as far as the ranks stay. -/
theorem unmoved_of_tidy (h : compute hintSort input = .ok layout) (htidy : layout.Tidy)
    {nodes : List Node} {edges : List Edge} (hlater : compute hintSort
      ⟨nodes, edges, some ⟨layout.algorithmVersion, layout.nodes⟩⟩ = .ok later) :
    Unmoved layout later := by
  obtain ⟨hvalid, hversion, -⟩ := compute_nodes h
  obtain ⟨hnodup, hplaced⟩ := layout_nodes h
  have hvalid' := (compute_nodes hlater).1
  have hsound := Placing.Sound.placed hvalid hintSort
  set next : Input := ⟨nodes, edges, some ⟨layout.algorithmVersion, layout.nodes⟩⟩
  have hhints : priorHints hintSort next.previous = hintSort.sort layout.nodes := if_pos hversion
  have hperm := hintSort.perm layout.nodes
  have hsuitable : ∀ hint ∈ layout.nodes, ∀ c, canonicalOf next hint.nodeID = some c →
      hint.rank = c.rank → Suitable (canonicalOf next) hint := by
    intro hint hhint c hc hrank
    obtain ⟨placement, hresult, hrank', hbounds⟩ := hplaced hint hhint
    obtain ⟨r, hr, hcolumn⟩ := hsound.column _ _ (hsound.taken _ _ hresult)
    obtain ⟨r', hr', hcolumn'⟩ := (canonicalOf_place hvalid' _ c hc).column
    obtain rfl : r = r' := by exact_mod_cast hr.symm.trans (hrank'.symm.trans (hrank.trans hr'))
    rw [← hbounds] at hcolumn
    exact ⟨c, hc, hrank, hcolumn.width_eq, hcolumn.height_eq,
      hcolumn.x_eq.trans hcolumn'.x_eq.symm, htidy.1 hint hhint⟩
  have htook : (reuseHints (canonicalOf next) (priorHints hintSort next.previous)).TookOver
      (canonicalOf next) (hintSort.sort layout.nodes) := by
    rw [hhints]
    refine tookOver_reuseHints ((hperm.map _).nodup_iff.2 hnodup) fun p hp q hq hne _ _ => ?_
    exact htidy.2 p (hperm.mem_iff.1 hp) q (hperm.mem_iff.1 hq) hne
  intro p hp q hq hid hrank
  obtain ⟨placement, hresult, hrank', hbounds⟩ := (layout_nodes hlater).2 q hq
  obtain ⟨c, hc, hcrank⟩ := placed_ranked _ _ _ _ hresult
  rw [← hid] at hresult hc
  obtain ⟨kept, hkept, hsame⟩ := htook.kept p (hperm.mem_iff.2 hp)
    (hsuitable p hp c hc (hrank.trans (hrank'.trans hcrank)))
  have hstays : (placed hintSort next).result p.nodeID = some kept :=
    result_foldl_placeNew hkept _
  rw [hbounds, ← hsame, Option.some.inj (hresult.symm.trans hstays)]

/-- **Nodes stay as long as the layouts are tidy.** In every sequence of graphs that are laid out in
turn, if each layout that is passed on is tidy, then no node moves from a layout to the next unless
its rank changes. -/
theorem layoutAll_unmoved {graphs : List (List Node × List Edge)} {layouts : List Layout}
    (h : layoutAll hintSort graphs = .ok layouts) (htidy : ∀ layout ∈ layouts.tail, layout.Tidy) :
    layouts.IsChain fun later earlier => Unmoved earlier later := by
  refine (foldlM_keeps (P := fun layouts : List Layout =>
    (∀ layout ∈ layouts, ∃ input, compute hintSort input = .ok layout) ∧
      ((∀ layout ∈ layouts.tail, layout.Tidy) →
        layouts.IsChain fun later earlier => Unmoved earlier later)) ?_ h
    ⟨fun _ h => absurd h not_mem_nil, fun _ => .nil⟩).2 htidy
  rintro layouts graph next hstep ⟨hcomputed, hchain⟩
  simp only [run_ok_iff] at hstep
  obtain ⟨layout, hlayout, rfl⟩ := hstep
  refine ⟨forall_mem_cons.2 ⟨⟨_, hlayout⟩, hcomputed⟩, fun htidy => ?_⟩
  cases layouts with
  | nil => exact .singleton _
  | cons prior layouts =>
    obtain ⟨hprior, hrest⟩ := forall_mem_cons.1 htidy
    obtain ⟨input, hinput⟩ := hcomputed prior mem_cons_self
    exact .cons_cons (unmoved_of_tidy hinput hprior hlayout) (hchain hrest)

/-- The edges of a sample. -/
def sampleEdgeID : Nat → EdgeID
  | 0 => ⟨"edg_0190a5b0-0000-7000-8000-000000000001", .inr (by decide +kernel)⟩
  | _ => ⟨"edg_0190a5b0-0000-7000-8000-000000000002", .inr (by decide +kernel)⟩

/-- Some requirements and two regions of a plan. -/
def sampleNodes (requirements : List Nat) : List Node :=
  requirements.map (⟨sampleNodeID ·, .declared .requirement⟩) ++
    [5, 6].map (⟨sampleNodeID ·, .declared .planRegion⟩)

/-- Four requirements and the regions. -/
def firstGraph : List Node × List Edge := (sampleNodes [1, 2, 3, 4], [])

/-- The second and the fourth requirement and a new one, with an edge to each region. -/
def secondGraph : List Node × List Edge :=
  (sampleNodes [0, 2, 4], [⟨sampleEdgeID 0, sampleNodeID 0, sampleNodeID 5⟩,
    ⟨sampleEdgeID 1, sampleNodeID 0, sampleNodeID 6⟩])

/-- The nodes that stay in the second graph stay where they are. -/
theorem secondGraph_unmoved :
    ∃ layouts, layoutAll stableHintSort [firstGraph, secondGraph] = .ok layouts ∧
      layouts.IsChain fun later earlier => Unmoved earlier later := by
  have hrun : (fun layouts : List Layout => decide (∀ layout ∈ layouts.tail, layout.Tidy)) <$>
      layoutAll stableHintSort [firstGraph, secondGraph] = .ok true := by
    decide +kernel
  obtain ⟨layouts, hlayouts, htidy⟩ := map_ok_iff.1 hrun
  exact ⟨layouts, hlayouts, layoutAll_unmoved hlayouts (of_decide_eq_true htidy)⟩

/-- **A graph that is laid out twice moves a node.** The four places tried for the new requirement
are blocked by the two others, and it is placed over one of them. When the same graph is laid out
again, that one gives way. -/
theorem secondGraph_moves :
    ∃ layouts, layoutAll stableHintSort [firstGraph, secondGraph, secondGraph] = .ok layouts ∧
      ¬layouts.IsChain fun later earlier => Unmoved earlier later := by
  have hrun : (fun layouts : List Layout =>
      decide (layouts.IsChain fun later earlier => Unmoved earlier later)) <$>
      layoutAll stableHintSort [firstGraph, secondGraph, secondGraph] = .ok false := by
    decide +kernel
  obtain ⟨layouts, hlayouts, hmoved⟩ := map_ok_iff.1 hrun
  exact ⟨layouts, hlayouts, of_decide_eq_false hmoved⟩

end Codeflux.GraphLayout
