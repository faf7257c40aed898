import Codeflux.GraphLayout.Model
import Codeflux.Library.Tarjan
import Mathlib.Data.List.Sort

/-!
# Components and their ranks

The nodes that reach each other are collapsed into components, and these are ranked in topological
order, none before the class floor of its members.
-/

namespace Codeflux.GraphLayout

open Library Domain TaskGraph List Function

/-! ### Components -/

/-- A component with its rank. -/
structure ComponentState where
  key : NodeID
  members : List NodeID
  (rank floor : Nat)

/-- Identities in the order of their texts. -/
def sortIDs (ids : List NodeID) : List NodeID := ids.insertionSort fun a b => a.value ≤ b.value

/-- The successors of a node, one for each edge. -/
def adjacency (edges : List Edge) (id : NodeID) : List NodeID :=
  sortIDs ((edges.filter fun edge => edge.fromNode = id).map Edge.toNode)

/-- The class of a node. -/
def classOf (nodes : List Node) (id : NodeID) : Option (OpenEnum NodeClass) :=
  (nodes.find? fun node => node.id = id).map Node.nodeClass

/-- The first member of a component. -/
def componentKey (members : List NodeID) : NodeID := members.headD TypedID.zero

/-- What the search closed, with the members of each component and the components in order. -/
def memberships (nodes : List Node) (edges : List Edge) : List (List NodeID) :=
  ((Tarjan.visitAll (adjacency edges) nodes.length (nodes.map Node.id) Tarjan.Search.start
    ).memberships.map sortIDs).insertionSort fun a b =>
      (componentKey a).value ≤ (componentKey b).value

/-- The least rank of the members' classes. -/
def componentFloor (nodes : List Node) (members : List NodeID) : Nat :=
  members.foldl (fun floor member => max floor (((classOf nodes member).map classRankFloor).getD 0))
    0

/-- The components, not yet ranked. -/
def collapseComponents (nodes : List Node) (edges : List Edge) : List ComponentState :=
  (memberships nodes edges).map fun members => {
    key := componentKey members
    members
    rank := componentFloor nodes members
    floor := componentFloor nodes members }

/-- The index of a node's component. A map that lacks the node reads as zero. -/
def componentOf (components : List ComponentState) (id : NodeID) : Nat :=
  (components.findIdx? fun component => id ∈ component.members).getD 0

variable {edges : List Edge} {nodes : List Node}

section

variable (hknown : ∀ edge ∈ edges, edge.toNode ∈ nodes.map Node.id)

include hknown

theorem adjacency_closed :
    ∀ v ∈ (nodes.map Node.id).toFinset, ∀ w ∈ adjacency edges v,
      w ∈ (nodes.map Node.id).toFinset := by
  intro v _ w hw
  simp only [adjacency, sortIDs, mem_insertionSort, mem_map, mem_filter] at hw
  obtain ⟨edge, ⟨hedge, -⟩, rfl⟩ := hw
  exact mem_toFinset.2 (hknown edge hedge)

/-- The search for the components is not cut short. -/
theorem visitAll_adjacency_fuel (extra : Nat) :
    Tarjan.visitAll (adjacency edges) (nodes.length + extra) (nodes.map Node.id)
        Tarjan.Search.start =
      Tarjan.visitAll (adjacency edges) nodes.length (nodes.map Node.id) Tarjan.Search.start :=
  Tarjan.visitAll_fuel (adjacency_closed hknown) ((toFinset_card_le _).trans_eq (length_map _))
    (fun _ hv => mem_toFinset.2 hv) _ extra

theorem length_collapseComponents_le : (collapseComponents nodes edges).length ≤ nodes.length := by
  have hbound := Tarjan.memberships_visitAll (adjacency_closed hknown) nodes.length
    (fun v hv => mem_toFinset.2 hv)
  have hcard := (nodes.map Node.id).toFinset_card_le
  rw [length_map] at hcard
  simp only [collapseComponents, memberships, length_map, length_insertionSort]
  exact hbound.trans hcard

end

theorem componentFloor_le (nodes : List Node) (members : List NodeID) :
    componentFloor nodes members ≤ 5 := by
  have hfold : ∀ (ms : List NodeID) (start : Nat), start ≤ 5 →
      ms.foldl (fun floor member =>
        max floor (((classOf nodes member).map classRankFloor).getD 0)) start ≤ 5 := by
    intro ms
    induction ms with
    | nil => exact fun start hstart => hstart
    | cons m ms ih =>
      intro start hstart
      refine ih _ (max_le hstart ?_)
      cases classOf nodes m with
      | none => exact Nat.zero_le 5
      | some c => exact classRankFloor_le c
  exact hfold members 0 (Nat.zero_le 5)

/-! ### Edges between components -/

/-- For each component, those it leads to, and for each the number of those that lead to it. -/
structure Condensation where
  outgoing : Nat → List Nat
  indegree : Nat → Int

/-- Take an edge in, unless it stays in its component or repeats one between the same two. -/
def Condensation.relate (components : List ComponentState) (s : Condensation) (edge : Edge) :
    Condensation :=
  let source := componentOf components edge.fromNode
  let target := componentOf components edge.toNode
  if source = target then s
  else if target ∈ s.outgoing source then s
  else {
    outgoing := Function.update s.outgoing source (s.outgoing source ++ [target])
    indegree := Function.update s.indegree target (s.indegree target + 1) }

/-- The edges between components. -/
def condense (components : List ComponentState) (edges : List Edge) : Condensation :=
  edges.foldl (Condensation.relate components) ⟨fun _ => [], fun _ => 0⟩

/-- No component leads to itself, and only components are led to. -/
structure Condensation.Sound (n : Nat) (s : Condensation) : Prop where
  irreflexive : ∀ i, i ∉ s.outgoing i
  bounded : ∀ i, ∀ j ∈ s.outgoing i, j < n

variable {components : List ComponentState}

theorem componentOf_lt (hne : components ≠ []) (id : NodeID) :
    componentOf components id < components.length := by
  unfold componentOf
  cases h : components.findIdx? fun component => id ∈ component.members with
  | none => exact length_pos_iff.2 hne
  | some i => exact (findIdx?_eq_some_iff_findIdx_eq.1 h).1

theorem Condensation.Sound.relate {s : Condensation} (h : s.Sound components.length) (edge : Edge) :
    (s.relate components edge).Sound components.length := by
  unfold Condensation.relate
  dsimp only
  split_ifs with hsame hold
  · exact h
  · exact h
  · have hne : components ≠ [] := by
      rintro rfl
      exact hsame rfl
    refine ⟨?_, ?_⟩
    · intro i
      by_cases hi : i = componentOf components edge.fromNode
      · subst hi
        simpa using ⟨h.irreflexive _, hsame⟩
      · simpa [hi] using h.irreflexive i
    · intro i j hj
      by_cases hi : i = componentOf components edge.fromNode
      · subst hi
        simp only [update_self, mem_append, mem_singleton] at hj
        rcases hj with hj | rfl
        · exact h.bounded _ j hj
        · exact componentOf_lt hne _
      · simp only [update_of_ne hi] at hj
        exact h.bounded i j hj

theorem condense_sound (components : List ComponentState) (edges : List Edge) :
    (condense components edges).Sound components.length :=
  List.foldlRecOn edges _ ⟨fun _ => not_mem_nil, fun _ _ hj => absurd hj not_mem_nil⟩
    fun _ hs edge _ => hs.relate edge

/-! ### Ranks -/

/-- The key of a component. -/
def keyAt (components : List ComponentState) (index : Nat) : String :=
  ((components[index]?).map fun component => component.key.value).getD ""

/-- Components in the order of their keys. -/
def sortComponentQueue (components : List ComponentState) (queue : List Nat) : List Nat :=
  queue.insertionSort fun i j => keyAt components i ≤ keyAt components j

/-- The least rank of a component. -/
def floorAt (components : List ComponentState) (index : Nat) : Nat :=
  ((components[index]?).map ComponentState.floor).getD 0

/-- The state of the ranking: the components whose rank is settled and not yet passed on, and for
each component the edges still to come and its rank so far. -/
structure Ranking where
  queue : List Nat
  indegree : Nat → Int
  rank : Nat → Nat

/-- Pass the rank of `current` on along one edge. -/
def Ranking.relax (components : List ComponentState) (current : Nat) (s : Ranking)
    (destination : Nat) : Ranking where
  queue :=
    if s.indegree destination - 1 = 0 then sortComponentQueue components (s.queue ++ [destination])
    else s.queue
  indegree := Function.update s.indegree destination (s.indegree destination - 1)
  rank := Function.update s.rank destination
    (max (max (s.rank destination) (s.rank current + 1)) (floorAt components destination))

/-- The components that another one leads to, in the order of their keys. -/
def outgoingOf (components : List ComponentState) (condensation : Condensation) (index : Nat) :
    List Nat :=
  sortComponentQueue components (condensation.outgoing index)

/-- Take the components off the queue in turn and pass their ranks on. -/
def rankLoop (components : List ComponentState) (condensation : Condensation) :
    Nat → Ranking → Ranking
  | 0, s => s
  | fuel + 1, s =>
    match s.queue with
    | [] => s
    | current :: queue =>
      rankLoop components condensation fuel
        ((outgoingOf components condensation current).foldl (Ranking.relax components current)
          { s with queue })

/-- The queue starts with the components that nothing leads to, and the ranks with the floors. -/
def Ranking.start (components : List ComponentState) (condensation : Condensation) : Ranking where
  queue := sortComponentQueue components
    ((List.range components.length).filter fun index => condensation.indegree index = 0)
  indegree := condensation.indegree
  rank := floorAt components

/-- The components with their ranks. -/
def rankComponents (components : List ComponentState) (edges : List Edge) : List ComponentState :=
  let condensation := condense components edges
  let final := rankLoop components condensation components.length
    (Ranking.start components condensation)
  components.mapIdx fun index component => { component with rank := final.rank index }

section Bounds

variable {condensation : Condensation}

theorem mem_outgoingOf {i j : Nat} :
    j ∈ outgoingOf components condensation i ↔ j ∈ condensation.outgoing i :=
  mem_insertionSort _

theorem floorAt_le (h : ∀ component ∈ components, component.floor ≤ 5) (i : Nat) :
    floorAt components i ≤ 5 := by
  unfold floorAt
  cases hi : components[i]? with
  | none => exact Nat.zero_le 5
  | some component => exact h component (mem_of_getElem? hi)

variable {bound current n : Nat} {targets : List Nat} {s : Ranking}

theorem rank_foldl_relax_le (hfloor : ∀ i, floorAt components i ≤ 5) (hbound : 5 ≤ bound)
    (hcurrent : current ∉ targets) (hsettled : s.rank current ≤ bound)
    (hs : ∀ i, s.rank i ≤ bound + 1) (i : Nat) :
    (targets.foldl (Ranking.relax components current) s).rank i ≤ bound + 1 := by
  induction targets generalizing s with
  | nil => exact hs i
  | cons target targets ih =>
    rw [mem_cons, not_or] at hcurrent
    refine ih hcurrent.2 ?_ ?_
    · simpa [Ranking.relax, hcurrent.1] using hsettled
    · intro j
      by_cases hj : j = target
      · subst hj
        have hf := hfloor j
        have hr := hs j
        simp only [Ranking.relax, update_self]
        omega
      · simpa [Ranking.relax, hj] using hs j

theorem rank_rankLoop_le (hfloor : ∀ i, floorAt components i ≤ 5)
    (hirr : ∀ i, i ∉ condensation.outgoing i) (fuel : Nat) (hbound : 5 ≤ bound)
    (hs : ∀ i, s.rank i ≤ bound) (i : Nat) :
    (rankLoop components condensation fuel s).rank i ≤ bound + fuel := by
  induction fuel generalizing s bound with
  | zero => exact hs i
  | succ fuel ih =>
    rw [rankLoop]
    split
    · exact (hs i).trans (Nat.le_add_right _ _)
    · next current queue _ =>
      have hself : current ∉ outgoingOf components condensation current :=
        fun hmem => hirr current (mem_outgoingOf.1 hmem)
      have hround := fun j => rank_foldl_relax_le hfloor hbound hself (s := { s with queue })
        (hs current) (fun j => (hs j).trans (Nat.le_succ _)) j
      have hrest := ih (hbound.trans (Nat.le_succ _)) hround
      omega

/-- What is left to do: the queue, and the components that still wait for an edge. -/
def Ranking.remaining (n : Nat) (s : Ranking) : Nat :=
  s.queue.length + ((Finset.range n).filter fun i => 0 < s.indegree i).card

theorem remaining_relax_le {target : Nat} (htarget : target < n) (s : Ranking) :
    (s.relax components current target).remaining n ≤ s.remaining n := by
  have hsub := Finset.monotone_filter_right (Finset.range n)
    fun i _ (hi : 0 < update s.indegree target (s.indegree target - 1) i) =>
      hi.trans_le (update_le_self_iff.2 (sub_le_self _ zero_le_one) i)
  unfold Ranking.remaining Ranking.relax
  dsimp only
  split_ifs with hlast
  · -- the last edge: the component leaves those that wait and joins the queue
    have hcard := Finset.card_lt_card ((Finset.ssubset_iff_of_subset hsub).2
      ⟨target, by simp [htarget]; omega, by simp [hlast]⟩)
    simp only [sortComponentQueue, length_insertionSort, length_append, length_singleton]
    omega
  · exact Nat.add_le_add_left (Finset.card_le_card hsub) _

theorem remaining_foldl_relax_le (htargets : ∀ target ∈ targets, target < n) (s : Ranking) :
    (targets.foldl (Ranking.relax components current) s).remaining n ≤ s.remaining n :=
  List.foldlRecOn targets _ (motive := fun t => t.remaining n ≤ s.remaining n) le_rfl
    fun t ht target htarget => (remaining_relax_le (htargets target htarget) t).trans ht

/-- The loop ends by itself within as many rounds as there is left to do. -/
theorem queue_rankLoop (hsound : condensation.Sound components.length) {fuel : Nat}
    (hfuel : s.remaining components.length ≤ fuel) :
    (rankLoop components condensation fuel s).queue = [] := by
  induction fuel generalizing s with
  | zero => simp_all [Ranking.remaining, rankLoop]
  | succ fuel ih =>
    rw [rankLoop]
    split
    · assumption
    · next current queue hqueue =>
      refine ih ((remaining_foldl_relax_le (fun target ht =>
        hsound.bounded current target (mem_outgoingOf.1 ht)) _).trans ?_)
      simp only [Ranking.remaining, hqueue, length_cons] at hfuel ⊢
      omega

theorem remaining_start_le :
    (Ranking.start components condensation).remaining components.length ≤ components.length := by
  have hsplit := Finset.card_filter_add_card_filter_not (s := Finset.range components.length)
    (fun i => condensation.indegree i = 0)
  simp only [Ranking.remaining, Ranking.start, sortComponentQueue, length_insertionSort]
  refine (Nat.add_le_add_left ?_ _).trans (hsplit.trans (Finset.card_range _)).le
  exact Finset.card_le_card (Finset.monotone_filter_right _ fun _ _ hi => hi.ne')

/-- The components that the loop takes off the queue. -/
def taken (components : List ComponentState) (condensation : Condensation) :
    Nat → Ranking → List Nat
  | 0, _ => []
  | fuel + 1, s =>
    match s.queue with
    | [] => []
    | current :: queue =>
      current :: taken components condensation fuel
        ((outgoingOf components condensation current).foldl (Ranking.relax components current)
          { s with queue })

/-- No component was queued twice, and one that was waits for no edge. -/
def Ranking.Fresh (s : Ranking) (seen : List Nat) : Prop :=
  (seen ++ s.queue).Nodup ∧ ∀ i ∈ seen ++ s.queue, s.indegree i ≤ 0

theorem Ranking.Fresh.relax {seen : List Nat} (h : s.Fresh seen) (target : Nat) :
    (s.relax components current target).Fresh seen := by
  have hless : ∀ i, update s.indegree target (s.indegree target - 1) i ≤ s.indegree i :=
    update_le_self_iff.2 (sub_le_self _ zero_le_one)
  unfold Ranking.Fresh Ranking.relax
  dsimp only
  split_ifs with hlast
  · have hperm : (seen ++ sortComponentQueue components (s.queue ++ [target])).Perm
        (target :: (seen ++ s.queue)) := by
      refine ((perm_insertionSort _ _).append_left seen).trans ?_
      rw [← append_assoc]
      exact perm_append_singleton _ _
    refine ⟨hperm.nodup_iff.2 (nodup_cons.2 ⟨fun hmem => ?_, h.1⟩), fun i hi => ?_⟩
    · have hwaits := h.2 target hmem
      omega
    · rcases mem_cons.1 (hperm.mem_iff.1 hi) with rfl | hi
      · rw [update_self, hlast]
      · exact (hless i).trans (h.2 i hi)
  · exact ⟨h.1, fun i hi => (hless i).trans (h.2 i hi)⟩

theorem nodup_taken {seen : List Nat} (h : s.Fresh seen) (fuel : Nat) :
    (seen ++ taken components condensation fuel s).Nodup := by
  have hdone : (seen ++ []).Nodup := h.1.sublist ((nil_sublist _).append_left seen)
  induction fuel generalizing s seen with
  | zero => exact hdone
  | succ fuel ih =>
    rw [taken]
    split
    · exact hdone
    · next current queue hqueue =>
      have hsame : seen ++ s.queue = seen ++ [current] ++ queue := by
        rw [hqueue, append_assoc, singleton_append]
      rw [Ranking.Fresh, hsame] at h
      have hround : ((outgoingOf components condensation current).foldl
          (Ranking.relax components current) { s with queue }).Fresh (seen ++ [current]) :=
        List.foldlRecOn _ _ (motive := (Ranking.Fresh · (seen ++ [current]))) h
          fun t ht target _ => ht.relax target
      rw [← singleton_append, ← append_assoc]
      exact ih hround (hround.1.sublist ((nil_sublist _).append_left _))

/-- **The ranking is not cut short.** Its loop ends by itself, within one round for each
component, and no component enters the queue twice. -/
theorem queue_rankLoop_start (components : List ComponentState) (edges : List Edge) :
    let condensation := condense components edges
    let start := Ranking.start components condensation
    (rankLoop components condensation components.length start).queue = [] ∧
      (taken components condensation components.length start).Nodup := by
  refine ⟨queue_rankLoop (condense_sound components edges) remaining_start_le, ?_⟩
  refine @nodup_taken _ _ _ [] ⟨?_, fun i hi => ?_⟩ _
  · exact (perm_insertionSort _ _).nodup_iff.2 (nodup_range.filter _)
  · have hroot := of_mem_filter ((mem_insertionSort _).1 hi)
    exact (of_decide_eq_true hroot).le

end Bounds

/-- No rank exceeds the largest floor by more than the number of components. -/
theorem rank_le (hfloor : ∀ component ∈ components, component.floor ≤ 5)
    {component : ComponentState} (h : component ∈ rankComponents components edges) :
    component.rank ≤ 5 + components.length := by
  obtain ⟨i, hi⟩ := mem_iff_getElem?.1 h
  simp only [rankComponents, getElem?_mapIdx, Option.map_eq_some_iff] at hi
  obtain ⟨_, -, rfl⟩ := hi
  exact rank_rankLoop_le (floorAt_le hfloor) (condense_sound components edges).irreflexive
    components.length le_rfl (floorAt_le hfloor) i

end Codeflux.GraphLayout
