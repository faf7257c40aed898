import Codeflux.GraphLayout.Placement
import Codeflux.Go.Int64
import Mathlib.Data.List.Pairwise

/-!
# Separation of the placements

The columns of different ranks are disjoint, so the placements of a layout are pairwise separated
when those of each rank are.
-/

namespace Codeflux.GraphLayout

open Library Domain Go Placing List

/-- A rectangle of the default size in the column of a rank. -/
structure InColumn (rank : Nat) (bounds : Rect) : Prop where
  rank_le : rank ≤ maxLayoutNodes + 5
  x_eq : bounds.x = canonicalX rank
  width_eq : bounds.width = defaultNodeWidth
  height_eq : bounds.height = defaultNodeHeight

variable {rank : Nat} {a b : Rect} {components : List ComponentState} {done : List Node}
  {input : Input} {id : NodeID} {placement q : Placement} {hintSort : HintSort} {layout : Layout}

theorem toInt_canonicalX (h : rank ≤ maxLayoutNodes + 5) :
    (canonicalX rank).toInt = 64 + 352 * rank := by
  unfold maxLayoutNodes at h
  exact toInt_add_ofNat_mul rfl rfl (by omega) (by constructor <;> omega) (by constructor <;> omega)

theorem InColumn.at {bounds : Rect} (h : InColumn rank bounds) (y : Int64) :
    InColumn rank (bounds.at y) :=
  ⟨h.rank_le, h.x_eq, h.width_eq, h.height_eq⟩

/-- A height that leaves room for the sums of the overlap test. -/
def Moderate (y : Int64) : Prop := -2 ^ 62 ≤ y.toInt ∧ y.toInt ≤ 2 ^ 62

/-- Two heights at which nodes of one rank do not touch. -/
def Clear (a b : Int64) : Prop := 128 ≤ |a.toInt - b.toInt|

theorem InColumn.overlaps_iff (ha : InColumn rank a) (hb : InColumn rank b) (hay : Moderate a.y)
    (hby : Moderate b.y) : overlaps a b = true ↔ ¬Clear a.y b.y := by
  have hx : ∀ {r : Rect}, InColumn rank r →
      r.x.toInt = 64 + 352 * rank ∧ (r.right + defaultRankGap).toInt = 64 + 352 * rank + 352 := by
    intro r hr
    have hle := hr.rank_le
    unfold maxLayoutNodes at hle
    have hx : r.x.toInt = 64 + 352 * rank := by rw [hr.x_eq, toInt_canonicalX hr.rank_le]
    have hw : r.width.toInt = 240 := by rw [hr.width_eq]; rfl
    have hgap : defaultRankGap.toInt = 112 := rfl
    have hright : r.right.toInt = 64 + 352 * rank + 240 := by
      rw [Rect.right, toInt_add_of_fits, hx, hw]
      constructor <;> omega
    refine ⟨hx, ?_⟩
    rw [toInt_add_of_fits, hright, hgap]
    · omega
    · rw [hright, hgap]
      constructor <;> omega
  have hbottom : ∀ {r : Rect}, InColumn rank r → Moderate r.y →
      (r.bottom + defaultSiblingGap).toInt = r.y.toInt + 128 := by
    intro r hr hy
    have hh : r.height.toInt = 88 := by rw [hr.height_eq]; rfl
    have hgap : defaultSiblingGap.toInt = 40 := rfl
    obtain ⟨hlow, hhigh⟩ := hy
    have hb : r.bottom.toInt = r.y.toInt + 88 := by
      rw [Rect.bottom, toInt_add_of_fits, hh]
      constructor <;> omega
    rw [toInt_add_of_fits, hb, hgap]
    · omega
    · rw [hb, hgap]
      constructor <;> omega
  have hax := hx ha
  have hbx := hx hb
  simp only [overlaps, Bool.and_eq_true, decide_eq_true_eq, Int64.lt_iff_toInt_lt, gt_iff_lt,
    hax.1, hax.2, hbx.1, hbx.2, hbottom ha hay, hbottom hb hby, Clear, not_le, abs_lt]
  omega

/-! ### Canonical placements -/

/-- What a canonical placement of `n` nodes looks like. -/
structure CanonicalPlace (n : Nat) (id : NodeID) (placement : Placement) : Prop where
  nodeID_eq : placement.nodeID = id
  column : ∃ rank : Nat, placement.rank = rank ∧ InColumn rank placement.bounds
  row : ∃ order < n, placement.bounds.y = canonicalY order

/-- The numbering after the nodes `done`. -/
structure Numbering.After (done : List Node) (s : Numbering) : Prop where
  orders_le : ∀ rank, s.orders rank ≤ done.length
  placed : ∀ id placement, s.result id = some placement →
    id ∈ done.map Node.id ∧ CanonicalPlace done.length id placement

theorem Numbering.After.place (hrank : ∀ i, (componentAt components i).rank ≤ maxLayoutNodes + 5)
    {s : Numbering} (h : s.After done) (node : Node) :
    (s.place components node).After (done ++ [node]) := by
  have hlen : (done ++ [node]).length = done.length + 1 := by simp
  refine ⟨?_, ?_⟩
  · intro rank
    by_cases hr : rank = (componentAt components (componentOf components node.id)).rank
    · subst hr
      simpa [Numbering.place] using h.orders_le _
    · simpa [Numbering.place, hr] using (h.orders_le rank).trans (Nat.le_succ _)
  · intro id placement hplaced
    by_cases hid : id = node.id
    · subst hid
      simp only [Numbering.place, Function.update_self, Option.some.injEq] at hplaced
      subst hplaced
      refine ⟨by simp, rfl, ⟨_, rfl, ⟨hrank _, rfl, rfl, rfl⟩⟩, _, ?_, rfl⟩
      rw [hlen]
      exact Nat.lt_succ_of_le (h.orders_le _)
    · simp only [Numbering.place, Function.update_of_ne hid] at hplaced
      obtain ⟨hmem, hnode, hcolumn, order, horder, hy⟩ := h.placed id placement hplaced
      rw [map_append, hlen]
      exact ⟨mem_append_left _ hmem, hnode, hcolumn, order, horder.trans (Nat.lt_succ_self _),
        hy⟩

theorem Numbering.After.foldl (hrank : ∀ i, (componentAt components i).rank ≤ maxLayoutNodes + 5)
    {s : Numbering} (h : s.After done) (todo : List Node) :
    (todo.foldl (Numbering.place components) s).After (done ++ todo) := by
  induction todo generalizing done s with
  | nil => simpa using h
  | cons node todo ih =>
    have := ih (h.place hrank node)
    rwa [append_assoc, singleton_append] at this

theorem rank_componentAt_le (hvalid : ValidInput input) (i : Nat) :
    (componentAt (rankedComponents input) i).rank ≤ maxLayoutNodes + 5 := by
  have hperm := perm_insertionSort (fun a b : Node => a.id.value ≤ b.id.value) input.nodes
  have hknown : ∀ edge ∈ sortEdges input.edges,
      edge.toNode ∈ (sortNodes input.nodes).map Node.id := by
    intro edge hedge
    have hmem := (hvalid.known edge ((mem_insertionSort _).1 hedge)).2
    exact (hperm.map Node.id).mem_iff.2 hmem
  have hcount := length_collapseComponents_le hknown
  rw [sortNodes, hperm.length_eq] at hcount
  unfold componentAt
  cases hi : (rankedComponents input)[i]? with
  | none => exact Nat.zero_le _
  | some component =>
    have hle := rank_le ?_ (mem_of_getElem? hi)
    · have hnodes := hvalid.nodes_le
      rw [Option.getD_some]
      unfold sortNodes at hle
      omega
    · intro c hc
      obtain ⟨members, -, rfl⟩ := mem_map.1 hc
      exact componentFloor_le _ members

theorem canonicalOf_eq_some (hvalid : ValidInput input)
    (h : canonicalOf input id = some placement) :
    id ∈ sortedIDs input ∧ CanonicalPlace input.nodes.length id placement := by
  have hstart : (⟨fun _ => 0, fun _ => none⟩ : Numbering).After [] := ⟨fun _ => le_rfl, nofun⟩
  have hend := (hstart.foldl (rank_componentAt_le hvalid) ((sortNodes input.nodes).insertionSort
    fun a b => precedes (rankedComponents input) a b)).placed id placement h
  rw [nil_append, length_insertionSort] at hend
  have hlen : (sortNodes input.nodes).length = input.nodes.length := length_insertionSort _ _
  rw [hlen] at hend
  refine ⟨?_, hend.2⟩
  obtain ⟨node, hnode, rfl⟩ := mem_map.1 hend.1
  exact mem_map_of_mem ((mem_insertionSort _).1 hnode)

/-! ### What the passes keep -/

/-- The recorded places are in their columns, belong to nodes of the graph and are taken. -/
structure Placing.Sound (canonical : NodeID → Option Placement) (s : Placing) : Prop where
  column : ∀ rank, ∀ rect ∈ s.occupied rank, ∃ r : Nat, rank = r ∧ InColumn r rect
  known : ∀ id placement, s.result id = some placement →
    placement.nodeID = id ∧ ∃ c, canonical id = some c
  taken : ∀ id placement, s.result id = some placement →
    placement.bounds ∈ s.occupied placement.rank

variable {s : Placing}

theorem Placing.mem_occupied_put {rank : Int} {rect : Rect} :
    rect ∈ (s.put id placement).occupied rank ↔
      rect ∈ s.occupied rank ∨ rank = placement.rank ∧ rect = placement.bounds := by
  by_cases hr : rank = placement.rank
  · subst hr
    simp [put]
  · simp [put, hr]

theorem Placing.result_put {other : NodeID} :
    (s.put id placement).result other = some q ↔
      other = id ∧ placement = q ∨ other ≠ id ∧ s.result other = some q := by
  by_cases ho : other = id
  · subst ho
    simp [put]
  · simp [put, ho]

namespace Placing.Sound

variable {canonical : NodeID → Option Placement}

theorem start : Placing.Sound canonical start :=
  ⟨fun _ _ h => absurd h not_mem_nil, nofun, nofun⟩

theorem put (h : s.Sound canonical) (placement : Placement) (hnode : placement.nodeID = id)
    (hknown : ∃ c, canonical id = some c) (hrank : placement.rank = rank)
    (hcolumn : InColumn rank placement.bounds) : (s.put id placement).Sound canonical := by
  refine ⟨?_, ?_, ?_⟩
  · intro r rect hrect
    rcases mem_occupied_put.1 hrect with hold | ⟨rfl, rfl⟩
    · exact h.column r rect hold
    · exact ⟨rank, hrank, hcolumn⟩
  · intro other q hq
    rcases result_put.1 hq with ⟨rfl, rfl⟩ | ⟨-, hold⟩
    · exact ⟨hnode, hknown⟩
    · exact h.known other q hold
  · intro other q hq
    rw [mem_occupied_put]
    rcases result_put.1 hq with ⟨rfl, rfl⟩ | ⟨-, hold⟩
    · exact .inr ⟨rfl, rfl⟩
    · exact .inl (h.taken other q hold)

end Placing.Sound

/-- The place of a hint would do for the node with the canonical place `c`, if it is free. -/
structure Suits (c hint : Placement) : Prop where
  rank_eq : hint.rank = c.rank
  width_eq : hint.bounds.width = defaultNodeWidth
  height_eq : hint.bounds.height = defaultNodeHeight
  x_eq : hint.bounds.x = c.bounds.x
  nonneg : 0 ≤ hint.bounds.y

theorem keeps_iff {hint : Placement} : keeps s hint placement = true ↔
    Suits placement hint ∧ overlapsAny hint.bounds (s.occupied hint.rank) = false := by
  simp only [keeps, Bool.and_eq_true, decide_eq_true_eq, Bool.not_eq_true', decide_eq_false_iff_not,
    Int64.not_lt]
  exact ⟨fun ⟨⟨⟨⟨⟨hr, hw⟩, hh⟩, hx⟩, hy⟩, hfree⟩ => ⟨⟨hr, hw, hh, hx, hy⟩, hfree⟩,
    fun ⟨⟨hr, hw, hh, hx, hy⟩, hfree⟩ => ⟨⟨⟨⟨⟨hr, hw⟩, hh⟩, hx⟩, hy⟩, hfree⟩⟩

section Passes

variable {canonical : NodeID → Option Placement} {edges : List Edge} {n : Nat}

theorem reuse_cases (canonical : NodeID → Option Placement) (s : Placing) (hint : Placement) :
    reuse canonical s hint = s ∨
      ∃ placement, canonical hint.nodeID = some placement ∧ keeps s hint placement = true ∧
        reuse canonical s hint =
          s.keep hint.nodeID { placement with bounds := hint.bounds } := by
  unfold reuse
  cases hc : canonical hint.nodeID with
  | none => exact .inl rfl
  | some placement =>
    by_cases hkeeps : keeps s hint placement = true
    · exact .inr ⟨placement, rfl, hkeeps, if_pos hkeeps⟩
    · exact .inl (if_neg hkeeps)

/-- The place a new node gets. -/
def chosen (edges : List Edge) (s : Placing) (id : NodeID) (placement : Placement) : Placement :=
  { placement with
    bounds := (candidate edges s id placement).at
      (nearestFreeY (candidate edges s id placement) (s.occupied placement.rank)) }

theorem placeNew_cases (canonical : NodeID → Option Placement) (edges : List Edge) (s : Placing)
    (id : NodeID) :
    placeNew canonical edges s id = s ∧ (∀ placement, s.result id = none →
        canonical id ≠ some placement) ∨
      ∃ placement, s.result id = none ∧ canonical id = some placement ∧
        placeNew canonical edges s id = s.put id (chosen edges s id placement) := by
  unfold placeNew
  cases hr : s.result id with
  | some p => exact .inl ⟨rfl, nofun⟩
  | none =>
    cases hc : canonical id with
    | none => exact .inl ⟨rfl, nofun⟩
    | some placement => exact .inr ⟨placement, rfl, rfl, rfl⟩

variable (hcanonical : ∀ id placement, canonical id = some placement →
  CanonicalPlace n id placement)

include hcanonical

theorem Placing.Sound.reuse (h : s.Sound canonical) (hint : Placement) :
    (reuse canonical s hint).Sound canonical := by
  rcases reuse_cases canonical s hint with heq | ⟨placement, hc, hkeeps, heq⟩
  · rwa [heq]
  · rw [heq]
    obtain ⟨hnode, ⟨rank, hrank, hcolumn⟩, -⟩ := hcanonical _ _ hc
    obtain ⟨⟨-, hwidth, hheight, hx, -⟩, -⟩ := keeps_iff.1 hkeeps
    have hput := h.put { placement with bounds := hint.bounds } hnode ⟨_, hc⟩ hrank
      ⟨hcolumn.rank_le, hx.trans hcolumn.x_eq, hwidth, hheight⟩
    exact ⟨hput.column, hput.known, hput.taken⟩

theorem candidate_inColumn (edges : List Edge) (s : Placing) (hc : canonical id = some placement) :
    ∃ rank : Nat, placement.rank = rank ∧ InColumn rank (candidate edges s id placement) := by
  obtain ⟨-, ⟨rank, hrank, hcolumn⟩, -⟩ := hcanonical _ _ hc
  refine ⟨rank, hrank, ?_⟩
  unfold candidate
  split
  · exact hcolumn
  · exact hcolumn.at _

theorem Placing.Sound.placeNew (h : s.Sound canonical) (id : NodeID) :
    (placeNew canonical edges s id).Sound canonical := by
  rcases placeNew_cases canonical edges s id with ⟨heq, -⟩ | ⟨placement, -, hc, heq⟩
  · rwa [heq]
  · rw [heq]
    obtain ⟨rank, hrank, hcolumn⟩ := candidate_inColumn hcanonical edges s hc
    exact h.put (chosen edges s id placement) (hcanonical _ _ hc).nodeID_eq ⟨_, hc⟩ hrank
      (hcolumn.at _)

end Passes

/-! ### The first pass -/

section Reuse

variable {canonical : NodeID → Option Placement} {done hints : List Placement} {hint : Placement}

/-- A place of the prior layout that its node can keep when it is free. -/
def Suitable (canonical : NodeID → Option Placement) (hint : Placement) : Prop :=
  ∃ c, canonical hint.nodeID = some c ∧ Suits c hint

/-- The suitable ones of the hints `done` are taken over, and nothing else is placed. -/
structure Placing.TookOver (canonical : NodeID → Option Placement) (done : List Placement)
    (s : Placing) : Prop where
  sublist : ∀ rank, (s.occupied rank).Sublist
    ((done.filter fun hint => hint.rank = rank).map Placement.bounds)
  taken : ∀ rank, ∀ rect ∈ s.occupied rank,
    ∃ hint ∈ done, Suitable canonical hint ∧ hint.rank = rank ∧ hint.bounds = rect
  placed : ∀ id p, s.result id = some p → ∃ hint ∈ done, hint.nodeID = id ∧
    Suitable canonical hint ∧ hint.rank = p.rank ∧ hint.bounds = p.bounds
  kept : ∀ hint ∈ done, Suitable canonical hint →
    ∃ p, s.result hint.nodeID = some p ∧ p.bounds = hint.bounds
  reused : ∀ id, s.reused id = true → s.result id ≠ none

theorem Placing.TookOver.start : start.TookOver canonical [] :=
  ⟨fun _ => .slnil, fun _ _ h => absurd h not_mem_nil, nofun, fun _ h => absurd h not_mem_nil,
    nofun⟩

theorem Placing.TookOver.skip (h : s.TookOver canonical done) (hint : Placement)
    (hnot : ¬Suitable canonical hint) : s.TookOver canonical (done ++ [hint]) := by
  refine ⟨fun rank => ?_, fun rank rect hrect => ?_, fun id p hp => ?_, ?_, h.reused⟩
  · rw [filter_append, map_append]
    exact (h.sublist rank).trans (sublist_append_left _ _)
  · obtain ⟨other, hother, hspot⟩ := h.taken rank rect hrect
    exact ⟨other, mem_append_left _ hother, hspot⟩
  · obtain ⟨other, hother, hspot⟩ := h.placed id p hp
    exact ⟨other, mem_append_left _ hother, hspot⟩
  · rw [forall_mem_append, forall_mem_singleton]
    exact ⟨h.kept, fun hsuits => absurd hsuits hnot⟩

theorem Placing.TookOver.keep (h : s.TookOver canonical done)
    (hnew : hint.nodeID ∉ done.map Placement.nodeID) (hc : canonical hint.nodeID = some placement)
    (hsuits : Suits placement hint) :
    (s.keep hint.nodeID { placement with bounds := hint.bounds }).TookOver canonical
      (done ++ [hint]) := by
  have hmem : hint ∈ done ++ [hint] := mem_append_right _ mem_cons_self
  refine ⟨fun rank => ?_, fun rank rect hrect => ?_, fun id p hp => ?_, ?_, fun id hreused => ?_⟩
  · rw [filter_append, map_append, keep_occupied]
    by_cases hrank : hint.rank = rank
    · have hput : placement.rank = rank := hsuits.rank_eq.symm.trans hrank
      simpa [Placing.put, hput, hrank] using (h.sublist rank).append (Sublist.refl [hint.bounds])
    · have hput : rank ≠ placement.rank := fun heq => hrank (hsuits.rank_eq.trans heq.symm)
      simpa [Placing.put, hput, hrank] using h.sublist rank
  · rw [keep_occupied] at hrect
    rcases mem_occupied_put.1 hrect with hrect | ⟨rfl, rfl⟩
    · obtain ⟨other, hother, hspot⟩ := h.taken rank rect hrect
      exact ⟨other, mem_append_left _ hother, hspot⟩
    · exact ⟨hint, hmem, ⟨placement, hc, hsuits⟩, hsuits.rank_eq, rfl⟩
  · rcases result_put.1 hp with ⟨rfl, rfl⟩ | ⟨-, hold⟩
    · exact ⟨hint, hmem, rfl, ⟨placement, hc, hsuits⟩, hsuits.rank_eq, rfl⟩
    · obtain ⟨other, hother, hspot⟩ := h.placed id p hold
      exact ⟨other, mem_append_left _ hother, hspot⟩
  · rw [forall_mem_append, forall_mem_singleton]
    refine ⟨fun other hother hother' => ?_, fun _ => ⟨_, result_put.2 (.inl ⟨rfl, rfl⟩), rfl⟩⟩
    obtain ⟨p, hp, hbounds⟩ := h.kept other hother hother'
    have hne : other.nodeID ≠ hint.nodeID := fun heq => hnew (heq ▸ mem_map_of_mem hother)
    exact ⟨p, result_put.2 (.inr ⟨hne, hp⟩), hbounds⟩
  · by_cases hid : id = hint.nodeID
    · subst hid
      simp [Placing.put]
    · have hold : s.reused id = true := by simpa [Placing.keep, hid] using hreused
      simpa [Placing.put, hid] using h.reused id hold

/-- **The step.** A suitable hint that overlaps none of the suitable hints before it is taken
over. -/
theorem Placing.TookOver.reuse (h : s.TookOver canonical done)
    (hnew : hint.nodeID ∉ done.map Placement.nodeID)
    (hfree : ∀ other ∈ done, Suitable canonical hint → Suitable canonical other →
      hint.rank = other.rank → overlaps hint.bounds other.bounds = false) :
    (GraphLayout.reuse canonical s hint).TookOver canonical (done ++ [hint]) := by
  have hclear : Suitable canonical hint →
      overlapsAny hint.bounds (s.occupied hint.rank) = false := by
    intro hsuits
    rw [overlapsAny, any_eq_false]
    intro rect hrect
    obtain ⟨other, hother, hother', hrank, rfl⟩ := h.taken _ rect hrect
    simp [hfree other hother hsuits hother' hrank.symm]
  unfold GraphLayout.reuse
  cases hc : canonical hint.nodeID with
  | none => exact h.skip hint (by rintro ⟨c, hc', -⟩; cases hc.symm.trans hc')
  | some placement =>
    dsimp only
    split_ifs with hkeeps
    · exact h.keep hnew hc (keeps_iff.1 hkeeps).1
    · refine h.skip hint ?_
      rintro ⟨c, hc', hsuits⟩
      obtain rfl : placement = c := Option.some.inj (hc.symm.trans hc')
      exact hkeeps (keeps_iff.2 ⟨hsuits, hclear ⟨placement, hc, hsuits⟩⟩)

/-- **The first pass** takes every suitable hint over, when no two of them overlap. -/
theorem tookOver_reuseHints (hnodup : (hints.map Placement.nodeID).Nodup)
    (hfree : ∀ p ∈ hints, ∀ q ∈ hints, p.nodeID ≠ q.nodeID → Suitable canonical p →
      Suitable canonical q → p.rank = q.rank → overlaps p.bounds q.bounds = false) :
    (reuseHints canonical hints).TookOver canonical hints := by
  induction hints using List.reverseRecOn with
  | nil => exact Placing.TookOver.start
  | append_singleton hints hint ih =>
    simp only [forall_mem_append, forall_mem_singleton] at hfree
    rw [map_append, map_singleton, nodup_append] at hnodup
    obtain ⟨hnodup, -, hdistinct⟩ := hnodup
    have hnew : hint.nodeID ∉ hints.map Placement.nodeID := fun hmem =>
      hdistinct _ hmem _ mem_cons_self rfl
    rw [reuseHints, foldl_append]
    refine (ih hnodup fun p hp => (hfree.1 p hp).1).reuse hnew ?_
    exact fun other hother => hfree.2.1 other hother fun heq => hnew (heq ▸ mem_map_of_mem hother)

end Reuse

theorem Clear.symm {a b : Int64} (h : Clear a b) : Clear b a := by
  unfold Clear at h ⊢
  rwa [abs_sub_comm]

/-- Any two nodes of one rank are clear of each other. -/
def Placing.Separated (s : Placing) : Prop :=
  ∀ a b p q, a ≠ b → s.result a = some p → s.result b = some q → p.rank = q.rank →
    Clear p.bounds.y q.bounds.y

theorem Placing.Separated.put (h : s.Separated)
    (hclear : ∀ other q, other ≠ id → s.result other = some q → q.rank = placement.rank →
      Clear placement.bounds.y q.bounds.y) : (s.put id placement).Separated := by
  intro a b p q hab hp hq hrank
  rcases result_put.1 hp with ⟨rfl, rfl⟩ | ⟨ha, hold⟩
  · rcases result_put.1 hq with ⟨rfl, rfl⟩ | ⟨hb, hold⟩
    · exact absurd rfl hab
    · exact hclear b q hb hold hrank.symm
  · rcases result_put.1 hq with ⟨rfl, rfl⟩ | ⟨-, hold'⟩
    · exact (hclear a p ha hold hrank).symm
    · exact h a b p q hab hold hold' hrank

/-- Two placements keep their distance: within a rank by height, and between ranks by column. -/
def Apart (p q : Placement) : Prop :=
  (p.rank = q.rank → Clear p.bounds.y q.bounds.y) ∧
    (p.rank ≠ q.rank → p.bounds.x.toInt + p.bounds.width.toInt ≤ q.bounds.x.toInt ∨
      q.bounds.x.toInt + q.bounds.width.toInt ≤ p.bounds.x.toInt)

/-- The placements of a layout are pairwise separated. -/
def Layout.Separated (layout : Layout) : Prop := layout.nodes.Pairwise Apart

theorem InColumn.disjoint {r r' : Nat} (ha : InColumn r a) (hb : InColumn r' b) (hne : r ≠ r') :
    a.x.toInt + a.width.toInt ≤ b.x.toInt ∨ b.x.toInt + b.width.toInt ≤ a.x.toInt := by
  have hw : defaultNodeWidth.toInt = 240 := rfl
  rw [ha.x_eq, hb.x_eq, ha.width_eq, hb.width_eq, toInt_canonicalX ha.rank_le,
    toInt_canonicalX hb.rank_le, hw]
  omega

theorem pairwise_assignOrders (placements : List Placement) :
    (assignOrders placements).Pairwise Apart ↔ placements.Pairwise Apart := by
  rw [assignOrders, pairwise_map]
  rfl

theorem compute_nodes (h : compute hintSort input = .ok layout) :
    ValidInput input ∧ layout.algorithmVersion = algorithmVersion ∧
      layout.nodes = assignOrders ((sortedIDs input).filterMap (placed hintSort input).result) := by
  simp only [compute, bind_ok_iff] at h
  obtain ⟨_, hvalid, hrest⟩ := h
  refine ⟨validateInput_ok_iff.1 hvalid, ?_⟩
  split_ifs at hrest with hempty
  · rw [pure_ok_iff] at hrest
    subst hrest
    simp [sortedIDs, sortNodes, hempty, assignOrders]
  · rw [pure_ok_iff] at hrest
    subst hrest
    exact ⟨rfl, rfl⟩

section

variable (hvalid : ValidInput input)

include hvalid

theorem canonicalOf_place (id : NodeID) (placement : Placement)
    (h : canonicalOf input id = some placement) : CanonicalPlace input.nodes.length id placement :=
  (canonicalOf_eq_some hvalid h).2

theorem Placing.Sound.reuseHints (hintSort : HintSort) :
    (reuseHints (canonicalOf input) (priorHints hintSort input.previous)).Sound
      (canonicalOf input) :=
  List.foldlRecOn _ _ start fun _ hs hint _ => hs.reuse (canonicalOf_place hvalid) hint

theorem Placing.Sound.placed (hintSort : HintSort) :
    (placed hintSort input).Sound (canonicalOf input) :=
  List.foldlRecOn _ _ (reuseHints hvalid hintSort) fun _ hs id _ =>
    hs.placeNew (canonicalOf_place hvalid) id

theorem nodup_sortedIDs : (sortedIDs input).Nodup :=
  ((perm_insertionSort _ input.nodes).map Node.id).nodup_iff.2 hvalid.distinct

end

/-- A layout is separated when the places of each rank are: the columns are disjoint in any case. -/
theorem layout_separated (h : compute hintSort input = .ok layout)
    (hs : (placed hintSort input).Separated) : layout.Separated := by
  obtain ⟨hvalid, -, hnodes⟩ := compute_nodes h
  have hsound := Placing.Sound.placed hvalid hintSort
  rw [Layout.Separated, hnodes, pairwise_assignOrders, pairwise_filterMap]
  refine (nodup_sortedIDs hvalid).imp ?_
  intro a b hab p hp q hq
  refine ⟨hs a b p q hab hp hq, ?_⟩
  intro hrank
  obtain ⟨r, hr, hcol⟩ := hsound.column _ _ (hsound.taken a p hp)
  obtain ⟨r', hr', hcol'⟩ := hsound.column _ _ (hsound.taken b q hq)
  refine hcol.disjoint hcol' ?_
  rintro rfl
  exact hrank (hr.trans hr'.symm)

end Codeflux.GraphLayout
