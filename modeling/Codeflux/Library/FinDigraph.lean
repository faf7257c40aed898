import Mathlib.Data.Set.Finite.Lemmas
import Mathlib.Algebra.Order.Ring.Nat
import Mathlib.Algebra.Order.BigOperators.Group.List

/-!
# Searching finite directed graphs

A search keeps the nodes it has seen and a queue. Its loop marks a node when it leaves the queue,
and skips it when it was marked before, or marks it when it enters. Both loops end on every finite
graph, cycles included, and find exactly the reachable nodes.
-/

namespace Codeflux.Library

open List

/-- A directed graph with finitely many edges. -/
structure FinDigraph (α : Type*) where
  /-- The nodes that may have successors. -/
  nodes : List α
  next : α → List α
  outside : ∀ x, x ∉ nodes → next x = []

namespace FinDigraph

variable {α : Type*} {G H : FinDigraph α} {x y : α}

/-- There is a path, possibly empty, from the first node to the second. -/
def Reach (G : FinDigraph α) : α → α → Prop := Relation.ReflTransGen fun x y => y ∈ G.next x

theorem Reach.mono (h : ∀ x y, y ∈ G.next x → y ∈ H.next x) (hxy : G.Reach x y) : H.Reach x y :=
  Relation.ReflTransGen.mono h x y hxy

theorem reach_congr (h : ∀ x y, y ∈ G.next x ↔ y ∈ H.next x) : G.Reach x y ↔ H.Reach x y :=
  ⟨Reach.mono fun x y => (h x y).1, Reach.mono fun x y => (h x y).2⟩

variable {visited queue : List α}

/-- A set of nodes that every edge from it either stays in or leads to the queue reaches what the
queue reaches. -/
theorem Reach.of_closed
    (closed : ∀ v ∈ visited, v ∉ queue → ∀ w ∈ G.next v, w ∈ visited ∨ w ∈ queue) (hx : x ∈ visited)
    (hxy : G.Reach x y) : y ∈ visited ∨ ∃ z ∈ queue, G.Reach z y := by
  induction hxy using Relation.ReflTransGen.head_induction_on with
  | refl => exact .inl hx
  | @head v w hvw hwy ih =>
    by_cases hv : v ∈ queue
    · exact .inr ⟨v, hv, Relation.ReflTransGen.head hvw hwy⟩
    · rcases closed v hx hv w hvw with hw | hw
      · exact ih hw
      · exact .inr ⟨w, hw, hwy⟩

variable [DecidableEq α]

/-! ### Marking on exit -/

/-- The edges from nodes that are not marked. -/
def pending (G : FinDigraph α) (visited : List α) : Nat :=
  ((G.nodes.filter (· ∉ visited)).map fun x => (G.next x).length).sum

theorem sum_unmarked_le (f : α → Nat) (nodes : List α) (hx : x ∉ visited) :
    ((nodes.filter (· ∉ x :: visited)).map f).sum + (if x ∈ nodes then f x else 0) ≤
      ((nodes.filter (· ∉ visited)).map f).sum := by
  induction nodes with
  | nil => simp
  | cons a nodes ih =>
    by_cases hax : a = x
    · subst hax
      simp [hx] at ih ⊢
      split_ifs at ih <;> omega
    · by_cases ha : a ∈ visited
      · simpa [ha, hax, Ne.symm hax] using ih
      · simp [ha, hax, Ne.symm hax] at ih ⊢
        omega

theorem pending_cons_le (G : FinDigraph α) (hx : x ∉ visited) :
    G.pending (x :: visited) + (G.next x).length ≤ G.pending visited := by
  have hle := sum_unmarked_le (fun x => (G.next x).length) G.nodes hx
  by_cases hnode : x ∈ G.nodes
  · rwa [if_pos hnode] at hle
  · rw [if_neg hnode] at hle
    rwa [G.outside x hnode]

/-- The search that marks a node when it leaves the queue. -/
def visit (G : FinDigraph α) (visited queue : List α) : List α :=
  match queue with
  | [] => visited
  | x :: rest =>
    if x ∈ visited then G.visit visited rest else G.visit (x :: visited) (rest ++ G.next x)
termination_by queue.length + G.pending visited
decreasing_by
  · simp
  · next hx =>
    have := G.pending_cons_le hx
    simp only [length_append, length_cons]
    omega

/-- **Marking on exit finds the reachable nodes.** -/
theorem mem_visit_iff (closed : ∀ v ∈ visited, ∀ w ∈ G.next v, w ∈ visited ∨ w ∈ queue) :
    y ∈ G.visit visited queue ↔ y ∈ visited ∨ ∃ x ∈ queue, G.Reach x y := by
  fun_induction visit G visited queue with
  | case1 visited => simp
  | case2 visited x rest hx ih =>
    have hrest : ∀ v ∈ visited, ∀ w ∈ G.next v, w ∈ visited ∨ w ∈ rest := by
      intro v hv w hw
      rcases closed v hv w hw with h | h
      · exact .inl h
      · rcases mem_cons.1 h with rfl | h
        · exact .inl hx
        · exact .inr h
    have hreach : G.Reach x y → y ∈ visited ∨ ∃ z ∈ rest, G.Reach z y :=
      Reach.of_closed (fun v hv _ => hrest v hv) hx
    rw [ih hrest, exists_mem_cons_iff]
    tauto
  | case3 visited x rest hx ih =>
    have hclosed : ∀ v ∈ x :: visited, ∀ w ∈ G.next v,
        w ∈ x :: visited ∨ w ∈ rest ++ G.next x := by
      intro v hv w hw
      rcases mem_cons.1 hv with rfl | hv
      · exact .inr (mem_append_right _ hw)
      · rcases closed v hv w hw with h | h
        · exact .inl (mem_cons_of_mem _ h)
        · rcases mem_cons.1 h with rfl | h
          · exact .inl mem_cons_self
          · exact .inr (mem_append_left _ h)
    -- the node itself, or a path through one of its successors
    have hhead : G.Reach x y ↔ x = y ∨ ∃ w ∈ G.next x, G.Reach w y :=
      Relation.ReflTransGen.cases_head_iff
    rw [ih hclosed, exists_mem_cons_iff, hhead, mem_cons, eq_comm]
    simp only [mem_append, or_and_right, exists_or, or_assoc, or_comm, or_left_comm]

/-! ### Marking on entry -/

/-- The candidates that are not marked yet, each at its first occurrence. -/
def fresh (visited : List α) : List α → List α
  | [] => []
  | y :: ys => if y ∈ visited then fresh visited ys else y :: fresh (visited ++ [y]) ys

theorem mem_fresh_iff {candidates : List α} :
    y ∈ fresh visited candidates ↔ y ∈ candidates ∧ y ∉ visited := by
  induction candidates generalizing visited with
  | nil => simp [fresh]
  | cons z candidates ih =>
    rw [fresh]
    split_ifs with hz
    · rw [ih, mem_cons]
      constructor
      · rintro ⟨hmem, hnot⟩
        exact ⟨.inr hmem, hnot⟩
      · rintro ⟨rfl | hmem, hnot⟩
        · exact absurd hz hnot
        · exact ⟨hmem, hnot⟩
    · rw [mem_cons, ih, mem_cons, mem_append, mem_singleton, not_or]
      constructor
      · rintro (rfl | ⟨hmem, hnot, -⟩)
        · exact ⟨.inl rfl, hz⟩
        · exact ⟨.inr hmem, hnot⟩
      · rintro ⟨rfl | hmem, hnot⟩
        · exact .inl rfl
        · by_cases hyz : y = z
          · exact .inl hyz
          · exact .inr ⟨hmem, hnot, hyz⟩

theorem fresh_nodup (visited candidates : List α) : (fresh visited candidates).Nodup := by
  induction candidates generalizing visited with
  | nil => exact nodup_nil
  | cons z candidates ih =>
    rw [fresh]
    split_ifs
    · exact ih visited
    · refine nodup_cons.2 ⟨fun hmem => ?_, ih _⟩
      exact (mem_fresh_iff.1 hmem).2 (mem_append_right _ mem_cons_self)

/-- The ends of edges that are not marked. -/
def unmarkedEnds (G : FinDigraph α) (visited : List α) : List α :=
  (G.nodes.flatMap G.next).filter (· ∉ visited)

theorem unmarkedEnds_append_le (G : FinDigraph α) (visited : List α) (x : α) :
    (G.unmarkedEnds (visited ++ fresh visited (G.next x))).length +
      (fresh visited (G.next x)).length ≤ (G.unmarkedEnds visited).length := by
  have hsub : (fresh visited (G.next x)).Subperm
      ((G.unmarkedEnds visited).filter (· ∈ fresh visited (G.next x))) := by
    refine (fresh_nodup _ _).subperm fun y hy => ?_
    have hnode : x ∈ G.nodes := by
      by_contra hnode
      rw [G.outside x hnode] at hy
      exact absurd hy not_mem_nil
    obtain ⟨hnext, hnot⟩ := mem_fresh_iff.1 hy
    refine mem_filter.2 ⟨mem_filter.2 ⟨mem_flatMap.2 ⟨x, hnode, hnext⟩, ?_⟩, ?_⟩
    · simpa using hnot
    · simpa using hy
  have hrest : G.unmarkedEnds (visited ++ fresh visited (G.next x)) =
      (G.unmarkedEnds visited).filter (fun y => !decide (y ∈ fresh visited (G.next x))) := by
    simp [unmarkedEnds, filter_filter, not_or, Bool.and_comm]
  have hsplit := length_eq_length_filter_add
    (fun y => decide (y ∈ fresh visited (G.next x))) (l := G.unmarkedEnds visited)
  rw [hrest, hsplit]
  have := hsub.length_le
  omega

/-- The search that marks a node when it enters the queue. -/
def spread (G : FinDigraph α) (visited queue : List α) : List α :=
  match queue with
  | [] => visited
  | x :: rest =>
    G.spread (visited ++ fresh visited (G.next x)) (rest ++ fresh visited (G.next x))
termination_by queue.length + (G.unmarkedEnds visited).length
decreasing_by
  have := G.unmarkedEnds_append_le visited x
  simp only [length_append, length_cons]
  omega

theorem mem_spread (hqueue : queue ⊆ visited)
    (closed : ∀ v ∈ visited, v ∉ queue → ∀ w ∈ G.next v, w ∈ visited) :
    y ∈ G.spread visited queue ↔ y ∈ visited ∨ ∃ x ∈ queue, G.Reach x y := by
  fun_induction spread G visited queue with
  | case1 visited => simp
  | case2 visited x rest ih =>
    have hrest : rest ++ fresh visited (G.next x) ⊆ visited ++ fresh visited (G.next x) := by
      intro z hz
      rcases mem_append.1 hz with hz | hz
      · exact mem_append_left _ (hqueue (mem_cons_of_mem _ hz))
      · exact mem_append_right _ hz
    have hclosed : ∀ v ∈ visited ++ fresh visited (G.next x),
        v ∉ rest ++ fresh visited (G.next x) →
        ∀ w ∈ G.next v, w ∈ visited ++ fresh visited (G.next x) := by
      intro v hv hnot w hw
      rw [mem_append, not_or] at hnot
      have hv : v ∈ visited := (mem_append.1 hv).resolve_right hnot.2
      by_cases hvx : v = x
      · by_cases hwv : w ∈ visited
        · exact mem_append_left _ hwv
        · exact mem_append_right _ (mem_fresh_iff.2 ⟨hvx ▸ hw, hwv⟩)
      · refine mem_append_left _ (closed v hv (fun hmem => ?_) w hw)
        rcases mem_cons.1 hmem with h | h
        · exact hvx h
        · exact hnot.1 h
    rw [ih hrest hclosed]
    constructor
    · rintro (h | ⟨z, hz, hzy⟩)
      · rcases mem_append.1 h with h | h
        · exact .inl h
        · exact .inr ⟨x, mem_cons_self, .single (mem_fresh_iff.1 h).1⟩
      · rcases mem_append.1 hz with hz | hz
        · exact .inr ⟨z, mem_cons_of_mem _ hz, hzy⟩
        · exact .inr ⟨x, mem_cons_self, .head (mem_fresh_iff.1 hz).1 hzy⟩
    · rintro (h | ⟨z, hz, hzy⟩)
      · exact .inl (mem_append_left _ h)
      · rcases mem_cons.1 hz with rfl | hz
        · exact Reach.of_closed (fun v hv hnot w hw => .inl (hclosed v hv hnot w hw))
            (mem_append_left _ (hqueue mem_cons_self)) hzy
        · exact .inr ⟨z, mem_append_left _ hz, hzy⟩

/-- **Marking on entry finds the reachable nodes.** -/
theorem mem_spread_iff : y ∈ G.spread [x] [x] ↔ G.Reach x y := by
  rw [mem_spread (List.Subset.refl _) fun v hv hnot => absurd hv hnot]
  constructor
  · rintro (h | ⟨z, hz, hzy⟩)
    · exact mem_singleton.1 h ▸ .refl
    · exact mem_singleton.1 hz ▸ hzy
  · exact fun h => .inr ⟨x, mem_cons_self, h⟩

theorem spread_nodup (h : visited.Nodup) (queue : List α) : (G.spread visited queue).Nodup := by
  fun_induction spread G visited queue with
  | case1 visited => exact h
  | case2 visited x rest ih =>
    refine ih (nodup_append.2 ⟨h, fresh_nodup _ _, ?_⟩)
    rintro a ha b hb rfl
    exact (mem_fresh_iff.1 hb).2 ha

theorem prefix_spread (visited queue : List α) : visited <+: G.spread visited queue := by
  fun_induction spread G visited queue with
  | case1 visited => exact prefix_rfl
  | case2 visited x rest ih => exact (prefix_append _ _).trans ih

theorem mem_tail_spread_iff : y ∈ (G.spread [x] [x]).tail ↔ y ≠ x ∧ G.Reach x y := by
  obtain ⟨rest, hrest⟩ := prefix_spread (G := G) [x] [x]
  have hnodup := spread_nodup (G := G) (nodup_singleton x) [x]
  rw [← mem_spread_iff, ← hrest] at *
  have hnot : x ∉ rest := (nodup_cons.1 hnodup).1
  show y ∈ rest ↔ y ≠ x ∧ y ∈ x :: rest
  rw [mem_cons]
  constructor
  · exact fun hy => ⟨fun heq => hnot (heq ▸ hy), .inr hy⟩
  · rintro ⟨hne, hy⟩
    exact hy.resolve_left hne

theorem tail_spread_nodup : (G.spread [x] [x]).tail.Nodup :=
  (spread_nodup (nodup_singleton x) [x]).sublist (tail_sublist _)

end FinDigraph

/-! ### Sweeping a list of edges -/

section Saturate

variable {α : Type*} [DecidableEq α] {edges : List (α × α)} {marked : Finset α} {x y : α}

/-- Two nodes are the ends of an edge, in either direction. -/
def Linked (edges : List (α × α)) (x y : α) : Prop := (x, y) ∈ edges ∨ (y, x) ∈ edges

/-- Mark both ends of an edge if one of them is marked. -/
def cover (marked : Finset α) (edge : α × α) : Finset α :=
  if edge.1 ∈ marked ∨ edge.2 ∈ marked then insert edge.1 (insert edge.2 marked) else marked

/-- One pass over the edges. -/
def sweep (edges : List (α × α)) (marked : Finset α) : Finset α := edges.foldl cover marked

theorem mem_cover_iff {edge : α × α} :
    y ∈ cover marked edge ↔
      y ∈ marked ∨ (edge.1 ∈ marked ∨ edge.2 ∈ marked) ∧ (y = edge.1 ∨ y = edge.2) := by
  rw [cover]
  split_ifs with h
  · simp only [h, Finset.mem_insert, true_and]
    tauto
  · simp only [h, false_and, or_false]

theorem subset_sweep (edges : List (α × α)) (marked : Finset α) : marked ⊆ sweep edges marked :=
  List.foldlRecOn edges cover (Finset.Subset.refl marked) fun _ h _ _ _ hy =>
    mem_cover_iff.2 (.inl (h hy))

theorem cover_subset_sweep {edge : α × α} (h : edge ∈ edges) :
    cover marked edge ⊆ sweep edges marked := by
  induction edges generalizing marked with
  | nil => exact absurd h not_mem_nil
  | cons first edges ih =>
    rcases mem_cons.1 h with rfl | h
    · exact subset_sweep edges _
    · intro y hy
      refine ih h (mem_cover_iff.2 ?_)
      have hkeep {z : α} (hz : z ∈ marked) : z ∈ cover marked first := mem_cover_iff.2 (.inl hz)
      exact (mem_cover_iff.1 hy).imp hkeep (And.imp_left (Or.imp hkeep hkeep))

/-- What a pass marks is connected to what was marked before. -/
theorem exists_of_mem_sweep (h : y ∈ sweep edges marked) :
    ∃ x ∈ marked, Relation.ReflTransGen (Linked edges) x y := by
  refine List.foldlRecOn edges cover
    (motive := fun found => ∀ y ∈ found, ∃ x ∈ marked, Relation.ReflTransGen (Linked edges) x y)
    (fun y hy => ⟨y, hy, .refl⟩) (fun found ih edge hedge y hy => ?_) y h
  rcases mem_cover_iff.1 hy with hy | ⟨hend | hend, rfl | rfl⟩
  · exact ih y hy
  · exact ih _ hend
  · exact (ih _ hend).imp fun _ => And.imp_right (.tail · (.inl hedge))
  · exact (ih _ hend).imp fun _ => And.imp_right (.tail · (.inr hedge))
  · exact ih _ hend

/-- Pass over the edges until a pass marks nothing. -/
def saturate (edges : List (α × α)) (marked : Finset α) : Finset α :=
  if sweep edges marked = marked then marked else saturate edges (sweep edges marked)
termination_by ((edges.flatMap fun edge => [edge.1, edge.2]).toFinset \ marked).card
decreasing_by
  next h =>
  -- a newly marked node is the end of an edge
  obtain ⟨y, hy, hnot⟩ := Finset.exists_of_ssubset
    ((subset_sweep edges marked).ssubset_of_ne (Ne.symm h))
  obtain ⟨x, hx, hxy⟩ := exists_of_mem_sweep hy
  have hend : y ∈ edges.flatMap fun edge => [edge.1, edge.2] := by
    rcases hxy.cases_tail with rfl | ⟨z, -, hz | hz⟩
    · exact absurd hx hnot
    · exact mem_flatMap.2 ⟨_, hz, by simp⟩
    · exact mem_flatMap.2 ⟨_, hz, by simp⟩
  refine Finset.card_lt_card (Finset.ssubset_iff_of_subset
    (Finset.sdiff_subset_sdiff (Finset.Subset.refl _) (subset_sweep edges marked)) |>.2 ⟨y, ?_, ?_⟩)
  · exact Finset.mem_sdiff.2 ⟨mem_toFinset.2 hend, hnot⟩
  · exact fun hmem => (Finset.mem_sdiff.1 hmem).2 hy

/-- **Sweeping finds the nodes connected to its start.** -/
theorem mem_saturate_iff :
    y ∈ saturate edges marked ↔ ∃ x ∈ marked, Relation.ReflTransGen (Linked edges) x y := by
  fun_induction saturate edges marked with
  | case1 marked hfixed =>
    refine ⟨fun hy => ⟨y, hy, .refl⟩, ?_⟩
    rintro ⟨x, hx, hxy⟩
    induction hxy with
    | refl => exact hx
    | tail _ hlink ih =>
      rw [← hfixed]
      rcases hlink with hedge | hedge
      · exact cover_subset_sweep hedge (mem_cover_iff.2 (.inr ⟨.inl ih, .inr rfl⟩))
      · exact cover_subset_sweep hedge (mem_cover_iff.2 (.inr ⟨.inr ih, .inl rfl⟩))
  | case2 marked _ ih =>
    rw [ih]
    constructor
    · rintro ⟨z, hz, hzy⟩
      obtain ⟨x, hx, hxz⟩ := exists_of_mem_sweep hz
      exact ⟨x, hx, hxz.trans hzy⟩
    · rintro ⟨x, hx, hxy⟩
      exact ⟨x, subset_sweep edges marked hx, hxy⟩

end Saturate

/-- **Finitely many things without a cycle have a minimal one.** -/
theorem exists_minimal_of_acyclic {α : Type*} {r : α → α → Prop}
    (hacyclic : ∀ a, ¬Relation.TransGen r a a) {s : List α} (hs : s ≠ []) :
    ∃ m ∈ s, ∀ a ∈ s, ¬r a m := by
  let below : { a // a ∈ s } → { a // a ∈ s } → Prop := fun a b => Relation.TransGen r a b
  have htrans : IsTrans _ below := ⟨fun _ _ _ hab hbc => hab.trans hbc⟩
  have hirrefl : Std.Irrefl below := ⟨fun a => hacyclic a⟩
  have hfinite : Finite { a // a ∈ s } := finite_toSet s
  have hwf : WellFounded below := Finite.wellFounded_of_trans_of_irrefl below
  obtain ⟨a, ha⟩ := exists_mem_of_ne_nil s hs
  obtain ⟨m, -, hmin⟩ := hwf.has_min Set.univ ⟨⟨a, ha⟩, trivial⟩
  exact ⟨m, m.2, fun b hb hr => hmin ⟨b, hb⟩ trivial (.single hr)⟩

end Codeflux.Library
