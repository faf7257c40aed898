import Mathlib.Data.Finset.Card

/-!
# Depth-first search for components

The recursive search that closes a component when a vertex comes back with its own number as the
lowest one it can reach. Any fuel that covers the vertices not yet numbered gives the same search.
-/

namespace Codeflux.Library.Tarjan

variable {V : Type*}

/-- The state of the search. A vertex without a number has the number zero. -/
structure Search (V : Type*) where
  index : ℕ
  (indices lowlink : V → ℕ)
  onStack : V → Bool
  /-- The open vertices, the last one first. -/
  stack : List V
  /-- The closed components, the first one first. -/
  memberships : List (List V)

variable {s : Search V} {v : V}

namespace Search

/-- Before any visit. -/
def start : Search V := ⟨0, fun _ => 0, fun _ => 0, fun _ => false, [], []⟩

/-- The vertices without a number. -/
def unseen (nodes : Finset V) (s : Search V) : Finset V := nodes.filter (s.indices · = 0)

@[simp] theorem mem_unseen {nodes : Finset V} : v ∈ s.unseen nodes ↔ v ∈ nodes ∧ s.indices v = 0 :=
  Finset.mem_filter

end Search

/-- What a search does to its bookkeeping: numbers stay, and each new component uses up a vertex
without a number. -/
structure Grows (nodes : Finset V) (s t : Search V) : Prop where
  unseen_subset : t.unseen nodes ⊆ s.unseen nodes
  memberships_le :
    t.memberships.length + (t.unseen nodes).card ≤ s.memberships.length + (s.unseen nodes).card

variable {vs : List V}

namespace Grows

variable {nodes : Finset V} {t u : Search V}

theorem refl (s : Search V) : Grows nodes s s := ⟨subset_rfl, le_rfl⟩

theorem trans (h : Grows nodes s t) (h' : Grows nodes t u) : Grows nodes s u :=
  ⟨h'.unseen_subset.trans h.unseen_subset, h'.memberships_le.trans h.memberships_le⟩

theorem foldl {look : Search V → V → Search V} (hlook : ∀ s, ∀ v ∈ vs, Grows nodes s (look s v))
    (s : Search V) : Grows nodes s (vs.foldl look s) := by
  induction vs generalizing s with
  | nil => exact .refl s
  | cons v vs ih =>
    have hhead := hlook s v List.mem_cons_self
    exact hhead.trans (ih (fun s w hw => hlook s w (List.mem_cons_of_mem v hw)) _)

end Grows

variable [DecidableEq V]

namespace Search

/-- Number a vertex and push it. -/
def enter (s : Search V) (v : V) : Search V where
  index := s.index + 1
  indices := Function.update s.indices v (s.index + 1)
  lowlink := Function.update s.lowlink v (s.index + 1)
  onStack := Function.update s.onStack v true
  stack := v :: s.stack
  memberships := s.memberships

/-- Lower the low link of a vertex to a number it reaches. -/
def lower (s : Search V) (v : V) (number : ℕ) : Search V :=
  { s with lowlink := Function.update s.lowlink v (min (s.lowlink v) number) }

/-- Pop the stack down to a vertex, and close what was popped as a component. -/
def close (s : Search V) (v : V) : Search V :=
  let component := s.stack.takeWhile (· ≠ v) ++ [v]
  { s with
    onStack := fun w => if w ∈ component then false else s.onStack w
    stack := (s.stack.dropWhile (· ≠ v)).tail
    memberships := s.memberships ++ [component] }

@[simp] theorem enter_memberships (s : Search V) (v : V) :
    (s.enter v).memberships = s.memberships := rfl

theorem unseen_enter (nodes : Finset V) (s : Search V) (v : V) :
    (s.enter v).unseen nodes = (s.unseen nodes).erase v := by
  ext w
  by_cases hw : w = v
  · subst hw
    simp [enter]
  · simp [enter, hw]

theorem card_unseen_enter {nodes : Finset V} (hv : v ∈ nodes) (hnew : s.indices v = 0) :
    ((s.enter v).unseen nodes).card + 1 = (s.unseen nodes).card := by
  rw [unseen_enter]
  exact Finset.card_erase_add_one (mem_unseen.2 ⟨hv, hnew⟩)

end Search

open Search

/-- Look at one successor `w` of `v`: visit it if it has no number, and lower the low link of `v` by
what it reaches while it is open. -/
def look (descend : V → Search V → Search V) (v : V) (s : Search V) (w : V) : Search V :=
  if s.indices w = 0 then (descend w s).lower v ((descend w s).lowlink w)
  else if s.onStack w then s.lower v (s.indices w)
  else s

/-- Close the component of `v` if it has come back with its own number. -/
def leave (v : V) (s : Search V) : Search V :=
  if s.lowlink v ≠ s.indices v then s else s.close v

/-- Visit a vertex: number it, look at its successors in turn, and leave it. -/
def visit (adjacency : V → List V) : ℕ → V → Search V → Search V
  | 0, _, s => s
  | fuel + 1, v, s => leave v ((adjacency v).foldl (look (visit adjacency fuel) v) (s.enter v))

/-- Visit the vertices of a list that have no number yet. -/
def visitAll (adjacency : V → List V) (fuel : ℕ) (nodes : List V) (s : Search V) : Search V :=
  nodes.foldl (fun s v => if s.indices v = 0 then visit adjacency fuel v s else s) s

section Bounds

variable {adjacency : V → List V} {nodes : Finset V}

theorem Grows.lower {t : Search V} (h : Grows nodes s t) (v : V) (n : ℕ) :
    Grows nodes s (t.lower v n) :=
  ⟨h.unseen_subset, h.memberships_le⟩

theorem look_grows {descend : V → Search V → Search V} {w : V}
    (hdescend : s.indices w = 0 → Grows nodes s (descend w s)) (v : V) :
    Grows nodes s (look descend v s w) := by
  unfold look
  split_ifs with hw0
  · exact (hdescend hw0).lower _ _
  · exact (Grows.refl s).lower _ _
  · exact .refl s

theorem leave_unseen (v : V) (s : Search V) : (leave v s).unseen nodes = s.unseen nodes := by
  unfold leave
  split_ifs <;> rfl

theorem leave_memberships (v : V) (s : Search V) :
    (leave v s).memberships.length ≤ s.memberships.length + 1 := by
  unfold leave
  split_ifs
  · exact Nat.le_succ _
  · simp [close]

section

variable (hclosed : ∀ v ∈ nodes, ∀ w ∈ adjacency v, w ∈ nodes)

include hclosed

theorem visit_grows (fuel : ℕ) (hv : v ∈ nodes) (hnew : s.indices v = 0) :
    Grows nodes s (visit adjacency fuel v s) := by
  induction fuel generalizing v s with
  | zero => exact .refl s
  | succ fuel ih =>
    have hcard := card_unseen_enter hv hnew
    have hsub : (s.enter v).unseen nodes ⊆ s.unseen nodes := by
      rw [unseen_enter]
      exact Finset.erase_subset _ _
    have hscan : Grows nodes (s.enter v)
        ((adjacency v).foldl (look (visit adjacency fuel) v) (s.enter v)) := by
      refine Grows.foldl ?_ _
      intro s w hw
      exact look_grows (fun hw0 => ih (hclosed v hv w hw) hw0) v
    have hleave := leave_memberships v
      ((adjacency v).foldl (look (visit adjacency fuel) v) (s.enter v))
    have hle := hscan.memberships_le
    rw [visit]
    refine ⟨?_, ?_⟩
    · rw [leave_unseen]
      exact hscan.unseen_subset.trans hsub
    · rw [leave_unseen]
      rw [enter_memberships] at hle
      omega

theorem visitAll_grows (fuel : ℕ) (hvs : ∀ v ∈ vs, v ∈ nodes) (s : Search V) :
    Grows nodes s (visitAll adjacency fuel vs s) := by
  refine Grows.foldl ?_ s
  intro s v hv
  split_ifs with hnew
  · exact visit_grows hclosed fuel (hvs v hv) hnew
  · exact .refl s

theorem memberships_visitAll (fuel : ℕ) (hvs : ∀ v ∈ vs, v ∈ nodes) :
    (visitAll adjacency fuel vs start).memberships.length ≤ nodes.card := by
  have hgrows := (visitAll_grows hclosed fuel hvs start).memberships_le
  have hstart : (start : Search V).unseen nodes = nodes :=
    Finset.filter_true_of_mem fun _ _ => rfl
  rw [hstart] at hgrows
  simp only [start, List.length_nil] at hgrows ⊢
  omega

/-- **More fuel changes nothing.** A fuel that covers the vertices without a number is enough for
the visit of one of them. -/
theorem visit_fuel {fuel : ℕ} (extra : ℕ) (hv : v ∈ nodes) (hnew : s.indices v = 0)
    (hfuel : (s.unseen nodes).card ≤ fuel) :
    visit adjacency (fuel + extra) v s = visit adjacency fuel v s := by
  induction fuel generalizing v s with
  | zero =>
    have := card_unseen_enter hv hnew
    omega
  | succ fuel ih =>
    have hcard := card_unseen_enter hv hnew
    -- the scan of the successors is the same with either fuel, from every state it goes through
    have hscan : ∀ ws : List V, (∀ w ∈ ws, w ∈ nodes) → ∀ t : Search V,
        (t.unseen nodes).card ≤ fuel →
        ws.foldl (look (visit adjacency (fuel + extra)) v) t =
          ws.foldl (look (visit adjacency fuel) v) t := by
      intro ws hws
      induction ws with
      | nil => exact fun _ _ => rfl
      | cons w ws ihws =>
        intro t ht
        obtain ⟨hw, htail⟩ := List.forall_mem_cons.1 hws
        have hlook : look (visit adjacency (fuel + extra)) v t w =
            look (visit adjacency fuel) v t w := by
          unfold look
          split_ifs with hw0
          · rw [ih hw hw0 ht]
          all_goals rfl
        have hgrows : Grows nodes t (look (visit adjacency fuel) v t w) :=
          look_grows (fun hw0 => visit_grows hclosed fuel hw hw0) v
        rw [List.foldl_cons, List.foldl_cons, hlook]
        exact ihws htail _ ((Finset.card_le_card hgrows.unseen_subset).trans ht)
    rw [Nat.add_right_comm, visit, visit, hscan (adjacency v) (hclosed v hv) (s.enter v) (by omega)]

/-- The visits of a list are not cut short by a fuel that covers the vertices. -/
theorem visitAll_fuel {fuel : ℕ} (hfuel : nodes.card ≤ fuel) (hvs : ∀ v ∈ vs, v ∈ nodes)
    (s : Search V) (extra : ℕ) :
    visitAll adjacency (fuel + extra) vs s = visitAll adjacency fuel vs s := by
  refine List.foldl_ext _ _ s fun s v hv => ?_
  split_ifs with hnew
  · exact visit_fuel hclosed extra (hvs v hv) hnew
      ((Finset.card_le_card (Finset.filter_subset _ _)).trans hfuel)
  · rfl

end

end Bounds

end Codeflux.Library.Tarjan
