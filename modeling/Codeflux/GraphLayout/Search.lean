import Codeflux.GraphLayout.Separation

/-!
# When the search for a free place succeeds

The search goes through a fixed number of places of a grid. A node on that grid blocks one of them,
and a node off the grid blocks two. So the placements are pairwise separated if the prior layout has
at most one height off the grid in each rank, and every new node would like a place on the grid.
-/

namespace Codeflux.GraphLayout

open Library Domain Go Placing List

/-- The places of a grid that are less than a step away from a height: one if it is on the grid, and
two otherwise. -/
theorem length_filter_blocked_le {y : Int} (hy : y % 128 = 64) (r : Int) {ds : List Nat}
    (hds : ds.Nodup) : (ds.filter fun d : Nat => |y + 128 * (d : Int) - r| < 128).length ≤
      if r % 128 = 64 then 1 else 2 := by
  have hsub : ∀ places : List Nat, (∀ d : Nat, |y + 128 * (d : Int) - r| < 128 → d ∈ places) →
      (ds.filter fun d : Nat => |y + 128 * (d : Int) - r| < 128).length ≤ places.length := by
    refine fun places hplaces => (hds.filter _).length_le_of_subset fun d hd => hplaces d ?_
    simpa using (mem_filter.1 hd).2
  split_ifs with hr
  · refine hsub [((r - y) / 128).toNat] fun d hd => mem_singleton.2 ?_
    rw [abs_lt] at hd
    omega
  · refine hsub [((r - y) / 128).toNat, ((r - y) / 128 + 1).toNat] fun d hd => ?_
    rw [abs_lt] at hd
    rw [mem_cons, mem_singleton]
    omega

/-- **The counting argument.** Of more places of a grid than there are heights, counting those off
the grid twice, one is a step away from all of them. -/
theorem exists_clear {y : Int} (hy : y % 128 = 64) (heights : List Int) {ds : List Nat}
    (hds : ds.Nodup)
    (hlength : heights.length + heights.countP (fun r => ¬r % 128 = 64) < ds.length) :
    ∃ d ∈ ds, ∀ r ∈ heights, 128 ≤ |y + 128 * (d : Int) - r| := by
  induction heights generalizing ds with
  | nil =>
    obtain ⟨d, hd⟩ := exists_mem_of_length_pos hlength
    exact ⟨d, hd, fun _ h => absurd h not_mem_nil⟩
  | cons r heights ih =>
    have hblocked := length_filter_blocked_le hy r hds
    have hsplit := length_eq_length_filter_add (l := ds) fun d : Nat =>
      decide (|y + 128 * (d : Int) - r| < 128)
    have hrest : heights.length + heights.countP (fun r => ¬r % 128 = 64) <
        (ds.filter fun d : Nat => !decide (|y + 128 * (d : Int) - r| < 128)).length := by
      rw [length_cons, countP_cons] at hlength
      by_cases hr : r % 128 = 64
      · simp only [hr, if_true, not_true_eq_false, decide_false, Bool.false_eq_true,
          if_false] at hblocked hlength
        omega
      · simp only [hr, if_false, not_false_eq_true, decide_true, if_true] at hblocked hlength
        omega
    obtain ⟨d, hd, hclear⟩ := ih (hds.filter _) hrest
    rw [mem_filter] at hd
    refine ⟨d, hd.1, forall_mem_cons.2 ⟨?_, hclear⟩⟩
    simpa using hd.2

/-! ### Regular prior layouts -/

/-- A height of the canonical places. -/
def OnGrid (y : Int64) : Prop := y.toInt % 128 = 64

instance (y : Int64) : Decidable (OnGrid y) := inferInstanceAs (Decidable (_ = _))

/-- The two nodes are the ends of an edge. -/
def Adjacent (edges : List Edge) (a b : NodeID) : Prop :=
  ∃ edge ∈ edges, edge.fromNode = a ∧ edge.toNode = b ∨ edge.toNode = a ∧ edge.fromNode = b

/-- A prior layout with moderate coordinates and one place for each node, in which the nodes of a
rank keep their distance and all but one are on the grid. Where a node has no place to keep, the
places of its neighbours are at one height, on the grid. -/
structure PriorLayout.Regular (input : Input) (prior : PriorLayout) : Prop where
  few : prior.nodes.length ≤ 2 ^ 32
  moderate : ∀ hint ∈ prior.nodes, hint.bounds.y.toInt < 2 ^ 48
  distinct : (prior.nodes.map Placement.nodeID).Nodup
  apart : ∀ a ∈ prior.nodes, ∀ b ∈ prior.nodes, a.nodeID ≠ b.nodeID → a.rank = b.rank →
    Clear a.bounds.y b.bounds.y
  grid : ∀ rank, prior.nodes.countP (fun hint => hint.rank = rank ∧ ¬OnGrid hint.bounds.y) ≤ 1
  level : ∀ id, (∀ hint ∈ prior.nodes, hint.nodeID = id → ¬Suitable (canonicalOf input) hint) →
    ∀ a ∈ prior.nodes, ∀ b ∈ prior.nodes, Adjacent input.edges id a.nodeID →
      Adjacent input.edges id b.nodeID → a.bounds.y = b.bounds.y ∧ OnGrid a.bounds.y

/-! ### The test for a free place -/

variable {bounds : Rect} {occupied : List Rect}

/-- The test for a free place is exact on moderate heights. -/
theorem overlapsAny_eq_false_iff {rank : Nat} (hbounds : InColumn rank bounds)
    (hy : Moderate bounds.y) (hoccupied : ∀ rect ∈ occupied, InColumn rank rect ∧ Moderate rect.y) :
    overlapsAny bounds occupied = false ↔ ∀ rect ∈ occupied, Clear bounds.y rect.y := by
  unfold overlapsAny
  rw [any_eq_false]
  refine forall₂_congr fun rect hrect => ?_
  obtain ⟨hcolumn, hmoderate⟩ := hoccupied rect hrect
  rw [hbounds.overlaps_iff hcolumn hy hmoderate, not_not]

variable {canonical : NodeID → Option Placement} {s : Placing} {count : Nat}

theorem Placing.Sound.inColumn (h : s.Sound canonical) {rank : Nat} {rect : Rect}
    (hrect : rect ∈ s.occupied rank) : InColumn rank rect := by
  obtain ⟨r, hr, hcolumn⟩ := h.column _ rect hrect
  obtain rfl : rank = r := by exact_mod_cast hr
  exact hcolumn

theorem toInt_canonicalY {order : Nat} (h : order < maxLayoutNodes) :
    (canonicalY order).toInt = 64 + 128 * order := by
  unfold maxLayoutNodes at h
  exact toInt_add_ofNat_mul rfl rfl (by omega) (by constructor <;> omega) (by constructor <;> omega)

theorem mean_eq {ys : List Int64} {y : Int64} (hys : ∀ z ∈ ys, z = y) (hne : ys ≠ [])
    (hfew : ys.length ≤ 2 ^ 14) (hlow : 0 ≤ y.toInt) (hhigh : y.toInt < 2 ^ 48) :
    ys.foldl (· + ·) 0 / Int64.ofNat ys.length = y := by
  have hsum : ∀ n : Nat, n ≤ 2 ^ 14 → ((replicate n y).foldl (· + ·) 0).toInt = n * y.toInt := by
    intro n hn
    induction n with
    | zero => simp
    | succ n ih =>
      have hrest := ih (by omega)
      have hprod : (n : Int) * y.toInt ≤ 2 ^ 14 * 2 ^ 48 :=
        mul_le_mul (by omega) hhigh.le hlow (by decide)
      have hpos : 0 ≤ (n : Int) * y.toInt := mul_nonneg (by omega) hlow
      rw [replicate_succ', foldl_append, foldl_cons, foldl_nil, toInt_add_of_fits, hrest]
      · rw [Nat.cast_succ, add_mul, one_mul]
      · rw [hrest]
        constructor <;> omega
  have hpos : 0 < ys.length := length_pos_iff.2 hne
  have htotal := hsum ys.length hfew
  rw [← eq_replicate_of_mem hys] at htotal
  have hcount : (Int64.ofNat ys.length).toInt = ys.length := Int64.toInt_ofNat_of_lt (by omega)
  have hnonneg : 0 ≤ (ys.foldl (· + ·) 0).toInt := htotal ▸ mul_nonneg (by omega) hlow
  have hmin : ys.foldl (· + ·) 0 ≠ Int64.minValue := by
    intro h
    rw [h] at hnonneg
    exact absurd hnonneg (by decide)
  refine Int64.toInt_inj.1 ?_
  rw [Int64.toInt_div_of_ne_left _ _ hmin, hcount, Int.tdiv_eq_ediv_of_nonneg hnonneg, htotal]
  exact Int.mul_ediv_cancel_left _ (by omega)

theorem length_stableNeighbors_le (edges : List Edge) (id : NodeID) :
    (stableNeighbors edges id).length ≤ 2 * edges.length := by
  rw [stableNeighbors, sortIDs, length_insertionSort]
  induction edges with
  | nil => simp
  | cons edge edges ih =>
    rw [flatMap_cons, length_append, length_append, length_cons]
    have hfrom : (if edge.fromNode = id then [edge.toNode] else []).length ≤ 1 := by
      split_ifs <;> simp
    have hto : (if edge.toNode = id then [edge.fromNode] else []).length ≤ 1 := by
      split_ifs <;> simp
    omega

theorem adjacent_of_mem {edges : List Edge} {id neighbor : NodeID}
    (h : neighbor ∈ stableNeighbors edges id) : Adjacent edges id neighbor := by
  rw [stableNeighbors, sortIDs, mem_insertionSort, mem_flatMap] at h
  obtain ⟨edge, hedge, hmem⟩ := h
  refine ⟨edge, hedge, ?_⟩
  rcases mem_append.1 hmem with hmem | hmem
  · split_ifs at hmem with hend
    · exact .inl ⟨hend, (mem_singleton.1 hmem).symm⟩
    · exact absurd hmem not_mem_nil
  · split_ifs at hmem with hend
    · exact .inr ⟨hend, (mem_singleton.1 hmem).symm⟩
    · exact absurd hmem not_mem_nil

/-! ### The places tried -/

/-- A candidate of an accepted input is on the grid, in the upper part of its column. -/
structure Reasonable (bounds : Rect) : Prop where
  low : 64 ≤ bounds.y.toInt
  high : bounds.y.toInt < 2 ^ 48
  onGrid : OnGrid bounds.y

variable {distance : Nat} {y : Int64}

theorem Reasonable.toInt_downY (h : Reasonable bounds)
    (hd : distance ≤ 2 ^ 33) : (downY bounds distance).toInt = bounds.y.toInt + 128 * distance := by
  obtain ⟨hlow, hhigh, -⟩ := h
  exact toInt_add_ofNat_mul rfl rfl (by omega) (by constructor <;> omega) (by constructor <;> omega)

theorem mem_probesAt :
    y ∈ probesAt bounds distance ↔
      y = downY bounds distance ∨
        y = upY bounds distance ∧ defaultPadding ≤ upY bounds distance := by
  unfold probesAt
  split_ifs with hup
  · simp [hup]
  · have hup : ¬defaultPadding ≤ upY bounds distance := hup
    simp [hup]

theorem mem_probes :
    y ∈ probes bounds occupied ↔
      y = bounds.y ∨
        ∃ distance, 1 ≤ distance ∧ distance ≤ occupied.length + 1 ∧
          y ∈ probesAt bounds distance := by
  simp only [probes, mem_cons, mem_flatMap, mem_range'_1]
  refine or_congr_right ⟨?_, ?_⟩
  · rintro ⟨distance, ⟨hlow, hhigh⟩, hy⟩
    exact ⟨distance, hlow, by omega, hy⟩
  · rintro ⟨distance, hlow, hhigh, hy⟩
    exact ⟨distance, ⟨hlow, by omega⟩, hy⟩

theorem downY_mem_probes (bounds : Rect) (occupied : List Rect) :
    downY bounds (occupied.length + 1) ∈ probes bounds occupied :=
  mem_probes.2 (.inr ⟨_, by omega, le_rfl, mem_probesAt.2 (.inl rfl)⟩)

theorem nearestFreeY_mem_probes (bounds : Rect) (occupied : List Rect) :
    nearestFreeY bounds occupied ∈ probes bounds occupied := by
  unfold nearestFreeY
  cases h : (probes bounds occupied).find? fun y => !overlapsAny (bounds.at y) occupied with
  | none => exact downY_mem_probes bounds occupied
  | some y => exact mem_of_find?_eq_some h

/-- The search returns a place that passes the test when one of those tried does. -/
theorem overlapsAny_nearestFreeY (hy : y ∈ probes bounds occupied)
    (hfree : overlapsAny (bounds.at y) occupied = false) :
    overlapsAny (bounds.at (nearestFreeY bounds occupied)) occupied = false := by
  unfold nearestFreeY
  cases h : (probes bounds occupied).find? fun y => !overlapsAny (bounds.at y) occupied with
  | none =>
    have := find?_eq_none.1 h y hy
    simp [hfree] at this
  | some y' => simpa using find?_some h

theorem Reasonable.probe_bounds (h : Reasonable bounds) (hfew : occupied.length < 2 ^ 33)
    (hy : y ∈ probes bounds occupied) : 64 ≤ y.toInt ∧ y.toInt < 2 ^ 49 ∧ OnGrid y := by
  have hpad : defaultPadding.toInt = 64 := rfl
  obtain ⟨hlow, hhigh, hgrid⟩ := h
  unfold OnGrid at hgrid ⊢
  rcases mem_probes.1 hy with rfl | ⟨distance, -, hle, hy⟩
  · omega
  · rcases mem_probesAt.1 hy with rfl | ⟨rfl, hup⟩
    · rw [Reasonable.toInt_downY ⟨hlow, hhigh, hgrid⟩ (by omega)]
      omega
    · have hmul : (Int64.ofNat distance * gridStep).toInt = 128 * distance :=
        toInt_ofNat_mul rfl (by omega) (by constructor <;> omega)
      have hsub : (upY bounds distance).toInt = bounds.y.toInt - 128 * distance := by
        rw [upY, toInt_sub_of_fits, hmul]
        constructor <;> omega
      rw [Int64.le_iff_toInt_le, hpad] at hup
      omega

/-- With at most one height off the grid, one of the places tried is free. -/
theorem Reasonable.exists_probe (h : Reasonable bounds) (hfew : occupied.length < 2 ^ 33)
    (hgrid : occupied.countP (fun rect => ¬OnGrid rect.y) ≤ 1) :
    ∃ y ∈ probes bounds occupied, ∀ rect ∈ occupied, Clear y rect.y := by
  have hlength : (occupied.map fun rect => rect.y.toInt).length +
      (occupied.map fun rect => rect.y.toInt).countP (fun r => ¬r % 128 = 64) <
        (range (occupied.length + 2)).length := by
    rw [length_map, countP_map, length_range]
    have : occupied.countP ((fun r : Int => decide (¬r % 128 = 64)) ∘ fun rect => rect.y.toInt) =
        occupied.countP fun rect => ¬OnGrid rect.y := rfl
    omega
  obtain ⟨d, hd, hclear⟩ := exists_clear h.onGrid _ nodup_range hlength
  rw [mem_range] at hd
  have htoInt : (downY bounds d).toInt = bounds.y.toInt + 128 * d := h.toInt_downY (by omega)
  refine ⟨downY bounds d, mem_probes.2 ?_, fun rect hrect => ?_⟩
  · rcases Nat.eq_zero_or_pos d with rfl | hpos
    · exact .inl (Int64.toInt_inj.1 (by simpa using htoInt))
    · exact .inr ⟨d, hpos, by omega, mem_probesAt.2 (.inl rfl)⟩
  · rw [Clear, htoInt]
    exact hclear _ (mem_map_of_mem hrect)

/-! ### The second pass -/

/-- What the second pass keeps, with at most `count` places given. -/
structure Placing.Tame (canonical : NodeID → Option Placement) (hints : List Placement)
    (count : Nat) (s : Placing) : Prop where
  few : ∀ rank, (s.occupied rank).length ≤ count
  low : ∀ rank, ∀ rect ∈ s.occupied rank, 0 ≤ rect.y.toInt ∧ rect.y.toInt < 2 ^ 49
  grid : ∀ rank, (s.occupied rank).countP (fun rect => ¬OnGrid rect.y) ≤ 1
  kept : ∀ id p, s.reused id = true → s.result id = some p →
    ∃ hint ∈ hints, hint.nodeID = id ∧ 0 ≤ p.bounds.y.toInt ∧ hint.bounds = p.bounds
  reused : ∀ id, s.reused id = true → s.result id ≠ none
  suitable : ∀ hint ∈ hints, Suitable canonical hint → s.result hint.nodeID ≠ none
  separated : s.Separated

theorem length_occupied_put_le
    (h : ∀ rank, (s.occupied rank).length ≤ count) (id : NodeID) (placement : Placement)
    (rank : Int) : ((s.put id placement).occupied rank).length ≤ count + 1 := by
  by_cases hr : rank = placement.rank
  · subst hr
    simpa [Placing.put] using h placement.rank
  · simpa [Placing.put, hr] using (h rank).trans (Nat.le_succ _)

section PlaceNew

variable {hints : List Placement} {edges : List Edge} {n : Nat} {id : NodeID}
  {placement : Placement} (h : s.Tame canonical hints count)

include h

theorem Placing.Tame.moderate {rank : Int} {rect : Rect} (hrect : rect ∈ s.occupied rank) :
    Moderate rect.y := by
  obtain ⟨hlow, hhigh⟩ := h.low rank rect hrect
  constructor <;> omega

variable (hmoderate : ∀ hint ∈ hints, hint.bounds.y.toInt < 2 ^ 48)
  (hlevel : ∀ a ∈ hints, ∀ b ∈ hints, Adjacent edges id a.nodeID → Adjacent edges id b.nodeID →
    a.bounds.y = b.bounds.y ∧ OnGrid a.bounds.y)
  (hedges : edges.length ≤ maxLayoutEdges)

include hmoderate hlevel hedges

theorem stableNeighborY_onGrid (hy : stableNeighborY (stableNeighbors edges id) s = some y) :
    0 ≤ y.toInt ∧ y.toInt < 2 ^ 48 ∧ OnGrid y := by
  have hneighbors := length_stableNeighbors_le edges id
  unfold maxLayoutEdges at hedges
  simp only [stableNeighborY, Option.ite_none_left_eq_some, Option.some.injEq] at hy
  obtain ⟨hne, hmean⟩ := hy
  have hfew : ((stableNeighbors edges id).filterMap fun neighbor =>
      if s.reused neighbor then (s.result neighbor).map fun p => p.bounds.y else none).length ≤
      2 ^ 14 := (length_filterMap_le _ _).trans (by omega)
  -- each height is that of a hint of a neighbour
  have hkept : ∀ z ∈ (stableNeighbors edges id).filterMap fun neighbor =>
      if s.reused neighbor then (s.result neighbor).map fun p => p.bounds.y else none,
      ∃ hint ∈ hints, Adjacent edges id hint.nodeID ∧ 0 ≤ z.toInt ∧ hint.bounds.y = z := by
    intro z hz
    obtain ⟨neighbor, hneighbor, hkept⟩ := mem_filterMap.1 hz
    split_ifs at hkept with hreused
    obtain ⟨p, hplaced, rfl⟩ := Option.map_eq_some_iff.1 hkept
    obtain ⟨hint, hhint, rfl, hpos, hbounds⟩ := h.kept neighbor p hreused hplaced
    exact ⟨hint, hhint, adjacent_of_mem hneighbor, hpos, by rw [hbounds]⟩
  generalize ((stableNeighbors edges id).filterMap fun neighbor =>
      if s.reused neighbor then (s.result neighbor).map fun p => p.bounds.y else none) = kept at *
  obtain ⟨z, hz⟩ := exists_mem_of_length_pos (Nat.pos_of_ne_zero hne)
  obtain ⟨hint, hhint, hadjacent, hpos, rfl⟩ := hkept z hz
  have hsame : ∀ z ∈ kept, z = hint.bounds.y := by
    intro z hz
    obtain ⟨other, hother, hadjacent', -, rfl⟩ := hkept z hz
    exact (hlevel other hother hint hhint hadjacent' hadjacent).1
  rw [mean_eq hsame (ne_nil_of_mem hz) hfew hpos (hmoderate hint hhint)] at hmean
  subst hmean
  exact ⟨hpos, hmoderate hint hhint, (hlevel hint hhint hint hhint hadjacent hadjacent).2⟩

variable (hcanonical : ∀ id placement, canonical id = some placement →
  CanonicalPlace n id placement)
  (hn : n ≤ maxLayoutNodes)

include hcanonical hn

/-- **A new node would like a place on the grid.** -/
theorem candidate_onGrid (hc : canonical id = some placement) :
    Reasonable (candidate edges s id placement) := by
  unfold candidate
  split
  · obtain ⟨-, -, order, horder, hy⟩ := hcanonical _ _ hc
    have hlt := horder.trans_le hn
    have htoInt := toInt_canonicalY hlt
    unfold maxLayoutNodes at hlt
    constructor <;> rw [hy] <;> simp only [OnGrid, htoInt] <;> omega
  · next y hy =>
    obtain ⟨hlow, hhigh, hgrid⟩ := stableNeighborY_onGrid h hmoderate hlevel hedges hy
    have hpad : defaultPadding.toInt = 64 := rfl
    have hmax : max defaultPadding y = y := by
      refine if_pos (Int64.le_iff_toInt_le.2 ?_)
      unfold OnGrid at hgrid
      omega
    rw [hmax]
    unfold OnGrid at hgrid
    exact ⟨by show 64 ≤ y.toInt; omega, hhigh, hgrid⟩

variable (hcount : count < 2 ^ 33) (hsound : s.Sound canonical)

include hcount hsound

/-- The place a new node gets is on the grid and clear of what is taken in its rank. -/
theorem chosen_clear (hc : canonical id = some placement) :
    (64 ≤ (chosen edges s id placement).bounds.y.toInt ∧
      (chosen edges s id placement).bounds.y.toInt < 2 ^ 49 ∧
        OnGrid (chosen edges s id placement).bounds.y) ∧
      ∀ rect ∈ s.occupied placement.rank, Clear (chosen edges s id placement).bounds.y rect.y := by
  have hreasonable := candidate_onGrid h hmoderate hlevel hedges hcanonical hn hc
  have hfew := (h.few placement.rank).trans_lt hcount
  have hbounds := hreasonable.probe_bounds hfew (nearestFreeY_mem_probes _ _)
  obtain ⟨rank, hrank, hcolumn⟩ := candidate_inColumn hcanonical edges s hc
  have htest : ∀ y, 64 ≤ y.toInt ∧ y.toInt < 2 ^ 49 ∧ OnGrid y →
      (overlapsAny ((candidate edges s id placement).at y) (s.occupied placement.rank) = false ↔
        ∀ rect ∈ s.occupied placement.rank, Clear y rect.y) := by
    rintro y ⟨hlow, hhigh, -⟩
    refine overlapsAny_eq_false_iff (hcolumn.at y) ?_ fun rect hrect => ⟨?_, h.moderate hrect⟩
    · show Moderate y
      constructor <;> omega
    · rw [hrank] at hrect
      exact hsound.inColumn hrect
  obtain ⟨y, hy, hclear⟩ := hreasonable.exists_probe hfew (h.grid placement.rank)
  have hfree := (htest y (hreasonable.probe_bounds hfew hy)).2 hclear
  exact ⟨hbounds, (htest _ hbounds).1 (overlapsAny_nearestFreeY hy hfree)⟩

end PlaceNew

/-- **The step.** Placing a new node keeps what the second pass needs. -/
theorem Placing.Tame.placeNew {hints : List Placement} {edges : List Edge} {n : Nat} {id : NodeID}
    (h : s.Tame canonical hints count)
    (hmoderate : ∀ hint ∈ hints, hint.bounds.y.toInt < 2 ^ 48)
    (hlevel : (∀ hint ∈ hints, hint.nodeID = id → ¬Suitable canonical hint) →
      ∀ a ∈ hints, ∀ b ∈ hints, Adjacent edges id a.nodeID → Adjacent edges id b.nodeID →
        a.bounds.y = b.bounds.y ∧ OnGrid a.bounds.y)
    (hedges : edges.length ≤ maxLayoutEdges)
    (hcanonical : ∀ id placement, canonical id = some placement → CanonicalPlace n id placement)
    (hn : n ≤ maxLayoutNodes) (hcount : count < 2 ^ 33) (hsound : s.Sound canonical) :
    (placeNew canonical edges s id).Tame canonical hints (count + 1) := by
  rcases placeNew_cases canonical edges s id with ⟨heq, -⟩ | ⟨placement, hnew, hc, heq⟩
  · rw [heq]
    exact { h with few := fun rank => (h.few rank).trans (Nat.le_succ _) }
  · have hunsuitable : ∀ hint ∈ hints, hint.nodeID = id → ¬Suitable canonical hint := by
      rintro hint hhint rfl hsuits
      exact h.suitable hint hhint hsuits hnew
    obtain ⟨⟨hlow, hhigh, hgrid⟩, hclear⟩ := chosen_clear h hmoderate (hlevel hunsuitable) hedges
      hcanonical hn hcount hsound hc
    have hplaced : ∀ other, s.result other ≠ none →
        (s.put id (chosen edges s id placement)).result other ≠ none := by
      intro other hother
      by_cases ho : other = id
      · exact absurd hnew (ho ▸ hother)
      · simpa [Placing.put, ho] using hother
    rw [heq]
    refine ⟨length_occupied_put_le h.few id _, fun rank rect hrect => ?_, fun rank => ?_, ?_,
      fun other hreused => hplaced other (h.reused other hreused),
      fun hint hhint hsuits => hplaced _ (h.suitable hint hhint hsuits), ?_⟩
    · rcases mem_occupied_put.1 hrect with hold | ⟨-, rfl⟩
      · exact h.low rank rect hold
      · omega
    · by_cases hrank : rank = placement.rank
      · subst hrank
        have hput : (s.put id (chosen edges s id placement)).occupied placement.rank =
            s.occupied placement.rank ++ [(chosen edges s id placement).bounds] :=
          Function.update_self _ _ _
        rw [hput, countP_append, countP_singleton]
        simpa [hgrid] using h.grid placement.rank
      · have hput : (s.put id (chosen edges s id placement)).occupied rank = s.occupied rank :=
          Function.update_of_ne hrank _ _
        rw [hput]
        exact h.grid rank
    · intro other p hreused hp
      rcases result_put.1 hp with ⟨rfl, -⟩ | ⟨-, hold⟩
      · exact absurd hnew (h.reused other hreused)
      · exact h.kept other p hreused hold
    · refine h.separated.put fun other q _ hq hrank => hclear _ ?_
      have htaken := hsound.taken other q hq
      rwa [hrank] at htaken

section Run

variable {input : Input} {prior : PriorLayout}

theorem priorHints_cases (hintSort : HintSort) (input : Input) :
    priorHints hintSort input.previous = [] ∨
      ∃ prior ∈ input.previous, (priorHints hintSort input.previous).Perm prior.nodes := by
  unfold priorHints
  split
  · exact .inl rfl
  · next prior hprior =>
    split_ifs
    · exact .inr ⟨prior, hprior, hintSort.perm _⟩
    · exact .inl rfl

theorem regular_priorHints (hintSort : HintSort)
    (h : ∀ prior ∈ input.previous, prior.Regular input) :
    PriorLayout.Regular input ⟨algorithmVersion, priorHints hintSort input.previous⟩ := by
  rcases priorHints_cases hintSort input with hnil | ⟨prior, hprior, hperm⟩
  · rw [hnil]
    exact ⟨by simp, by simp, nodup_nil, by simp, by simp, by simp⟩
  · obtain ⟨hfew, hmoderate, hdistinct, hapart, hgrid, hlevel⟩ := h prior hprior
    refine ⟨hperm.length_eq.trans_le hfew, ?_, (hperm.map _).nodup_iff.2 hdistinct, ?_,
      fun rank => (hperm.countP_eq _).trans_le (hgrid rank), ?_⟩
    · simpa only [hperm.mem_iff] using hmoderate
    · simpa only [hperm.mem_iff] using hapart
    · simpa only [hperm.mem_iff] using hlevel

variable (hvalid : ValidInput input)

include hvalid

theorem Suitable.inColumn {hint : Placement} (h : Suitable (canonicalOf input) hint) :
    ∃ rank : Nat, hint.rank = rank ∧ InColumn rank hint.bounds := by
  obtain ⟨c, hc, hsuits⟩ := h
  obtain ⟨rank, hrank, hcolumn⟩ := (canonicalOf_place hvalid _ c hc).column
  exact ⟨rank, hsuits.rank_eq.trans hrank, hcolumn.rank_le, hsuits.x_eq.trans hcolumn.x_eq,
    hsuits.width_eq, hsuits.height_eq⟩

variable (hregular : prior.Regular input)

include hregular

omit hvalid in
theorem Suitable.moderate {hint : Placement} (h : Suitable (canonicalOf input) hint)
    (hmem : hint ∈ prior.nodes) : 0 ≤ hint.bounds.y.toInt ∧ hint.bounds.y.toInt < 2 ^ 48 := by
  obtain ⟨c, -, hsuits⟩ := h
  exact ⟨Int64.le_iff_toInt_le.1 hsuits.nonneg, hregular.moderate hint hmem⟩

/-- The first pass takes every suitable place of a regular prior layout over. -/
theorem PriorLayout.Regular.tookOver :
    (reuseHints (canonicalOf input) prior.nodes).TookOver (canonicalOf input) prior.nodes := by
  refine tookOver_reuseHints hregular.distinct fun p hp q hq hne hsuits hsuits' hrank => ?_
  obtain ⟨r, hr, hcolumn⟩ := hsuits.inColumn hvalid
  obtain ⟨r', hr', hcolumn'⟩ := hsuits'.inColumn hvalid
  obtain rfl : r = r' := by exact_mod_cast hr.symm.trans (hrank.trans hr')
  have hmoderate : ∀ {hint}, Suitable (canonicalOf input) hint → hint ∈ prior.nodes →
      Moderate hint.bounds.y := by
    intro hint hsuits hmem
    obtain ⟨hlow, hhigh⟩ := hsuits.moderate hregular hmem
    constructor <;> omega
  rw [← Bool.not_eq_true, hcolumn.overlaps_iff hcolumn'
    (hmoderate hsuits hp) (hmoderate hsuits' hq),
    not_not]
  exact hregular.apart p hp q hq hne hrank

theorem PriorLayout.Regular.tame :
    (reuseHints (canonicalOf input) prior.nodes).Tame (canonicalOf input) prior.nodes
      prior.nodes.length := by
  have h := hregular.tookOver hvalid
  refine ⟨fun rank => ?_, fun rank rect hrect => ?_, fun rank => ?_, fun id p _ hp => ?_, h.reused,
    fun hint hhint hsuits => ?_, fun a b p q hab hp hq hrank => ?_⟩
  · refine (h.sublist rank).length_le.trans ?_
    rw [length_map]
    exact length_filter_le _ _
  · obtain ⟨hint, hhint, hsuits, -, rfl⟩ := h.taken rank rect hrect
    have := hsuits.moderate hregular hhint
    omega
  · refine (h.sublist rank).countP_le.trans (le_trans (le_of_eq ?_) (hregular.grid rank))
    rw [countP_map, countP_filter]
    refine countP_congr fun hint _ => ?_
    simp [and_comm]
  · obtain ⟨hint, hhint, rfl, hsuits, -, hbounds⟩ := h.placed id p hp
    exact ⟨hint, hhint, rfl, hbounds ▸ (hsuits.moderate hregular hhint).1, hbounds⟩
  · obtain ⟨p, hp, -⟩ := h.kept hint hhint hsuits
    simp [hp]
  · obtain ⟨hint, hhint, rfl, -, hr, hbounds⟩ := h.placed a p hp
    obtain ⟨hint', hhint', rfl, -, hr', hbounds'⟩ := h.placed b q hq
    rw [← hbounds, ← hbounds']
    exact hregular.apart hint hhint hint' hhint' hab (hr.trans (hrank.trans hr'.symm))

/-- **The second pass** keeps what it needs, over any list of nodes. -/
theorem PriorLayout.Regular.foldl_placeNew {count : Nat} {s : Placing}
    (h : s.Tame (canonicalOf input) prior.nodes count) (hsound : s.Sound (canonicalOf input))
    (ids : List NodeID) (hcount : count + ids.length ≤ 2 ^ 33) :
    (ids.foldl (placeNew (canonicalOf input) (sortEdges input.edges)) s).Separated := by
  induction ids generalizing count s with
  | nil => exact h.separated
  | cons id ids ih =>
    rw [length_cons] at hcount
    refine ih (h.placeNew hregular.moderate ?_ ((length_insertionSort _ _).trans_le hvalid.edges_le)
      (canonicalOf_place hvalid) hvalid.nodes_le (by omega) hsound)
      (hsound.placeNew (canonicalOf_place hvalid) id) (by omega)
    have hsorted : ∀ a, Adjacent (sortEdges input.edges) id a → Adjacent input.edges id a := by
      rintro a ⟨edge, hedge, hends⟩
      exact ⟨edge, (mem_insertionSort _).1 hedge, hends⟩
    exact fun hnone a ha b hb hadjacent hadjacent' =>
      hregular.level id hnone a ha b hb (hsorted _ hadjacent) (hsorted _ hadjacent')

end Run

/-- The sort that keeps the order of a node's placements. -/
def stableHintSort : HintSort where
  sort hints := hints.insertionSort fun a b => a.nodeID.value ≤ b.nodeID.value
  perm := perm_insertionSort _
  sorted := pairwise_insertionSort _

/-- The nodes of the samples, in the order of their identities. -/
def sampleNodeID : Nat → NodeID
  | 0 => ⟨"nod_0190a5b0-0000-7000-8000-000000000001", .inr (by decide +kernel)⟩
  | 1 => ⟨"nod_0190a5b0-0000-7000-8000-000000000002", .inr (by decide +kernel)⟩
  | 2 => ⟨"nod_0190a5b0-0000-7000-8000-000000000003", .inr (by decide +kernel)⟩
  | 3 => ⟨"nod_0190a5b0-0000-7000-8000-000000000004", .inr (by decide +kernel)⟩
  | 4 => ⟨"nod_0190a5b0-0000-7000-8000-000000000005", .inr (by decide +kernel)⟩
  | 5 => ⟨"nod_0190a5b0-0000-7000-8000-000000000006", .inr (by decide +kernel)⟩
  | _ => ⟨"nod_0190a5b0-0000-7000-8000-000000000007", .inr (by decide +kernel)⟩

/-- A prior place in the first rank. -/
def samplePlace (id : NodeID) (y : Int64) : Placement :=
  ⟨id, id, 0, 0, ⟨64, y, defaultNodeWidth, defaultNodeHeight⟩⟩

/-- Three requirements without edges. The prior layout has the last two, off the grid of the first.
-/
def offGridInput : Input where
  nodes := [⟨sampleNodeID 0, .declared .requirement⟩, ⟨sampleNodeID 1, .declared .requirement⟩,
    ⟨sampleNodeID 2, .declared .requirement⟩]
  edges := []
  previous := some ⟨algorithmVersion, [samplePlace (sampleNodeID 1) 128,
    samplePlace (sampleNodeID 2) 384]⟩

/-- Two rectangles without a common point in their interiors. -/
def Rect.Disjoint (a b : Rect) : Prop :=
  a.x.toInt + a.width.toInt ≤ b.x.toInt ∨ b.x.toInt + b.width.toInt ≤ a.x.toInt ∨
    a.y.toInt + a.height.toInt ≤ b.y.toInt ∨ b.y.toInt + b.height.toInt ≤ a.y.toInt

/-- A prior layout of the current version whose placements do not overlap and have no negative
coordinate. -/
structure PriorLayout.Proper (prior : PriorLayout) : Prop where
  version : prior.algorithmVersion = GraphLayout.algorithmVersion
  disjoint : prior.nodes.Pairwise fun a b => a.bounds.Disjoint b.bounds
  nonneg : ∀ hint ∈ prior.nodes, 0 ≤ hint.bounds.x ∧ 0 ≤ hint.bounds.y

instance (a b : Int64) : Decidable (Clear a b) := inferInstanceAs (Decidable (_ ≤ _))

instance : DecidableRel Apart := fun _ _ => inferInstanceAs (Decidable (_ ∧ _))

instance (layout : Layout) : Decidable layout.Separated :=
  inferInstanceAs (Decidable (List.Pairwise _ _))

instance (a b : Rect) : Decidable (a.Disjoint b) := inferInstanceAs (Decidable (_ ∨ _))

/-- The same nodes, with one of the two prior places on the grid. -/
def onGridInput : Input :=
  { offGridInput with
    previous := some ⟨algorithmVersion, [samplePlace (sampleNodeID 1) 192,
      samplePlace (sampleNodeID 2) 384]⟩ }

end Codeflux.GraphLayout
