import Codeflux.Storage.Memory.Lineage
import Codeflux.Library.Effect

/-!
# Deletion of memory artifacts

A deletion takes along everything that transitively derives from its target. The recursive query
that narrows the index, the preview that the user acknowledges, and the cascade that is carried out
have to agree. The cascade ranges over a map, whose order is not determined: `MapOrder` is any
choice of it.
-/

namespace Codeflux.Storage

open Library Go Domain List

/-- The bound on the artifacts that a deletion may visit. -/
def maximumMemoryArtifactLineageDeletionTraversal : Nat := 2000

/-- The lineage passes the bound. -/
def errMemoryArtifactLineageTooLarge : Failure :=
  .new "memory artifact lineage traversal exceeds the bounded read limit"

/-- The error of a traversal that is too large. -/
def lineageTooLarge (target : MemoryArtifactID) (what : String) (reached bound : Nat) : Failure :=
  .detail errMemoryArtifactLineageTooLarge
    ("target " ++ target.value ++ "'s " ++ what ++ " reaches at least " ++ toString reached ++
      " artifacts (bound " ++ toString bound ++ ")")

/-- The order in which the cascade ranges over an index while it handles an artifact. It handles
each artifact once. -/
structure MapOrder where
  keys : LineageIndex → MemoryArtifactID → List MemoryArtifactID
  perm : ∀ index current, (keys index current).Perm index.keys

/-- The order in which the entries were filed. -/
def MapOrder.filed : MapOrder := ⟨fun index _ => index.keys, fun _ _ => .refl _⟩

namespace MemoryStore

variable (store : MemoryStore)

/-! ### The narrowed index -/

/-- The edges of the narrowed index: what the descendants derive from and are influenced by, and
what is influenced by the target. -/
def narrowEdges (target : MemoryArtifactID) (bound : Nat) (index : LineageIndex) : LineageIndex :=
  scanEdges .influenced
      ((store.influencedBy.rows.filter (·.ancestorID == target)).take (bound + 1)) <|
    scanEdges .influenced
        (store.influencedBy.rows.filter (·.artifactID ∈ store.descendantClosure target)) <|
      scanEdges .derived
        (store.derivedFrom.rows.filter (·.artifactID ∈ store.descendantClosure target)) index

/-- `loadMemoryArtifactLineageIndexForDeletionBounded`. -/
def loadMemoryArtifactLineageIndexForDeletion (target : MemoryArtifactID) (bound : Nat) :
    Result LineageIndex := do
  ensure (target.isZero = false) (.new "memory artifact ID must not be empty")
  let descendants := (store.descendantClosure target).take (bound + 1)
  ensure (descendants.length ≤ bound)
    (lineageTooLarge target "derived_from descendant closure" descendants.length bound)
  let stubs := descendants.foldl (fun index id => index.insert id (lineageStub id)) ∅
  let index := store.narrowEdges target bound stubs
  ensure (index.keys.length ≤ bound)
    (lineageTooLarge target "reachable lineage subgraph" index.keys.length bound)
  return store.finalizeSupportingEpisodes index

/-! ### The deletion -/

/-- The direct dependents of each artifact, in the order the cascade meets them. -/
def cascadeGraph (order : MapOrder) (index : LineageIndex) : FinDigraph MemoryArtifactID where
  nodes := index.keys.flatMap index.derivedFrom
  next current := (order.keys index current).filter fun id => current ∈ index.derivedFrom id
  outside current h := by
    refine filter_eq_nil_iff.2 fun id hid hmem => h ?_
    exact mem_flatMap.2 ⟨id, (order.perm index current).mem_iff.1 hid, by simpa using hmem⟩

/-- What is deleted with the target. -/
def cascadeMemoryArtifactDerivedFrom (order : MapOrder) (target : MemoryArtifactID)
    (index : LineageIndex) : List MemoryArtifactID :=
  (cascadeGraph order index).spread [target] [target]

/-- A request for a deletion. -/
structure DeleteMemoryArtifact where
  target : MemoryArtifactID
  acknowledgedDependents : List MemoryArtifactID
  reasonRedacted : String

/-- What a deletion did. -/
structure MemoryArtifactDeletionOutcome where
  preview : MemoryArtifactDeletionPreview
  deletedArtifacts : List MemoryArtifactID
  invalidatedEmbeddings : Nat
deriving DecidableEq

/-- The reason that is stored with a deleted artifact. -/
def DeleteMemoryArtifact.reasonFor (input : DeleteMemoryArtifact)
    (id : MemoryArtifactID) : String :=
  if id = input.target then input.reasonRedacted
  else "cascaded from deletion of " ++ input.target.value ++ ": " ++ input.reasonRedacted

/-- The update of one artifact, row by row. -/
def markDeleted (reason : String) (now : Int) (id : MemoryArtifactID) (row : MemoryArtifactRow) :
    MemoryArtifactRow :=
  if row.id = id ∧ row.deletedAt = none then
    { row with deletedAt := some now, deletionReason := some reason }
  else row

/-- Is the revision one of the artifact's? -/
def isRevisionOf (id : MemoryArtifactID) (revisionID : MemoryArtifactRevisionID) : Bool :=
  store.revisions.rows.any fun revision => revision.artifactID == id && revision.id == revisionID

/-- The update of the embeddings of one artifact, row by row. -/
def invalidateEmbedding (now : Int) (id : MemoryArtifactID) (row : EmbeddingRow) : EmbeddingRow :=
  if row.valid ∧ store.isRevisionOf id row.revisionID then
    { row with valid := false, invalidatedAt := some now }
  else row

/-- The state of the cascade's loop: the store, and what the outcome has so far. -/
structure DeletionState where
  store : MemoryStore
  deleted : List MemoryArtifactID
  embeddings : Nat

/-- One artifact of the cascade. -/
def deleteOne (input : DeleteMemoryArtifact) (now : Int) (state : DeletionState)
    (id : MemoryArtifactID) : Result DeletionState := do
  let affected :=
    state.store.artifacts.rows.countP fun row => row.id = id ∧ row.deletedAt = none
  let artifacts ← repositoryWriteError "delete memory artifact" <|
    state.store.artifacts.update (markDeleted (input.reasonFor id) now id)
  let invalidated :=
    state.store.embeddings.rows.countP fun row =>
      row.valid ∧ state.store.isRevisionOf id row.revisionID
  let embeddings ← repositoryWriteError "invalidate memory artifact embeddings on deletion" <|
    state.store.embeddings.update (state.store.invalidateEmbedding now id)
  return {
    store := { state.store with artifacts, embeddings }
    deleted := if affected = 1 then state.deleted ++ [id] else state.deleted
    embeddings := state.embeddings + invalidated }

/-- The transaction of `DeleteMemoryArtifact`, on the tables. -/
def deleteMemoryArtifactRows (order : MapOrder) (input : DeleteMemoryArtifact) (now : Int) :
    Result (MemoryArtifactDeletionOutcome × MemoryStore) := do
  ensure (input.target.isZero = false) (.new "memory artifact target must not be empty")
  validateBounded "memory artifact deletion reason" input.reasonRedacted 2048
  match store.findArtifact input.target with
  | none =>
    .error (.typed errNotFound "delete memory artifact" (.new "memory artifact does not exist"))
  | some target =>
    if target.deletedAt ≠ none then
      return (⟨⟨input.target, [], []⟩, [], 0⟩, store)
    else
      let index ← store.loadMemoryArtifactLineageIndexForDeletion input.target
        maximumMemoryArtifactLineageDeletionTraversal
      let preview ← previewMemoryArtifactDeletion input.target index
      validateMemoryArtifactDeletion ⟨input.target, preview, input.acknowledgedDependents⟩ index
      let final ← (cascadeMemoryArtifactDerivedFrom order input.target index).foldlM
        (deleteOne input now) ⟨store, [], 0⟩
      return (⟨preview, final.deleted, final.embeddings⟩, final.store)

/-- `DeleteMemoryArtifact`: a failed transaction is rolled back. -/
def deleteMemoryArtifact (order : MapOrder) (input : DeleteMemoryArtifact) (now : Int) :
    Effect MemoryStore Failure MemoryArtifactDeletionOutcome :=
  Effect.transaction fun store => store.deleteMemoryArtifactRows order input now

/-! ### The searches agree -/

section Searches

variable {store : MemoryStore} {order : MapOrder} {target id : MemoryArtifactID}
  {index : LineageIndex} {projectID : ProjectID} {bound : Nat}

/-- The cascade finds what the preview finds, whatever the order of the map. -/
theorem mem_cascade_iff :
    id ∈ cascadeMemoryArtifactDerivedFrom order target index ↔
      (dependents index).Reach target id := by
  rw [cascadeMemoryArtifactDerivedFrom, FinDigraph.mem_spread_iff]
  refine FinDigraph.reach_congr fun current id => ?_
  rw [mem_dependents_next_iff]
  show id ∈ (order.keys index current).filter _ ↔ _
  rw [mem_filter, decide_eq_true_eq, (order.perm index current).mem_iff]
  exact and_iff_right_of_imp LineageIndex.mem_keys_of_mem_derivedFrom

theorem InClosure.project (hsound : store.Sound) (h : store.InClosure target id)
    (hproject : store.projectOf target = some projectID) : store.projectOf id = some projectID := by
  induction h with
  | refl => exact hproject
  | tail _ hedge ih =>
    obtain ⟨row, hrow, rfl, rfl⟩ := hedge
    obtain ⟨project, hartifact, hancestor⟩ := hsound.derived row hrow
    exact hartifact.trans (hancestor.symm.trans ih)

/-- A search from the target finds the closure when the index has every edge to an artifact of the
closure, and no edge that the tables do not have. -/
theorem reach_dependents_iff
    (hedge : ∀ id ancestor, ancestor ∈ index.derivedFrom id → store.DerivesFrom id ancestor)
    (hall : ∀ id ancestor, store.InClosure target id → store.DerivesFrom id ancestor →
      ancestor ∈ index.derivedFrom id) :
    (dependents index).Reach target id ↔ store.InClosure target id := by
  constructor
  · intro h
    exact Relation.ReflTransGen.mono
      (fun x y hxy => hedge y x (mem_dependents_next_iff.1 hxy)) target id h
  · intro h
    induction h with
    | refl => exact .refl
    | tail hclosure hderives ih =>
      exact ih.tail (mem_dependents_next_iff.2 (hall _ _ (hclosure.tail hderives) hderives))

theorem reach_dependents_load_iff (hsound : store.Sound)
    (hproject : store.projectOf target = some projectID) :
    (dependents (store.loadMemoryArtifactLineageIndex projectID)).Reach target id ↔
      store.InClosure target id :=
  reach_dependents_iff (fun _ _ h => (mem_derivedFrom_load_iff.1 h).2) fun _ _ hclosure hderives =>
    mem_derivedFrom_load_iff.2 ⟨InClosure.project hsound hclosure hproject, hderives⟩

theorem lookup_stubs (descendants : List MemoryArtifactID) (kind : EdgeKind) :
    ancestorsOf kind (descendants.foldl (fun index id => index.insert id (lineageStub id))
      (∅ : LineageIndex)) id = [] := by
  refine List.foldlRecOn (motive := fun index => ∀ id, ancestorsOf kind index id = []) descendants _
    (fun _ => by cases kind <;> rfl) (fun index h d _ id => ?_) id
  by_cases hid : id = d
  · subst hid
    cases kind <;>
      simp [ancestorsOf, LineageIndex.derivedFrom, LineageIndex.influencedBy, lineageStub]
  · rw [← h id]
    have hlookup : (index.insert d (lineageStub d)).lookup id = index.lookup id :=
      AList.lookup_insert_ne hid
    cases kind <;>
      simp [ancestorsOf, LineageIndex.derivedFrom, LineageIndex.influencedBy, hlookup]

theorem influencedChildren_nodup :
    ((store.influencedBy.rows.filter (·.ancestorID == target)).map (·.artifactID)).Nodup := by
  rw [List.Nodup, pairwise_map]
  refine List.Pairwise.imp_of_mem ?_ (store.influencedBy.distinct.filter (·.ancestorID == target))
  intro a b ha hb hconflict heq
  have hancestor : a.ancestorID = b.ancestorID := by
    simp only [mem_filter, beq_iff_eq] at ha hb
    rw [ha.2, hb.2]
  simp [lineageSchema, heq, hancestor] at hconflict

/-- Within the bound the query for the artifacts that name the target is not cut off. -/
theorem influencedChildren_take (h : (store.narrowEdges target bound index).keys.length ≤ bound) :
    (store.influencedBy.rows.filter (·.ancestorID == target)).take (bound + 1) =
      store.influencedBy.rows.filter (·.ancestorID == target) := by
  have hsub : ((store.influencedBy.rows.filter (·.ancestorID == target)).take (bound + 1)).map
      (·.artifactID) ⊆ (store.narrowEdges target bound index).keys := by
    intro id hid
    obtain ⟨row, hrow, rfl⟩ := mem_map.1 hid
    exact mem_scanEdges_iff.2 (.inr ⟨row, hrow, rfl⟩)
  have hnodup : (((store.influencedBy.rows.filter (·.ancestorID == target)).take (bound + 1)).map
      (·.artifactID)).Nodup := by
    rw [map_take]
    exact influencedChildren_nodup.sublist (take_sublist _ _)
  have hlength := (hnodup.subperm hsub).length_le
  rw [length_map, length_take] at hlength
  exact take_of_length_le (by omega)

section

variable (h : store.loadMemoryArtifactLineageIndexForDeletion target bound = .ok index)

include h

/-- What a successful load of the narrowed index has. -/
theorem loadForDeletion_ok :
    target.isZero = false ∧
      (∀ id ancestor, ancestor ∈ index.derivedFrom id ↔
        store.InClosure target id ∧ store.DerivesFrom id ancestor) ∧
      ∀ id, target ∈ index.influencedBy id ↔ store.InfluencedBy id target := by
  simp only [loadMemoryArtifactLineageIndexForDeletion, run_ok_iff, Unique.exists_iff] at h
  obtain ⟨hzero, -, hbound, rfl⟩ := h
  refine ⟨hzero, fun id ancestor => ?_, fun id => ?_⟩
  · show ancestor ∈ ancestorsOf .derived _ id ↔ _
    rw [ancestorsOf_finalize, narrowEdges, mem_ancestorsOf_scanEdges_iff,
      mem_ancestorsOf_scanEdges_iff, mem_ancestorsOf_scanEdges_iff, lookup_stubs]
    simp only [not_mem_nil, reduceCtorEq, false_and, or_false, true_and, false_or,
      mem_filter, decide_eq_true_eq, mem_descendantClosure_iff, DerivesFrom]
    constructor
    · rintro ⟨row, ⟨hrow, hclosure⟩, rfl, rfl⟩
      exact ⟨hclosure, row, hrow, rfl, rfl⟩
    · rintro ⟨hclosure, row, hrow, rfl, rfl⟩
      exact ⟨row, ⟨hrow, hclosure⟩, rfl, rfl⟩
  · show target ∈ ancestorsOf .influenced _ id ↔ _
    have htake := influencedChildren_take hbound
    rw [ancestorsOf_finalize, narrowEdges, htake, mem_ancestorsOf_scanEdges_iff,
      mem_ancestorsOf_scanEdges_iff, mem_ancestorsOf_scanEdges_iff, lookup_stubs]
    simp only [not_mem_nil, reduceCtorEq, false_and, or_false, true_and, false_or,
      mem_filter, beq_iff_eq, InfluencedBy]
    constructor
    · rintro (⟨row, ⟨hrow, -⟩, rfl, hancestor⟩ | ⟨row, ⟨hrow, -⟩, rfl, hancestor⟩)
      all_goals exact ⟨row, hrow, rfl, hancestor⟩
    · rintro ⟨row, hrow, rfl, hancestor⟩
      exact .inr ⟨row, ⟨hrow, hancestor⟩, rfl, hancestor⟩

theorem reach_dependents_narrow_iff :
    (dependents index).Reach target id ↔ store.InClosure target id :=
  have hedges := (loadForDeletion_ok h).2.1
  reach_dependents_iff (fun id ancestor hmem => ((hedges id ancestor).1 hmem).2)
    fun id ancestor hclosure hderives => (hedges id ancestor).2 ⟨hclosure, hderives⟩

end

/-- **The narrowed index has the same preview as the whole one.** -/
theorem deletionPreview_narrow (hsound : store.Sound)
    (hproject : store.projectOf target = some projectID)
    (h : store.loadMemoryArtifactLineageIndexForDeletion target bound = .ok index) :
    deletionPreview target index =
      deletionPreview target (store.loadMemoryArtifactLineageIndex projectID) := by
  refine deletionPreview_congr (fun id => ?_) fun id => ?_
  · rw [reach_dependents_narrow_iff h, reach_dependents_load_iff hsound hproject]
  · rw [(loadForDeletion_ok h).2.2, mem_influencedBy_load_iff]
    constructor
    · intro hinfluenced
      obtain ⟨row, hrow, rfl, rfl⟩ := hinfluenced
      obtain ⟨project, hartifact, hancestor⟩ := hsound.influenced row hrow
      exact ⟨hartifact.trans (hancestor.symm.trans hproject), row, hrow, rfl, rfl⟩
    · exact And.right

end Searches

/-! ### What the loop writes -/

variable {store store' : MemoryStore} {ids : List MemoryArtifactID}

section Loop

variable {input : DeleteMemoryArtifact} {now : Int}

/-- The row after the loop marked these artifacts. -/
def markAll (input : DeleteMemoryArtifact) (now : Int) (ids : List MemoryArtifactID)
    (row : MemoryArtifactRow) : MemoryArtifactRow :=
  if row.id ∈ ids ∧ row.deletedAt = none then
    { row with deletedAt := some now, deletionReason := some (input.reasonFor row.id) }
  else row

/-- The embedding after the loop handled these artifacts. -/
def invalidateAll (store : MemoryStore) (now : Int) (ids : List MemoryArtifactID)
    (row : EmbeddingRow) : EmbeddingRow :=
  if row.valid ∧ ∃ id ∈ ids, store.isRevisionOf id row.revisionID then
    { row with valid := false, invalidatedAt := some now }
  else row

theorem markAll_cons (id : MemoryArtifactID) (ids : List MemoryArtifactID)
    (row : MemoryArtifactRow) :
    markAll input now ids (markDeleted (input.reasonFor id) now id row) =
      markAll input now (id :: ids) row := by
  by_cases hid : row.id = id
  · by_cases hlive : row.deletedAt = none
    · simp [markAll, markDeleted, hid, hlive]
    · simp [markAll, markDeleted, hlive]
  · simp [markAll, markDeleted, hid]

theorem invalidateAll_cons (store : MemoryStore) (id : MemoryArtifactID)
    (ids : List MemoryArtifactID) (row : EmbeddingRow) :
    store.invalidateAll now ids (store.invalidateEmbedding now id row) =
      store.invalidateAll now (id :: ids) row := by
  by_cases hvalid : row.valid = true
  · by_cases hid : store.isRevisionOf id row.revisionID = true
    all_goals simp [invalidateAll, invalidateEmbedding, hvalid, hid]
  · simp [invalidateAll, invalidateEmbedding, hvalid]

theorem countP_live_iff (store : MemoryStore) (id : MemoryArtifactID) :
    store.artifacts.rows.countP (fun row => row.id = id ∧ row.deletedAt = none) = 1 ↔
      store.Live id := by
  constructor
  · intro h
    obtain ⟨row, hrow, hlive⟩ := countP_pos_iff.1 (h.symm ▸ Nat.one_pos)
    exact ⟨row, hrow, of_decide_eq_true hlive⟩
  · rintro ⟨row, hrow, hlive⟩
    rw [countP_eq_length_filter, Table.filter_eq_singleton hrow (decide_eq_true hlive)
      (by simp +contextual [memoryArtifactSchema])]
    rfl

theorem deleteOne_ok {state next : DeletionState} {id : MemoryArtifactID}
    (h : deleteOne input now state id = .ok next) :
    ∃ artifacts embeddings,
      next.store = { state.store with artifacts, embeddings } ∧
      artifacts.rows = state.store.artifacts.rows.map (markDeleted (input.reasonFor id) now id) ∧
      embeddings.rows = state.store.embeddings.rows.map (state.store.invalidateEmbedding now id) ∧
      ∀ other, other ∈ next.deleted ↔
        other ∈ state.deleted ∨ other = id ∧ state.store.Live other := by
  simp only [deleteOne, run_ok_iff, repositoryWriteError_ok_iff] at h
  obtain ⟨artifacts, hartifacts, embeddings, hembeddings, rfl⟩ := h
  refine ⟨artifacts, embeddings, rfl, Table.update_ok hartifacts, Table.update_ok hembeddings, ?_⟩
  have hcount := countP_live_iff state.store id
  split_ifs with hone
  all_goals grind

/-- Marking one artifact leaves the others live that were. -/
theorem live_of_markDeleted {reason : String} {marked id : MemoryArtifactID} (hne : id ≠ marked)
    (hrows : store'.artifacts.rows = store.artifacts.rows.map (markDeleted reason now marked)) :
    store'.Live id ↔ store.Live id := by
  simp only [Live, hrows, mem_map, exists_exists_and_eq_and]
  refine exists_congr fun row => and_congr_right fun _ => ?_
  unfold markDeleted
  split_ifs with hmarked
  · have hother : row.id ≠ id := fun hid => hne (hid.symm.trans hmarked.1)
    exact iff_of_false (fun h => hother h.1) fun h => hother h.1
  · exact Iff.rfl

theorem foldlM_deleteOne (hnodup : ids.Nodup)
    {state final : DeletionState} (h : ids.foldlM (deleteOne input now) state = .ok final) :
    ∃ artifacts embeddings,
      final.store = { state.store with artifacts, embeddings } ∧
      artifacts.rows = state.store.artifacts.rows.map (markAll input now ids) ∧
      embeddings.rows = state.store.embeddings.rows.map (state.store.invalidateAll now ids) ∧
      ∀ id, id ∈ final.deleted ↔ id ∈ state.deleted ∨ id ∈ ids ∧ state.store.Live id := by
  revert hnodup
  refine foldlM_induction h (fun _ => ?_) fun first ids state next hnext ih hnodup => ?_
  · refine ⟨final.store.artifacts, final.store.embeddings, rfl, ?_, ?_, by simp⟩
    · exact (map_id'' (fun row => by simp [markAll]) _).symm
    · exact (map_id'' (fun row => by simp [invalidateAll]) _).symm
  · obtain ⟨hfirst, hids⟩ := nodup_cons.1 hnodup
    obtain ⟨artifacts, embeddings, hstore, hartifacts, hembeddings, hdeleted⟩ := deleteOne_ok hnext
    obtain ⟨artifacts', embeddings', hstore', hartifacts', hembeddings', hdeleted'⟩ := ih hids
    have hrows : next.store.artifacts.rows =
        state.store.artifacts.rows.map (markDeleted (input.reasonFor first) now first) := by
      rwa [hstore]
    refine ⟨artifacts', embeddings', ?_, ?_, ?_, fun id => ?_⟩
    · rw [hstore', hstore]
    · rw [hartifacts', hrows, map_map]
      exact map_congr_left fun row _ => markAll_cons first ids row
    · rw [hembeddings', hstore]
      rw [hembeddings, map_map]
      exact map_congr_left fun row _ => invalidateAll_cons state.store first ids row
    · have hlive : id ∈ ids → (next.store.Live id ↔ state.store.Live id) := fun hid =>
        live_of_markDeleted (ne_of_mem_of_not_mem hid hfirst) hrows
      rw [hdeleted', hdeleted, mem_cons, or_and_right, or_assoc]
      exact or_congr_right (or_congr_right (and_congr_right hlive))

end Loop

/-- What becomes of an artifact's row: it is marked when the artifact is in the closure of the
target and was not deleted before. -/
def SoftDeleted (store : MemoryStore) (input : DeleteMemoryArtifact) (now : Int)
    (row row' : MemoryArtifactRow) : Prop :=
  (store.InClosure input.target row.id ∧ row.deletedAt = none ∧
      row' = { row with
        deletedAt := some now
        deletionReason := some (input.reasonFor row.id) }) ∨
    ¬(store.InClosure input.target row.id ∧ row.deletedAt = none) ∧ row' = row

/-- What becomes of an embedding's row: it is invalidated when it belongs to an artifact in the
closure of the target. -/
def EmbeddingDropped (store : MemoryStore) (input : DeleteMemoryArtifact) (now : Int)
    (row row' : EmbeddingRow) : Prop :=
  let affected := row.valid = true ∧
    ∃ id, store.InClosure input.target id ∧ store.isRevisionOf id row.revisionID = true
  (affected ∧ row' = { row with valid := false, invalidatedAt := some now }) ∨
    ¬affected ∧ row' = row

/-- The second store is the first after the deletion of the target with everything that derives from
it, and nothing else. -/
structure SoftDeletes (store : MemoryStore) (input : DeleteMemoryArtifact) (now : Int)
    (store' : MemoryStore) : Prop where
  artifacts :
    List.Forall₂ (store.SoftDeleted input now) store.artifacts.rows store'.artifacts.rows
  embeddings :
    List.Forall₂ (store.EmbeddingDropped input now) store.embeddings.rows store'.embeddings.rows
  rest : store' =
    { store with artifacts := store'.artifacts, embeddings := store'.embeddings }

variable {input : DeleteMemoryArtifact} {now : Int}

theorem softDeleted_markAll (hids : ∀ id, id ∈ ids ↔ store.InClosure input.target id)
    (row : MemoryArtifactRow) : store.SoftDeleted input now row (markAll input now ids row) := by
  by_cases hmark : row.id ∈ ids ∧ row.deletedAt = none
  · exact .inl ⟨(hids _).1 hmark.1, hmark.2, if_pos hmark⟩
  · exact .inr ⟨fun h => hmark ⟨(hids _).2 h.1, h.2⟩, if_neg hmark⟩

theorem embeddingDropped_invalidateAll
    (hids : ∀ id, id ∈ ids ↔ store.InClosure input.target id) (row : EmbeddingRow) :
    store.EmbeddingDropped input now row (store.invalidateAll now ids row) := by
  by_cases hdrop : row.valid = true ∧ ∃ id ∈ ids, store.isRevisionOf id row.revisionID = true
  · obtain ⟨hvalid, id, hid, hrevision⟩ := hdrop
    exact .inl ⟨⟨hvalid, id, (hids id).1 hid, hrevision⟩, if_pos ⟨hvalid, id, hid, hrevision⟩⟩
  · refine .inr ⟨?_, if_neg hdrop⟩
    rintro ⟨hvalid, id, hclosure, hrevision⟩
    exact hdrop ⟨hvalid, id, (hids id).2 hclosure, hrevision⟩

/-- What a successful deletion of a live target did. -/
structure Deletion (store : MemoryStore) (input : DeleteMemoryArtifact) (now : Int)
    (projectID : ProjectID) (outcome : MemoryArtifactDeletionOutcome) (store' : MemoryStore) :
    Prop where
  deletes : store.SoftDeletes input now store'
  /-- The outcome lists the artifacts that were deleted now. -/
  deleted : ∀ id, id ∈ outcome.deletedArtifacts ↔ store.InClosure input.target id ∧ store.Live id
  /-- The dependents were acknowledged. -/
  acknowledged : (∃ id, id ≠ input.target ∧ store.InClosure input.target id) →
    ∀ id, id ∈ input.acknowledgedDependents ↔
      id ≠ input.target ∧ store.InClosure input.target id
  /-- The user was shown the preview of the whole project. -/
  previewed : previewMemoryArtifactDeletion input.target
    (store.loadMemoryArtifactLineageIndex projectID) = .ok outcome.preview

theorem SoftDeleted.keys {row row' : MemoryArtifactRow} (h : store.SoftDeleted input now row row') :
    row'.id = row.id ∧ row'.projectID = row.projectID := by
  rcases h with ⟨-, -, rfl⟩ | ⟨-, rfl⟩
  all_goals exact ⟨rfl, rfl⟩

theorem SoftDeletes.projectOf_eq (h : store.SoftDeletes input now store') (id : MemoryArtifactID) :
    store'.projectOf id = store.projectOf id := by
  have hfind : ∀ {rows rows' : List MemoryArtifactRow},
      List.Forall₂ (store.SoftDeleted input now) rows rows' →
      (rows'.find? (·.id == id)).map (·.projectID) =
        (rows.find? (·.id == id)).map (·.projectID) := by
    intro rows rows' hrows
    induction hrows with
    | nil => rfl
    | cons hrow _ ih =>
      obtain ⟨hid, hproject⟩ := hrow.keys
      simp only [find?_cons, hid]
      split
      · exact congrArg some hproject
      · exact ih
  exact hfind h.artifacts

theorem SoftDeletes.sound
    (h : store.SoftDeletes input now store') (hsound : store.Sound) : store'.Sound := by
  have hproject := h.projectOf_eq
  rw [h.rest] at hproject ⊢
  exact { hsound with
    derived := by simpa only [hproject] using hsound.derived
    influenced := by simpa only [hproject] using hsound.influenced }

theorem deleteMemoryArtifactRows_ok (hsound : store.Sound) {order : MapOrder}
    {target : MemoryArtifactRow} (htarget : store.findArtifact input.target = some target)
    (hlive : target.deletedAt = none) {outcome : MemoryArtifactDeletionOutcome}
    (h : store.deleteMemoryArtifactRows order input now = .ok (outcome, store')) :
    store.Deletion input now target.projectID outcome store' := by
  have hproject : store.projectOf input.target = some target.projectID := by
    rw [projectOf, htarget]
    rfl
  simp only [deleteMemoryArtifactRows, htarget, hlive, ne_eq, not_true_eq_false, if_false,
    run_ok_iff, Prod.mk.injEq] at h
  obtain ⟨-, hzero, -, -, index, hindex, preview, hpreview, _, hvalid, final, hfinal, rfl, rfl⟩ := h
  rw [previewMemoryArtifactDeletion_of_nonzero hzero, Except.ok.injEq] at hpreview
  subst hpreview
  have hids : ∀ id, id ∈ cascadeMemoryArtifactDerivedFrom order input.target index ↔
      store.InClosure input.target id := fun id => by
    rw [mem_cascade_iff, reach_dependents_narrow_iff hindex]
  have hnodup : (cascadeMemoryArtifactDerivedFrom order input.target index).Nodup :=
    FinDigraph.spread_nodup (nodup_singleton _) _
  obtain ⟨artifacts, embeddings, hstore, hartifacts, hembeddings, hdeleted⟩ :=
    foldlM_deleteOne hnodup hfinal
  have hdependents : ∀ id, id ∈ (deletionPreview input.target index).directDependents ↔
      id ≠ input.target ∧ store.InClosure input.target id := fun id => by
    rw [mem_directDependents_iff, reach_dependents_narrow_iff hindex]
  refine ⟨⟨?_, ?_, ?_⟩, fun id => ?_, ?_, ?_⟩
  · rw [hstore]
    rw [hartifacts, forall₂_map_right_iff, forall₂_same]
    exact fun row _ => softDeleted_markAll hids row
  · rw [hstore]
    rw [hembeddings, forall₂_map_right_iff, forall₂_same]
    exact fun row _ => embeddingDropped_invalidateAll hids row
  · rw [hstore]
  · rw [hdeleted, hids]
    simp
  · rintro ⟨id, hid⟩
    rw [validateMemoryArtifactDeletion_fresh_iff hzero] at hvalid
    rcases hvalid with hnil | hack
    · have hmem := (hdependents id).2 hid
      rw [hnil] at hmem
      exact absurd hmem not_mem_nil
    · exact fun id => (hack id).trans (hdependents id)
  · rw [previewMemoryArtifactDeletion_of_nonzero hzero,
      deletionPreview_narrow hsound hproject hindex]

/-- **A deletion does what was previewed, or nothing.** For every sound store, live target and
acknowledged set, and whatever the order of the cascade's map: the deletion fails and leaves the
store as it was, or it deletes the target with what derives from it and nothing else, after the
dependents were acknowledged. The preview is that of the whole project. -/
theorem deleteMemoryArtifact_exact (store : MemoryStore) (hsound : store.Sound) (order : MapOrder)
    (input : DeleteMemoryArtifact) (now : Int) (target : MemoryArtifactRow)
    (htarget : store.findArtifact input.target = some target) (hlive : target.deletedAt = none) :
    ((∃ e, deleteMemoryArtifact order input now store = (.error e, store)) ∨
      ∃ outcome store', deleteMemoryArtifact order input now store = (.ok outcome, store') ∧
        store.Deletion input now target.projectID outcome store') ∧
    ∀ bound index, store.loadMemoryArtifactLineageIndexForDeletion input.target bound = .ok index →
      previewMemoryArtifactDeletion input.target index =
        previewMemoryArtifactDeletion input.target
          (store.loadMemoryArtifactLineageIndex target.projectID) := by
  constructor
  · cases hrun : store.deleteMemoryArtifactRows order input now with
    | error e =>
      refine .inl ⟨e, ?_⟩
      simp [deleteMemoryArtifact, Effect.transaction, hrun]
    | ok result =>
      refine .inr ⟨result.1, result.2, ?_, deleteMemoryArtifactRows_ok hsound htarget hlive hrun⟩
      simp [deleteMemoryArtifact, Effect.transaction, hrun]
  · intro bound index hindex
    have hzero := (loadForDeletion_ok hindex).1
    have hproject : store.projectOf input.target = some target.projectID := by
      rw [projectOf, htarget]
      rfl
    rw [previewMemoryArtifactDeletion_of_nonzero hzero,
      previewMemoryArtifactDeletion_of_nonzero hzero,
      deletionPreview_narrow hsound hproject hindex]

/-- The deletion of the sample's root, with the lesson acknowledged. -/
def sampleDeletion : DeleteMemoryArtifact := ⟨sampleRootID, [sampleLessonID], "stale"⟩

theorem rootedLesson_deletion :
    (deleteMemoryArtifact .filed sampleDeletion 7 rootedLesson).1 =
        .ok ⟨⟨sampleRootID, [sampleLessonID], []⟩, [sampleRootID, sampleLessonID], 0⟩ ∧
      ((∃ e, deleteMemoryArtifact .filed sampleDeletion 7 rootedLesson =
          (.error e, rootedLesson)) ∨
        ∃ outcome store',
          deleteMemoryArtifact .filed sampleDeletion 7 rootedLesson = (.ok outcome, store') ∧
          rootedLesson.Deletion sampleDeletion 7 sampleProjectID outcome store') :=
  ⟨by decide +kernel,
    (deleteMemoryArtifact_exact rootedLesson rootedLesson_sound .filed sampleDeletion 7
      ⟨sampleRootID, .repositoryFact, sampleProjectID, 0, none, none⟩ (by decide) rfl).1⟩

end MemoryStore

end Codeflux.Storage
