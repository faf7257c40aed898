import Codeflux.TaskGraph.Writes

/-!
# Observing a fact again

A fact about work on a plan step is observed again and again, each time with another state and by
another event. The links of a node or an edge are bounded, so the projector takes a fact exactly as
often as there is room for its events.
-/

namespace Codeflux.TaskGraph

open Library Domain List

/-! ### What a run keeps -/

/-- The ends of every edge are there. -/
def GraphProjection.Wired (projection : GraphProjection) : Prop :=
  ∀ id entry edgeClass source target, projection.entry (.edge id) = some entry →
    entry.mark = .edge edgeClass source target →
    projection.entry (.node source) ≠ none ∧ projection.entry (.node target) ≠ none

variable {projection next : GraphProjection} {write : Write} {writes : List Write}

theorem Puts.wired (h : Puts write projection next) (hwired : projection.Wired) : next.Wired := by
  intro id entry edgeClass source target hentry hmark
  have hends : projection.entry (.node source) ≠ none ∧ projection.entry (.node target) ≠ none := by
    by_cases hkey : Key.edge id = write.key
    · obtain ⟨links, hwritten, -⟩ := h.written
      rw [hkey, hwritten, Option.some.injEq] at hentry
      subst hentry
      exact h.anchored _ _ _ hmark
    · rw [h.others _ hkey] at hentry
      exact hwired id entry _ _ _ hentry hmark
  exact ⟨h.entry_ne_none hends.1, h.entry_ne_none hends.2⟩

theorem foldlM_put_frame (h : writes.foldlM Write.put projection = .ok next) :
    next.graph = projection.graph ∧ next.revision = projection.revision ∧
      next.lastSequence = projection.lastSequence ∧
      next.pendingChange = projection.pendingChange ∧ (projection.Filed → next.Filed) ∧
      (projection.Wired → next.Wired) := by
  refine foldlM_induction h ⟨rfl, rfl, rfl, rfl, id, id⟩ fun write _ _ middle hput ih => ?_
  have hputs := Write.put_ok hput
  obtain ⟨hgraph, hrevision, hlast, hpending, hfiled, hwired⟩ := ih
  exact ⟨hgraph.trans hputs.graph_eq, hrevision.trans hputs.revision_eq,
    hlast.trans hputs.lastSequence_eq, hpending.trans hputs.pendingChange_eq,
    fun hf => hfiled (hputs.filed hf), fun hw => hwired (hputs.wired hw)⟩

/-- What projecting an event does. -/
inductive Projects (projection : GraphProjection) (event : ProjectionEvent) :
    GraphProjection → GraphChange → Prop
  | token (h : validateProjectionEvent projection event = .ok .tokenDelta) :
      Projects projection event { projection with lastSequence := event.sequence }
        (.immaterial event.sequence)
  | fact {fact : Fact} {sources : SourceLinks} {writes : List Write} {applied : GraphProjection}
      (h : validateProjectionEvent projection event = .ok fact)
      (hsources : newSourceLinks [event.sourceEventID] [] = .ok sources)
      (hwrites : factWrites fact event.sourceEventID sources = .ok writes)
      (happlied : writes.foldlM Write.put { projection with lastSequence := event.sequence } =
        .ok applied) :
      Projects projection event { applied with pendingChange := event.sequence }
        (.material projection.graph.id event.sequence event.occurredAt sources
          (sortedNodes applied.nodes) (sortedEdges applied.edges))

variable {change : GraphChange} {event : ProjectionEvent}

theorem projectSessionEvent_ok_iff :
    projectSessionEvent projection event = .ok (next, change) ↔
      projection.pendingChange = 0 ∧ Projects projection event next change := by
  simp only [projectSessionEvent, run_ok_iff]
  constructor
  · rintro ⟨_, hpending, fact, hfact, h⟩
    refine ⟨hpending, ?_⟩
    split at h
    · rw [pure_ok_iff, Prod.mk.injEq] at h
      obtain ⟨rfl, rfl⟩ := h
      exact .token hfact
    · simp only [run_ok_iff, applyProjectionFact_ok_iff, Prod.mk.injEq] at h
      obtain ⟨sources, hsources, applied, ⟨writes, hwrites, happlied⟩, rfl, rfl⟩ := h
      exact .fact hfact hsources hwrites happlied
  · rintro ⟨hpending, h⟩
    refine ⟨(), hpending, ?_⟩
    cases h with
    | token hfact => exact ⟨_, hfact, rfl⟩
    | @fact fact sources writes applied hfact hsources hwrites happlied =>
      refine ⟨_, hfact, ?_⟩
      split
      · cases hwrites
      · simp only [run_ok_iff, applyProjectionFact_ok_iff, Prod.mk.injEq]
        exact ⟨sources, hsources, applied, ⟨writes, hwrites, happlied⟩, rfl, rfl⟩

variable {revisionID : GraphRevisionID} {revision : Revision}

theorem commitGraphRevision_frame
    (h : commitGraphRevision projection change revisionID = .ok (next, revision)) :
    next = { projection with pendingChange := 0, revision := some revision } := by
  cases change with
  | immaterial sequence => cases h
  | material graphID sequence occurredAt sources nodes edges =>
    simp only [commitGraphRevision, run_ok_iff, Prod.mk.injEq] at h
    obtain ⟨-, -, -, -, -, -, _, -, rfl, rfl⟩ := h
    rfl

/-- What holds of a projection that is reached with these events. -/
structure Tracked (identity : Graph) (trace : List ProjectionEvent) (projection : GraphProjection) :
    Prop where
  graph_eq : projection.graph = identity
  valid : identity.validate = .ok ()
  filed : projection.Filed
  wired : projection.Wired
  recorded : ∀ event ∈ trace, ∀ fact, event.payload = [fact] → fact ≠ .tokenDelta →
    (∃ earlier, validateProjectionPayload earlier fact = .ok ()) ∧
      ∃ eventID sources writes, factWrites fact eventID sources = .ok writes ∧
        ∀ write ∈ writes, write.Stands projection

variable {trace : List ProjectionEvent} {identity : Graph}

theorem Tracked.identified (h : Tracked identity trace projection) :
    projection.graph.id.isZero = false ∧ projection.graph.taskID.isZero = false := by
  have hvalid := h.valid
  simp only [Graph.validate, run_ok_iff] at hvalid
  obtain ⟨_, hid, _, htask, -⟩ := hvalid
  rw [h.graph_eq]
  exact ⟨hid, htask⟩

variable {fact again : Fact}

theorem validateProjectionEvent_ok_iff :
    validateProjectionEvent projection event = .ok fact ↔
      projection.graph.id.isZero = false ∧ event.sequence = projection.lastSequence + 1 ∧
        event.sourceEventID.isZero = false ∧
        (event.taskID.isZero = false ∧ event.taskID = projection.graph.taskID) ∧
        validUTCTime event.occurredAt = true ∧ event.kind = fact.kind ∧ event.payload = [fact] ∧
        validateProjectionPayload projection fact = .ok () := by
  simp only [validateProjectionEvent, run_ok_iff, exists_const]
  constructor
  · rintro ⟨hgraph, hsequence, hsource, htask, htime, -, h⟩
    split at h
    · next found hpayload =>
      simp only [run_ok_iff, exists_const] at h
      obtain ⟨hkind, _, hvalid, rfl⟩ := h
      exact ⟨hgraph, hsequence, hsource, htask, htime, hkind, hpayload, hvalid⟩
    · cases h
  · rintro ⟨hgraph, hsequence, hsource, htask, htime, hkind, hpayload, hvalid⟩
    refine ⟨hgraph, hsequence, hsource, htask, htime, by rw [hkind]; rfl, ?_⟩
    rw [hpayload]
    simp only [run_ok_iff, exists_const]
    exact ⟨hkind, (), hvalid, trivial⟩

theorem payload_of_validate (h : validateProjectionEvent projection event = .ok fact) :
    event.payload = [fact] ∧ validateProjectionPayload projection fact = .ok () :=
  (validateProjectionEvent_ok_iff.1 h).2.2.2.2.2.2

theorem Tracked.project (h : Tracked identity trace projection)
    (hstep : Projects projection event next change) : Tracked identity (trace ++ [event]) next := by
  cases hstep with
  | token hfact =>
    have hpayload := (payload_of_validate hfact).1
    refine ⟨h.graph_eq, h.valid, { h.filed with }, h.wired, ?_⟩
    rw [forall_mem_append, forall_mem_singleton]
    refine ⟨h.recorded, fun fact hfact hne => ?_⟩
    rw [hpayload] at hfact
    cases hfact
    exact absurd rfl hne
  | @fact fact sources writes applied hfact hsources hwrites happlied =>
    obtain ⟨hpayload, hvalid⟩ := payload_of_validate hfact
    obtain ⟨hgraph, -, -, -, hfiled, hwired⟩ := foldlM_put_frame happlied
    obtain ⟨hstands, hkeep⟩ := foldlM_put_stands happlied
    have hfiled := hfiled { h.filed with }
    refine ⟨hgraph.trans h.graph_eq, h.valid, { hfiled with }, hwired h.wired, ?_⟩
    rw [forall_mem_append, forall_mem_singleton]
    refine ⟨fun e he other hother hne => ?_, fun other hother hne => ?_⟩
    · obtain ⟨hpayload, eventID, src, ws, hws, hall⟩ := h.recorded e he other hother hne
      exact ⟨hpayload, eventID, src, ws, hws, fun w hw => hkeep w (hall w hw)⟩
    · rw [hpayload] at hother
      cases hother
      exact ⟨⟨projection, hvalid⟩, _, _, writes, hwrites, hstands⟩

/-- What holds of every projection that is reached. -/
theorem Runs.tracked {start : UInt64} (h : Runs identity start trace projection) :
    Tracked identity trace projection := by
  induction h with
  | start h =>
    simp only [newGraphProjection, run_ok_iff] at h
    obtain ⟨_, hvalid, rfl⟩ := h
    refine ⟨rfl, hvalid, ⟨?_, ?_⟩, ?_, fun _ he => absurd he not_mem_nil⟩
    · intro _ _ h; cases h
    · intro _ _ h; cases h
    · intro _ _ _ _ _ h; cases h
  | project _ h ih => exact ih.project (projectSessionEvent_ok_iff.1 h).2
  | commit _ h ih =>
    rw [commitGraphRevision_frame h]
    exact ⟨ih.graph_eq, ih.valid, { ih.filed with }, ih.wired, ih.recorded⟩

/-! ### Revisions of a projection -/

section Sorted

variable {κ β : Type} [DecidableEq κ] {values : AList fun _ : κ => β} {r : β → β → Prop}
  [DecidableRel r]

theorem keys_nodup {f : β → κ} (h : ∀ a b, values.lookup a = some b → f b = a) :
    (((values.entries.map Sigma.snd).insertionSort r).map f).Nodup := by
  have hkeys : (values.entries.map Sigma.snd).map f = values.entries.map Sigma.fst := by
    rw [map_map]
    refine map_congr_left fun entry hentry => ?_
    exact h entry.1 entry.2 (AList.mem_lookup_iff.2 hentry)
  rw [((perm_insertionSort r _).map f).nodup_iff, hkeys]
  exact values.nodupKeys

theorem mem_values_iff {b : β} :
    b ∈ (values.entries.map Sigma.snd).insertionSort r ↔ ∃ a, values.lookup a = some b := by
  rw [mem_insertionSort, mem_map]
  constructor
  · rintro ⟨⟨a, b⟩, hentry, rfl⟩
    exact ⟨a, AList.mem_lookup_iff.2 hentry⟩
  · rintro ⟨a, ha⟩
    exact ⟨⟨a, b⟩, AList.mem_lookup_iff.1 ha, rfl⟩

end Sorted

theorem mem_sortedNodes {nodes : AList fun _ : NodeID => Node} {node : Node} :
    node ∈ sortedNodes nodes ↔ ∃ id, nodes.lookup id = some node :=
  mem_values_iff

theorem mem_sortedNodes_ids (hfiled : projection.Filed) {id : NodeID}
    (h : projection.entry (.node id) ≠ none) : id ∈ (sortedNodes projection.nodes).map Node.id := by
  obtain ⟨node, hnode⟩ :=
    Option.isSome_iff_exists.1 (AList.lookup_isSome.2 (entry_node_ne_none.1 h))
  exact mem_map.2 ⟨node, mem_sortedNodes.2 ⟨id, hnode⟩, hfiled.node_id id node hnode⟩

theorem checkRevision_sorted (hfiled : projection.Filed)
    (hwired : projection.Wired) (metadata : RevisionMetadata) :
    checkRevision metadata (sortedNodes projection.nodes) (sortedEdges projection.edges) =
      .ok () := by
  refine checkRevision_ok_iff.2 ⟨keys_nodup hfiled.node_id, keys_nodup hfiled.edge_id, ?_⟩
  intro edge hedge
  obtain ⟨id, hid⟩ := mem_values_iff.1 hedge
  obtain ⟨hfrom, hto⟩ := hwired id edge.entry _ _ _ (congrArg (Option.map Edge.entry) hid) rfl
  exact ⟨mem_sortedNodes_ids hfiled hfrom, mem_sortedNodes_ids hfiled hto⟩

/-- A new identity for a revision. -/
def FreshRevision (projection : GraphProjection) (revisionID : GraphRevisionID) : Prop :=
  revisionID.isZero = false ∧
    ∀ revision ∈ projection.revision, revision.metadata.id ≠ revisionID

variable {sources : SourceLinks}

theorem checkRevisionMetadata_ok_iff {id : GraphRevisionID} {graphID : GraphID} {ordinal : UInt64}
    {parentID : Option GraphRevisionID} {schemaVersion : UInt32} {createdAt : Go.Timestamp} :
    checkRevisionMetadata id graphID ordinal parentID schemaVersion createdAt sources = .ok () ↔
      id.isZero = false ∧ graphID.isZero = false ∧ ordinal ≠ 0 ∧ (ordinal = 1 ↔ parentID = none) ∧
        (∀ parent ∈ parentID, parent.isZero = false ∧ parent ≠ id) ∧
        schemaVersion = currentSchemaVersion ∧ validUTCTime createdAt = true := by
  simp [checkRevisionMetadata]

variable {occurredAt : Go.Timestamp}

/-- The metadata of the next revision are accepted unless the numbers of revisions are used up. -/
theorem nextMetadata_ok_iff (sources : SourceLinks) (hfresh : FreshRevision projection revisionID)
    (hgraph : projection.graph.id.isZero = false) (htime : validUTCTime occurredAt = true) :
    checkRevisionMetadata revisionID projection.graph.id (nextOrdinal projection)
        (projection.revision.map fun revision => revision.metadata.id) currentSchemaVersion
        occurredAt sources = .ok () ↔ nextOrdinal projection ≠ 0 := by
  rw [checkRevisionMetadata_ok_iff]
  refine ⟨fun h => h.2.2.1, fun hordinal => ⟨hfresh.1, hgraph, hordinal, ?_, ?_, rfl, htime⟩⟩
  · cases hrev : projection.revision with
    | none => simp [nextOrdinal, hrev]
    | some revision =>
      obtain ⟨-, -, hprior, -⟩ := checkRevisionMetadata_ok_iff.1 revision.metadata.checked
      simpa [nextOrdinal, hrev] using hprior
  · cases hrev : projection.revision with
    | none => simp
    | some revision =>
      obtain ⟨hid, -⟩ := checkRevisionMetadata_ok_iff.1 revision.metadata.checked
      simpa [hrev] using And.intro hid (hfresh.2 revision hrev)

/-- **When a change is committed.** -/
theorem commitGraphRevision_ok_iff (sources : SourceLinks) (hfiled : projection.Filed)
    (hwired : projection.Wired) (hfresh : FreshRevision projection revisionID)
    (hgraph : projection.graph.id.isZero = false) (htime : validUTCTime occurredAt = true) :
    (∃ committed revision, commitGraphRevision projection
        (.material projection.graph.id projection.pendingChange occurredAt sources
          (sortedNodes projection.nodes) (sortedEdges projection.edges)) revisionID =
        .ok (committed, revision)) ↔
      projection.pendingChange ≠ 0 ∧ nextOrdinal projection ≠ 0 := by
  have hmeta := nextMetadata_ok_iff sources hfresh hgraph htime
  simp only [commitGraphRevision, newRevisionMetadata, newRevision, run_ok_iff, certify_map_ok_iff,
    Prod.mk.injEq]
  constructor
  · rintro ⟨_, _, _, ⟨-, hpending, -⟩, _, -, _, ⟨hchecked, -⟩, -⟩
    exact ⟨hpending, hmeta.1 hchecked⟩
  · rintro ⟨hpending, hordinal⟩
    exact ⟨_, _, (), ⟨trivial, hpending, trivial, hfresh.1⟩, (), ⟨trivial, trivial⟩, _,
      ⟨hmeta.2 hordinal, rfl⟩, _,
      ⟨checkRevision_sorted hfiled hwired _, rfl⟩, rfl, rfl⟩

/-- A committed revision has the nodes of the change, the identity that was given and the next
number. -/
theorem revision_of_commit {graphID : GraphID} {sequence : UInt64} {nodes : List Node}
    {edges : List Edge}
    (h : commitGraphRevision projection (.material graphID sequence occurredAt sources nodes edges)
      revisionID = .ok (next, revision)) :
    revision.nodes = nodes ∧ revision.metadata.id = revisionID ∧
      revision.metadata.ordinal = nextOrdinal projection := by
  simp only [commitGraphRevision, newRevisionMetadata, newRevision, run_ok_iff, certify_map_ok_iff,
    Prod.mk.injEq] at h
  obtain ⟨_, -, _, -, _, ⟨-, rfl⟩, _, ⟨-, rfl⟩, -, rfl⟩ := h
  exact ⟨rfl, rfl, rfl⟩

/-! ### Facts about work on a step -/

namespace Fact

/-- The observation of a fact about work on a step of a plan. -/
def observation : Fact → Option Observation
  | .operation fact => some fact.observation
  | .effect fact => some fact.observation
  | .approval fact => some fact.observation
  | .validation fact => some fact.observation
  | _ => none

/-- The nodes that a fact about work on a step observes. -/
def nodeIDs (fact : Fact) : List NodeID :=
  fact.observation.elim [] fun observation => observation.spots.map Spot.nodeID

/-- The edges that lead to the nodes a fact observes. -/
def edgeIDs (fact : Fact) : List EdgeID :=
  fact.observation.elim [] fun observation => observation.spots.map Spot.edgeID

/-- The nodes and the edges of a fact have room for one more event. -/
def HasRoom (fact : Fact) (projection : GraphProjection) : Prop :=
  (∀ id ∈ fact.nodeIDs, ∀ node, projection.nodes.lookup id = some node →
    node.sources.eventIDs.length < maximumSourceEventLinks) ∧
  ∀ id ∈ fact.edgeIDs, ∀ edge, projection.edges.lookup id = some edge →
    edge.sources.eventIDs.length < maximumSourceEventLinks

end Fact

/-- The second fact is the first with another valid state, which is that of the status. -/
inductive Restates (status : NodeStatus) : Fact → Fact → Prop
  | operation {fact : OperationFact} {state : OpenEnum ProjectionState}
      (h : ProjectionState.nodeStatus state = some status) :
      Restates status (.operation fact) (.operation { fact with state })
  | effect {fact : EffectFact} {state : OpenEnum ProjectionState}
      (h : ProjectionState.nodeStatus state = some status) :
      Restates status (.effect fact) (.effect { fact with state })
  | approval {fact : ApprovalFact} {state : OpenEnum ApprovalState}
      (h : ApprovalState.nodeStatus state = some status) :
      Restates status (.approval fact) (.approval { fact with state })
  | validation {fact : ValidationFact} {state : OpenEnum ProjectionState}
      (h : ProjectionState.nodeStatus state = some status) :
      Restates status (.validation fact) (.validation { fact with state })

/-- The writes of an observation with its status and its links. -/
def Observation.marks (observation : Observation) (status : NodeStatus) (sources : SourceLinks) :
    List Write :=
  observation.spots.flatMap fun spot => spot.writes status sources

/-- What a fact and its restatement have in common. -/
structure Shares (status : NodeStatus) (fact again : Fact) (observation : Observation) : Prop where
  observation_eq : again.observation = some observation
  payload : ∀ earlier, validateProjectionPayload earlier fact = .ok () →
    ∀ projection, validateProjectionPayload projection again = .ok ()
  writes : ∀ eventID eventSources written, factWrites fact eventID eventSources = .ok written →
    ∃ prior sources, eventAndPlanSources eventID observation.planRevision observation.planStepID =
      .ok sources ∧ written = observation.marks prior sources
  again_writes : ∀ eventID eventSources written,
    factWrites again eventID eventSources = .ok written ↔
      ∃ sources, eventAndPlanSources eventID observation.planRevision observation.planStepID =
        .ok sources ∧ written = observation.marks status sources
  distinct : ∀ prior sources, (observation.marks prior sources).Pairwise
    fun a b => a.mark ≠ b.mark

variable {observation : Observation} {status : NodeStatus} {incomplete incomplete' : GraphError}
  {eventID : EventID}

theorem Observation.writes_eq_ok_iff {status : Option NodeStatus} {written : List Write} :
    observation.writes status incomplete eventID = .ok written ↔
      ∃ prior, status = some prior ∧ ∃ sources,
        eventAndPlanSources eventID observation.planRevision observation.planStepID = .ok sources ∧
          written = observation.marks prior sources := by
  cases status with
  | none => simp [Observation.writes]
  | some prior =>
    simp [Observation.writes, Observation.marks, @eq_comm _ written]

/-- The writes of both facts are those of one observation. -/
theorem Shares.of_writes {prior state : Option NodeStatus} (hstate : state = some status)
    (hagain : again.observation = some observation)
    (hpayload : ∀ earlier, validateProjectionPayload earlier fact = .ok () →
      ∀ projection, validateProjectionPayload projection again = .ok ())
    (hfirst : ∀ eventID eventSources,
      factWrites fact eventID eventSources = observation.writes prior incomplete eventID)
    (hsecond : ∀ eventID eventSources,
      factWrites again eventID eventSources = observation.writes state incomplete' eventID)
    (hdistinct : ∀ prior sources, (observation.marks prior sources).Pairwise
      fun a b => a.mark ≠ b.mark) : Shares status fact again observation := by
  refine ⟨hagain, hpayload, fun eventID eventSources written hw => ?_,
    fun eventID eventSources written => ?_, hdistinct⟩
  · rw [hfirst, Observation.writes_eq_ok_iff] at hw
    obtain ⟨prior, -, sources, hsources⟩ := hw
    exact ⟨prior, sources, hsources⟩
  · rw [hsecond, Observation.writes_eq_ok_iff]
    simp [hstate]

theorem Restates.shares (h : Restates status fact again) :
    ∃ observation, Shares status fact again observation := by
  rcases h with hstate | hstate | hstate | hstate
  all_goals
    refine ⟨_, .of_writes hstate rfl (fun _ hvalid _ => ?_) (fun _ _ => rfl) (fun _ _ => rfl)
      fun _ _ => ?_⟩
    · simp only [validateProjectionPayload, checkValidation, run_ok_iff, hstate, Option.isSome_some,
        exists_const] at hvalid ⊢
      tauto
  case validation =>
    unfold ValidationFact.observation
    split_ifs <;> simp [Observation.marks, Spot.writes, Write.mark]
  all_goals simp [Observation.marks, Spot.writes, Write.mark, OperationFact.observation,
    EffectFact.observation, ApprovalFact.observation]

/-! ### Observing again -/

/-- The next event, which carries this fact and comes from a new source event. -/
structure Follows (projection : GraphProjection) (fact : Fact) (event : ProjectionEvent) :
    Prop where
  sequence_eq : event.sequence = projection.lastSequence + 1
  task_eq : event.taskID = projection.graph.taskID
  time_valid : validUTCTime event.occurredAt = true
  kind_eq : event.kind = fact.kind
  payload_eq : event.payload = [fact]
  source_nonzero : event.sourceEventID.isZero = false
  source_fresh : ∀ key entry, projection.entry key = some entry →
    event.sourceEventID ∉ entry.sources.eventIDs

/-- The event is projected and its change committed, and the revision has the nodes with the
status. -/
def Accepts (projection : GraphProjection) (event : ProjectionEvent) (revisionID : GraphRevisionID)
    (nodeIDs : List NodeID) (status : NodeStatus) : Prop :=
  ∃ next change committed revision, projectSessionEvent projection event = .ok (next, change) ∧
    commitGraphRevision next change revisionID = .ok (committed, revision) ∧
    ∀ id ∈ nodeIDs, ∃ node ∈ revision.nodes, node.id = id ∧ node.status = status

/-- There is room to take a fact once more. -/
structure RoomFor (projection : GraphProjection) (fact : Fact) : Prop where
  /-- No change awaits its commit. -/
  settled : projection.pendingChange = 0
  /-- The number of the next event is not that of no event. -/
  numbered : projection.lastSequence + 1 ≠ 0
  /-- There is a number for the next revision. -/
  ordinal : nextOrdinal projection ≠ 0
  room : fact.HasRoom projection

theorem Follows.payload_ne (h : Follows projection fact event) (hfact : fact ≠ .tokenDelta) :
    event.payload ≠ [.tokenDelta] := by
  rw [h.payload_eq]
  exact fun heq => hfact (singleton_inj.1 heq)

theorem Observation.mem_marks_iff :
    write ∈ observation.marks status sources ↔ ∃ spot ∈ observation.spots,
      write = .node spot.nodeID spot.nodeClass status spot.displayName .empty sources ∨
      write = .edge spot.edgeID spot.edgeClass spot.predecessor spot.nodeID sources := by
  simp [Observation.marks, Spot.writes]

theorem Observation.sources_of_mem (h : write ∈ observation.marks status sources) :
    write.sources = sources := by
  obtain ⟨spot, -, rfl | rfl⟩ := mem_marks_iff.1 h <;> rfl

/-- An observation stands with any status and any event, when it stands with one. -/
theorem Observation.marks_stand {prior : NodeStatus} (status : NodeStatus) {first : SourceLinks}
    (h : ∀ write ∈ observation.marks prior first, write.Stands projection)
    (hsteps : sources.planSteps = first.planSteps) :
    ∀ write ∈ observation.marks status sources, write.Stands projection := by
  intro write hwrite
  obtain ⟨spot, hspot, rfl | rfl⟩ := mem_marks_iff.1 hwrite
  · obtain ⟨entry, hentry, hmark, hlinks⟩ := h _ (mem_marks_iff.2 ⟨spot, hspot, .inl rfl⟩)
    exact ⟨entry, hentry, hmark, hsteps ▸ hlinks⟩
  · obtain ⟨entry, hentry, hmark, hlinks⟩ := h _ (mem_marks_iff.2 ⟨spot, hspot, .inr rfl⟩)
    exact ⟨entry, hentry, hmark, hsteps ▸ hlinks⟩

/-- Writes with different marks that stand are writes to different entries. -/
theorem keys_nodup_of_stands (hmarks : writes.Pairwise fun a b => a.mark ≠ b.mark)
    (hstands : ∀ write ∈ writes, write.Stands projection) : (writes.map Write.key).Nodup := by
  rw [List.Nodup, pairwise_map]
  refine hmarks.imp_of_mem fun {a b} ha hb hne hkey => hne ?_
  obtain ⟨entry, hentry, hmark, -⟩ := hstands a ha
  obtain ⟨other, hother, hmark', -⟩ := hstands b hb
  rw [hkey, hother, Option.some.injEq] at hentry
  rw [← hmark, ← hmark', hentry]

theorem checkSourceLinks_event {planSteps : List PlanStepLink} (hzero : eventID.isZero = false) :
    checkSourceLinks [eventID] planSteps = .ok () ↔ planSteps.length ≤ maximumPlanStepLinks ∧
      planSteps.Nodup ∧ ∀ link ∈ planSteps, link.validate = .ok () := by
  rw [checkSourceLinks_ok_iff]
  simp [hzero, maximumSourceEventLinks]

theorem eventAndPlanSources_of {first : EventID} {revision : UInt64} {stepID : String}
    {prior : SourceLinks} (h : eventAndPlanSources first revision stepID = .ok prior)
    (hzero : eventID.isZero = false) :
    ∃ sources, eventAndPlanSources eventID revision stepID = .ok sources ∧
      sources.eventIDs = [eventID] ∧ sources.planSteps = prior.planSteps := by
  obtain ⟨hchecked, -, hsteps⟩ := newSourceLinks_ok_iff.1 h
  obtain ⟨-, hplan⟩ := checkSourceLinks_ok_iff.1 hchecked
  have hnew := (checkSourceLinks_event hzero).2 hplan
  exact ⟨⟨_, _, hnew⟩, newSourceLinks_ok_iff.2 ⟨hnew, rfl, rfl⟩, rfl, hsteps.symm⟩

section Again

variable {earlier : ProjectionEvent}

/-- The entries of an observation have room when its nodes and its edges have. -/
theorem hasRoom_marks_iff (hagain : again.observation = some observation) (status : NodeStatus)
    (sources : SourceLinks) :
    (∀ write ∈ observation.marks status sources, write.HasRoom projection) ↔
      again.HasRoom projection := by
  simp only [Fact.HasRoom, Fact.nodeIDs, Fact.edgeIDs, hagain, Option.elim_some,
    forall_mem_map, ← forall_and, Observation.marks, forall_mem_flatMap]
  refine forall₂_congr fun spot _ => ?_
  simp [Spot.writes, Write.HasRoom, Write.key, GraphProjection.entry, Node.entry, Edge.entry]

/-- An event with the restated fact writes what the fact observes. -/
theorem Projects.applies (h : Projects projection event next change)
    (hpayload : event.payload = [again]) (hshares : Shares status fact again observation)
    (hsources : eventAndPlanSources event.sourceEventID observation.planRevision
      observation.planStepID = .ok sources) :
    ∃ applied, (observation.marks status sources).foldlM Write.put
        { projection with lastSequence := event.sequence } = .ok applied ∧
      next = { applied with pendingChange := event.sequence } := by
  cases h with
  | token hvalid =>
    cases hpayload.symm.trans (payload_of_validate hvalid).1
    cases hshares.observation_eq
  | @fact found _ writes applied hvalid _ hwrites happlied =>
    cases hpayload.symm.trans (payload_of_validate hvalid).1
    obtain ⟨sources', hsources', rfl⟩ := (hshares.again_writes _ _ _).1 hwrites
    obtain rfl : sources = sources' := Except.ok.inj (hsources.symm.trans hsources')
    exact ⟨applied, happlied, rfl⟩

variable (h : Tracked identity trace projection) (hearlier : earlier ∈ trace)
  (hfact : earlier.payload = [fact]) (hne : fact ≠ .tokenDelta)
  (hshares : Shares status fact again observation) (hfollows : Follows projection again event)
include h hearlier hfact hne hshares hfollows

/-- The writes of the restated fact observe what is there. -/
theorem Tracked.reapplies :
    ∃ sources, eventAndPlanSources event.sourceEventID observation.planRevision
        observation.planStepID = .ok sources ∧
      Reapplies event.sourceEventID (observation.marks status sources)
        { projection with lastSequence := event.sequence } := by
  obtain ⟨-, eventID, eventSources, writes, hwrites, hstand⟩ := h.recorded _ hearlier _ hfact hne
  obtain ⟨prior, first, hfirst, rfl⟩ := hshares.writes _ _ _ hwrites
  obtain ⟨sources, hsources, hevents, hsteps⟩ :=
    eventAndPlanSources_of hfirst hfollows.source_nonzero
  have hagain := Observation.marks_stand status hstand hsteps
  refine ⟨sources, hsources, { h.filed with }, hagain, ?_, ?_, ?_, ?_⟩
  · intro write hwrite edgeClass source target hmark
    obtain ⟨entry, hentry, hentryMark, -⟩ := hagain write hwrite
    obtain ⟨spot, -, rfl | rfl⟩ := Observation.mem_marks_iff.1 hwrite
    · cases hmark
    · exact h.wired _ entry _ _ _ hentry (hentryMark.trans hmark)
  · exact keys_nodup_of_stands (hshares.distinct status sources) hagain
  · exact fun write hwrite => (Observation.sources_of_mem hwrite).symm ▸ hevents
  · exact fun write _ entry hentry => hfollows.source_fresh _ entry hentry

/-- The event is projected exactly when the entries have room. -/
theorem Tracked.projects_iff :
    (∃ next change, Projects projection event next change) ↔ again.HasRoom projection := by
  obtain ⟨sources, hsources, hreapplies⟩ := h.reapplies hearlier hfact hne hshares hfollows
  have hroom := foldlM_put_ok_iff hfollows.source_nonzero hreapplies
  rw [← hasRoom_marks_iff hshares.observation_eq status sources]
  refine Iff.trans ⟨?_, ?_⟩ hroom
  · rintro ⟨next, change, hprojects⟩
    obtain ⟨applied, happlied, -⟩ := hprojects.applies hfollows.payload_eq hshares hsources
    exact ⟨applied, happlied⟩
  · rintro ⟨applied, happlied⟩
    obtain ⟨⟨_, hpayload⟩, -⟩ := h.recorded _ hearlier _ hfact hne
    obtain ⟨hid, htask⟩ := h.identified
    have hevent : validateProjectionEvent projection event = .ok again :=
      validateProjectionEvent_ok_iff.2 ⟨hid, hfollows.sequence_eq, hfollows.source_nonzero,
        ⟨hfollows.task_eq ▸ htask, hfollows.task_eq⟩, hfollows.time_valid, hfollows.kind_eq,
        hfollows.payload_eq, hshares.payload _ hpayload projection⟩
    have hlinks : checkSourceLinks [event.sourceEventID] [] = .ok () :=
      (checkSourceLinks_event hfollows.source_nonzero).2 (by simp)
    have hevents : newSourceLinks [event.sourceEventID] [] = .ok ⟨_, _, hlinks⟩ :=
      newSourceLinks_ok_iff.2 ⟨hlinks, rfl, rfl⟩
    exact ⟨_, _, .fact hevent hevents
      ((hshares.again_writes _ _ _).2 ⟨sources, hsources, rfl⟩) happlied⟩

/-- The nodes of the restated fact carry its status once the event is projected. -/
theorem Tracked.projected_status (hprojects : Projects projection event next change) :
    ∀ id ∈ again.nodeIDs, ∃ node ∈ sortedNodes next.nodes, node.id = id ∧ node.status = status := by
  obtain ⟨sources, hsources, hreapplies⟩ := h.reapplies hearlier hfact hne hshares hfollows
  obtain ⟨applied, happlied, rfl⟩ := hprojects.applies hfollows.payload_eq hshares hsources
  intro id hid
  rw [Fact.nodeIDs, hshares.observation_eq, Option.elim_some, mem_map] at hid
  obtain ⟨spot, hspot, rfl⟩ := hid
  obtain ⟨links, hentry, -⟩ := (foldlM_put_entries hreapplies.distinct happlied).1 _
    (Observation.mem_marks_iff.2 ⟨spot, hspot, .inl rfl⟩)
  obtain ⟨node, hnode, hnodeEntry⟩ := Option.map_eq_some_iff.1 hentry
  obtain ⟨-, -, -, -, hfiled, -⟩ := foldlM_put_frame happlied
  refine ⟨node, mem_sortedNodes.2 ⟨_, hnode⟩, (hfiled hreapplies.filed).node_id _ _ hnode, ?_⟩
  exact Option.some.inj (congrArg Entry.status hnodeEntry)

end Again

/-- The change of an event that is not a token delta is the whole projection after it. -/
theorem Projects.material (h : Projects projection event next change)
    (hpayload : event.payload ≠ [.tokenDelta]) :
    next.graph = projection.graph ∧ next.revision = projection.revision ∧
      next.pendingChange = event.sequence ∧ next.lastSequence = event.sequence ∧
      ∃ sources, change = .material next.graph.id next.pendingChange event.occurredAt sources
        (sortedNodes next.nodes) (sortedEdges next.edges) := by
  cases h with
  | token hvalid => exact absurd (payload_of_validate hvalid).1 hpayload
  | @fact fact sources writes applied hvalid hsources hwrites happlied =>
    obtain ⟨hgraph, hrevision, hlast, -⟩ := foldlM_put_frame happlied
    refine ⟨hgraph, hrevision, rfl, hlast, sources, ?_⟩
    have hid : applied.graph.id = projection.graph.id := congrArg Graph.id hgraph
    rw [← hid]

theorem Restates.ne_tokenDelta (h : Restates status fact again) :
    fact ≠ .tokenDelta ∧ again ≠ .tokenDelta := by
  cases h <;> exact ⟨nofun, nofun⟩

section Claim

variable {start : UInt64} {earlier : ProjectionEvent}

/-- The change of a projected event is committed exactly when there are numbers left. -/
theorem Tracked.committed_iff (h : Tracked identity trace projection)
    (hfollows : Follows projection again event) (hagain : again ≠ .tokenDelta)
    (hrevision : FreshRevision projection revisionID)
    (hprojects : Projects projection event next change) :
    (∃ committed revision, commitGraphRevision next change revisionID =
        .ok (committed, revision)) ↔
      projection.lastSequence + 1 ≠ 0 ∧ nextOrdinal projection ≠ 0 := by
  have htracked := h.project hprojects
  have hpayload := hfollows.payload_ne hagain
  obtain ⟨hgraph, hprior, hpending, -, sources, rfl⟩ := hprojects.material hpayload
  have hfresh : FreshRevision next revisionID := ⟨hrevision.1, hprior ▸ hrevision.2⟩
  have hordinal : nextOrdinal next = nextOrdinal projection := by
    rw [nextOrdinal, nextOrdinal, hprior]
  rw [commitGraphRevision_ok_iff sources htracked.filed htracked.wired hfresh
    htracked.identified.1 hfollows.time_valid, hordinal, hpending, hfollows.sequence_eq]

/-- **A fact is accepted again.** When a fact about an operation, an effect, an approval or a
validation was projected, the next event, from a new source event, with the same fact in any valid
state is projected and committed, and the nodes of the fact carry the new status, exactly when no
change is pending, numbers of events and revisions are left, and the nodes and the edges of the
fact have room for one more event. -/
theorem reobservation_accepted_iff (hrun : Runs identity start trace projection)
    (hearlier : earlier ∈ trace) (hfact : earlier.payload = [fact])
    (hrestates : Restates status fact again) (hfollows : Follows projection again event)
    (hrevision : FreshRevision projection revisionID) :
    Accepts projection event revisionID again.nodeIDs status ↔ RoomFor projection again := by
  have htracked := hrun.tracked
  obtain ⟨observation, hshares⟩ := hrestates.shares
  obtain ⟨hne, hagain⟩ := hrestates.ne_tokenDelta
  have hroom := htracked.projects_iff hearlier hfact hne hshares hfollows
  constructor
  · rintro ⟨next, change, committed, revision, hproject, hcommit, -⟩
    obtain ⟨hsettled, hprojects⟩ := projectSessionEvent_ok_iff.1 hproject
    obtain ⟨hnumbered, hordinal⟩ := (htracked.committed_iff hfollows hagain hrevision hprojects).1
      ⟨committed, revision, hcommit⟩
    exact ⟨hsettled, hnumbered, hordinal, hroom.1 ⟨next, _, hprojects⟩⟩
  · rintro ⟨hsettled, hnumbered, hordinal, hentries⟩
    obtain ⟨next, change, hprojects⟩ := hroom.2 hentries
    obtain ⟨committed, revision, hcommit⟩ :=
      (htracked.committed_iff hfollows hagain hrevision hprojects).2 ⟨hnumbered, hordinal⟩
    refine ⟨next, change, committed, revision,
      projectSessionEvent_ok_iff.2 ⟨hsettled, hprojects⟩, hcommit, ?_⟩
    obtain ⟨-, -, -, -, sources, rfl⟩ := hprojects.material (hfollows.payload_ne hagain)
    rw [(revision_of_commit hcommit).1]
    exact htracked.projected_status hearlier hfact hne hshares hfollows hprojects

end Claim

/-- Every entry that is written is linked to the new event. -/
theorem Reapplies.links (h : Reapplies eventID writes projection)
    (hfold : writes.foldlM Write.put projection = .ok next) (hwrite : write ∈ writes)
    {entry : Entry} (hentry : projection.entry write.key = some entry) :
    ∃ linked, next.entry write.key = some linked ∧
      linked.sources.eventIDs = entry.sources.eventIDs ++ [eventID] := by
  obtain ⟨links, hnext, hmerges⟩ := (foldlM_put_entries h.distinct hfold).1 write hwrite
  rw [hentry] at hmerges
  obtain ⟨-, hevents, -⟩ := newSourceLinks_ok_iff.1 hmerges.2
  refine ⟨_, hnext, ?_⟩
  rw [hevents, h.events write hwrite, appendNew_singleton (h.fresh write hwrite entry hentry)]

theorem checkTypedID_tagged (kind : IDKind) {payload : String}
    (h : validateUUIDv7 payload = .ok ()) :
    checkTypedID kind (kind.tag ++ "_" ++ payload) = .ok () := by
  have hprefix : Go.trimPrefix? (kind.tag ++ "_") (kind.tag ++ "_" ++ payload) = some payload := by
    rw [Go.trimPrefix?, String.toList_append, dropPrefix?_append_of_beq _ (by simp),
      Option.map_some, String.ofList_toList]
  have hne : kind.tag ++ "_" ++ payload ≠ "" := by
    intro hempty
    have hlist := congrArg String.toList hempty
    simp at hlist
  rw [checkTypedID, ensure_of hne, ok_bind, hprefix]
  simp only [h]
  rfl

/-- The payload of an identity that ends with a number of two digits. -/
def samplePayload (number : Nat) : List Char :=
  List.replicate 8 '0' ++ ['-', '0', '0', '0', '0', '-', '7', '0', '0', '0', '-', '8', '0', '0',
    '0', '-'] ++ List.replicate 10 '0' ++
    [Nat.digitChar (number / 10), Nat.digitChar (number % 10)]

theorem samplePayload_valid : ∀ number < 100,
    validateUUIDv7 (String.ofList (samplePayload number)) = .ok () := by
  simp only [validateUUIDv7, Go.byteLength, String.utf8ByteSize_ofList, String.toList_ofList]
  decide

/-- An identity with a number. -/
def sampleID (kind : IDKind) (number : Nat) : TypedID kind :=
  if h : number < 100 then
    ⟨kind.tag ++ "_" ++ String.ofList (samplePayload number),
      .inr (checkTypedID_tagged kind (samplePayload_valid number h))⟩
  else .zero

theorem samplePayload_injective : ∀ a < 100, ∀ b < 100, samplePayload a = samplePayload b →
    a = b := by
  intro a ha b hb h
  have hdigits : ∀ x < 10, ∀ y < 10, Nat.digitChar x = Nat.digitChar y → x = y := by decide
  obtain ⟨hhigh, hlow⟩ : Nat.digitChar (a / 10) = Nat.digitChar (b / 10) ∧
      Nat.digitChar (a % 10) = Nat.digitChar (b % 10) := by
    simpa [samplePayload] using h
  have htens := hdigits (a / 10) (by omega) (b / 10) (by omega) hhigh
  have hones := hdigits (a % 10) (by omega) (b % 10) (by omega) hlow
  omega

theorem sampleID_injective {kind : IDKind} {a b : Nat} (ha : a < 100) (hb : b < 100)
    (h : sampleID kind a = sampleID kind b) : a = b := by
  rw [sampleID, dif_pos ha, sampleID, dif_pos hb, TypedID.mk.injEq] at h
  have hlist := congrArg String.toList h
  simp only [String.toList_append, append_cancel_left_eq, String.toList_ofList] at hlist
  exact samplePayload_injective a ha b hb hlist

variable {number : Nat}

theorem sampleID_nonzero {kind : IDKind} (h : number < 100) :
    (sampleID kind number).isZero = false := by
  rw [sampleID, dif_pos h, TypedID.isZero, beq_eq_false_iff_ne]
  intro hempty
  have hlist := congrArg String.toList hempty
  simp at hlist

/-- A graph. -/
def sampleGraph : Graph := ⟨sampleID .graph 0, sampleID .task 0, ⟨0, true⟩⟩

/-- A requirement. -/
def sampleRequirement : Fact := .requirement ⟨sampleID .node 1, "Requirement", .empty⟩

/-- A plan of one step. -/
def samplePlan : Fact :=
  .plan ⟨1, sampleID .node 2, "Plan", sampleID .node 1, sampleID .edge 1,
    [⟨"edit", sampleID .node 3, sampleID .edge 2, "Edit the file"⟩]⟩

/-- An edit for that step. -/
def sampleOperation : OperationFact :=
  ⟨OperationKind.fileEdit, sampleID .node 4, sampleID .edge 3, sampleID .node 3, 1, "edit", "Edit",
    ProjectionState.active⟩

/-- The event of a fact. -/
def sampleEvent (number : Nat) (fact : Fact) : ProjectionEvent :=
  ⟨UInt64.ofNat number, sampleID .event number, sampleID .task 0, ⟨1, true⟩, fact.kind, [fact]⟩

/-- Project an event and commit its change. -/
def observe (number : Nat) (fact : Fact) (projection : GraphProjection) :
    GraphResult GraphProjection := do
  let (next, change) ← projectSessionEvent projection (sampleEvent number fact)
  let (committed, _) ← commitGraphRevision next change (sampleID .graphRevision number)
  return committed

/-- The graph with the operation. -/
def sampleStart : GraphResult GraphProjection := do
  let projection ← newGraphProjection sampleGraph none 0
  let projection ← observe 1 sampleRequirement projection
  let projection ← observe 2 samplePlan projection
  observe 3 (.operation sampleOperation) projection

/-- The projection after a number of observations of the operation. -/
structure Observed (count : Nat) (projection : GraphProjection) : Prop where
  run : ∃ trace, Runs sampleGraph 0 trace projection ∧
    sampleEvent 3 (.operation sampleOperation) ∈ trace
  settled : projection.pendingChange = 0
  lastSequence_eq : projection.lastSequence = UInt64.ofNat (count + 2)
  ordinal_eq : nextOrdinal projection = UInt64.ofNat (count + 3)
  revision_eq : ∀ revision ∈ projection.revision,
    revision.metadata.id = sampleID .graphRevision (count + 2)
  links : ∀ key ∈ [Key.node sampleOperation.nodeID, .edge sampleOperation.controlEdge], ∃ entry,
    projection.entry key = some entry ∧ entry.sources.eventIDs.length = count
  known : ∀ key entry, projection.entry key = some entry → ∀ id ∈ entry.sources.eventIDs,
    ∃ number < count + 3, id = sampleID .event number

theorem Runs.observe (h : Runs sampleGraph 0 trace projection)
    (hobserve : observe number fact projection = .ok next) :
    Runs sampleGraph 0 (trace ++ [sampleEvent number fact]) next := by
  simp only [TaskGraph.observe, run_ok_iff, Prod.exists] at hobserve
  obtain ⟨middle, change, hproject, _, _, hcommit, rfl⟩ := hobserve
  exact (h.project hproject).commit hcommit

/-- Every event is one of the first three of the sample. -/
def sampleEvents (events : List EventID) : Bool :=
  events.all fun id => (List.range 4).any fun number => id == sampleID .event number

theorem mem_sampleEvents {events : List EventID} (h : sampleEvents events = true) :
    ∀ id ∈ events, ∃ number < 4, id = sampleID .event number := by
  intro id hid
  obtain ⟨number, hnumber, heq⟩ := any_eq_true.1 (all_eq_true.1 h id hid)
  exact ⟨number, mem_range.1 hnumber, eq_of_beq heq⟩

/-- The properties of the sample's first observation that are computed. -/
def checkSample (projection : GraphProjection) : Bool :=
  projection.pendingChange == 0 && projection.lastSequence == 3 && nextOrdinal projection == 4 &&
    projection.revision.all (fun revision =>
      revision.metadata.id == sampleID .graphRevision 3) &&
    (projection.nodes.lookup sampleOperation.nodeID).any (·.sources.eventIDs.length == 1) &&
    (projection.edges.lookup sampleOperation.controlEdge).any (·.sources.eventIDs.length == 1) &&
    projection.nodes.entries.all (fun entry => sampleEvents entry.2.sources.eventIDs) &&
    projection.edges.entries.all (fun entry => sampleEvents entry.2.sources.eventIDs)

theorem sampleStart_ok : ∃ projection, sampleStart = .ok projection ∧
    checkSample projection = true := by
  have h : checkSample <$> sampleStart = .ok true := by decide
  exact map_ok_iff.1 h

theorem observed_one : ∃ projection, Observed 1 projection := by
  obtain ⟨projection, hstart, hcheck⟩ := sampleStart_ok
  simp only [checkSample, Bool.and_eq_true, beq_iff_eq, Option.any_eq_true, Option.all_eq_true,
    all_eq_true] at hcheck
  obtain ⟨⟨⟨⟨⟨⟨⟨hsettled, hlast⟩, hordinal⟩, hrevision⟩, node, hnode, hnodeLinks⟩, edge, hedge,
    hedgeLinks⟩, hnodes⟩, hedges⟩ := hcheck
  refine ⟨projection, ?_, hsettled, hlast, hordinal, hrevision, ?_, ?_⟩
  · simp only [sampleStart, bind_ok_iff] at hstart
    obtain ⟨initial, hinitial, first, hfirst, second, hsecond, hthird⟩ := hstart
    exact ⟨_, (((Runs.start hinitial).observe hfirst).observe hsecond).observe hthird, by simp⟩
  · simp only [forall_mem_cons]
    exact ⟨⟨node.entry, congrArg (Option.map Node.entry) hnode, hnodeLinks⟩,
      ⟨edge.entry, congrArg (Option.map Edge.entry) hedge, hedgeLinks⟩, forall_mem_nil _⟩
  · intro key entry hentry
    cases key with
    | node id =>
      obtain ⟨node, hlookup, rfl⟩ := Option.map_eq_some_iff.1 hentry
      exact mem_sampleEvents (hnodes ⟨id, node⟩ (AList.mem_lookup_iff.1 hlookup))
    | edge id =>
      obtain ⟨edge, hlookup, rfl⟩ := Option.map_eq_some_iff.1 hentry
      exact mem_sampleEvents (hedges ⟨id, edge⟩ (AList.mem_lookup_iff.1 hlookup))

theorem sampleOperation_shares : Shares .active (.operation sampleOperation)
    (.operation sampleOperation) sampleOperation.observation := by
  have hrestates : Restates .active (.operation sampleOperation) (.operation sampleOperation) :=
    .operation rfl
  obtain ⟨observation, hshares⟩ := hrestates.shares
  obtain rfl : sampleOperation.observation = observation := Option.some.inj hshares.observation_eq
  exact hshares

theorem ofNat_ne_zero (hpos : 0 < number) (hlt : number < 2 ^ 64) : UInt64.ofNat number ≠ 0 := by
  intro h
  have hnat := congrArg UInt64.toNat h
  rw [UInt64.toNat_ofNat', Nat.mod_eq_of_lt hlt, UInt64.toNat_zero] at hnat
  omega

section Observed

variable {count : Nat} (h : Observed count projection)
include h

theorem Observed.follows (hcount : count < 97) :
    Follows projection (.operation sampleOperation)
      (sampleEvent (count + 3) (.operation sampleOperation)) := by
  obtain ⟨trace, hrun, -⟩ := h.run
  refine ⟨?_, ?_, rfl, rfl, rfl, sampleID_nonzero (by omega), ?_⟩
  · rw [h.lastSequence_eq]
    exact UInt64.ofNat_add (count + 2) 1
  · rw [hrun.tracked.graph_eq]
    rfl
  · intro key entry hentry hmem
    obtain ⟨number, hnumber, heq⟩ := h.known key entry hentry _ hmem
    have := sampleID_injective (by omega) (by omega) heq
    omega

theorem Observed.freshRevision (hcount : count < 97) :
    FreshRevision projection (sampleID .graphRevision (count + 3)) := by
  refine ⟨sampleID_nonzero (by omega), fun revision hrevision heq => ?_⟩
  rw [h.revision_eq revision hrevision] at heq
  have := sampleID_injective (by omega) (by omega) heq
  omega

/-- The node and the edge of the operation have room below the limit. -/
theorem Observed.hasRoom (hcount : count < maximumSourceEventLinks) :
    (Fact.operation sampleOperation).HasRoom projection := by
  refine (hasRoom_marks_iff sampleOperation_shares.observation_eq .active ⟨[], [], rfl⟩).1 ?_
  intro write hwrite entry hentry
  obtain ⟨linked, hlinked, hlen⟩ := h.links write.key (mem_map_of_mem hwrite)
  obtain rfl : entry = linked := Option.some.inj (hentry.symm.trans hlinked)
  exact hlen.trans_lt hcount

theorem Observed.links_next (hevent : event.sourceEventID = sampleID .event (count + 3))
    (hreapplies : Reapplies event.sourceEventID (sampleOperation.observation.marks .active sources)
      { projection with lastSequence := event.sequence }) {applied : GraphProjection}
    (happlied : (sampleOperation.observation.marks .active sources).foldlM Write.put
      { projection with lastSequence := event.sequence } = .ok applied) :
    (∀ key ∈ [Key.node sampleOperation.nodeID, .edge sampleOperation.controlEdge], ∃ entry,
      applied.entry key = some entry ∧ entry.sources.eventIDs.length = count + 1) ∧
    ∀ key entry, applied.entry key = some entry → ∀ id ∈ entry.sources.eventIDs,
      ∃ number < count + 1 + 3, id = sampleID .event number := by
  have hkeys : (sampleOperation.observation.marks .active sources).map Write.key =
    [Key.node sampleOperation.nodeID, .edge sampleOperation.controlEdge] := rfl
  have hlinked : ∀ key ∈ [Key.node sampleOperation.nodeID, .edge sampleOperation.controlEdge],
      ∃ entry linked, projection.entry key = some entry ∧ entry.sources.eventIDs.length = count ∧
        applied.entry key = some linked ∧
        linked.sources.eventIDs = entry.sources.eventIDs ++ [event.sourceEventID] := by
    intro key hkey
    obtain ⟨entry, hentry, hlen⟩ := h.links key hkey
    obtain ⟨write, hwrite, rfl⟩ := mem_map.1 (hkeys ▸ hkey)
    obtain ⟨linked, hnext, hevents⟩ := hreapplies.links happlied hwrite hentry
    exact ⟨entry, linked, hentry, hlen, hnext, hevents⟩
  refine ⟨?_, ?_⟩
  · intro key hkey
    obtain ⟨entry, linked, -, hlen, hnext, hevents⟩ := hlinked key hkey
    refine ⟨linked, hnext, ?_⟩
    rw [hevents, length_append, length_singleton, hlen]
  · intro key found hfound id hid
    by_cases hkey : key ∈ [Key.node sampleOperation.nodeID, .edge sampleOperation.controlEdge]
    · obtain ⟨entry, linked, hentry, -, hnext, hevents⟩ := hlinked key hkey
      obtain rfl : linked = found := Option.some.inj (hnext.symm.trans hfound)
      rw [hevents, mem_append, mem_singleton, hevent] at hid
      rcases hid with hid | rfl
      · obtain ⟨number, hnumber, rfl⟩ := h.known key entry hentry id hid
        exact ⟨number, by omega, rfl⟩
      · exact ⟨count + 3, by omega, rfl⟩
    · rw [(foldlM_put_entries hreapplies.distinct happlied).2 key (hkeys ▸ hkey)] at hfound
      obtain ⟨number, hnumber, rfl⟩ := h.known key found hfound id hid
      exact ⟨number, by omega, rfl⟩

/-- Each observation is accepted and links one more event, while there is room. -/
theorem Observed.once_more (hcount : count < maximumSourceEventLinks) :
    ∃ next, Observed (count + 1) next := by
  have hbound : count < 64 := hcount
  have hfollows := h.follows (by omega)
  have hfresh := h.freshRevision (by omega)
  have hshares := sampleOperation_shares
  obtain ⟨trace, hrun, hearlier⟩ := h.run
  have htracked := hrun.tracked
  obtain ⟨sources, hsources, hreapplies⟩ := htracked.reapplies hearlier rfl nofun hshares hfollows
  obtain ⟨middle, change, hprojects⟩ :=
    (htracked.projects_iff hearlier rfl nofun hshares hfollows).2 (h.hasRoom hcount)
  have hnumbers : projection.lastSequence + 1 ≠ 0 ∧ nextOrdinal projection ≠ 0 := by
    rw [← hfollows.sequence_eq, h.ordinal_eq]
    exact ⟨ofNat_ne_zero (by omega) (by omega), ofNat_ne_zero (by omega) (by omega)⟩
  obtain ⟨committed, revision, hcommit⟩ :=
    (htracked.committed_iff hfollows nofun hfresh hprojects).2 hnumbers
  have hproject := projectSessionEvent_ok_iff.2 ⟨h.settled, hprojects⟩
  have hcommitted := commitGraphRevision_frame hcommit
  obtain ⟨-, hprior, -, hlast, _, rfl⟩ := hprojects.material (hfollows.payload_ne nofun)
  obtain ⟨applied, happlied, rfl⟩ := hprojects.applies rfl hshares hsources
  obtain ⟨hlinks, hknown⟩ := h.links_next rfl hreapplies happlied
  obtain ⟨-, hid, hordinal⟩ := revision_of_commit hcommit
  subst hcommitted
  refine ⟨_, ⟨_, (hrun.project hproject).commit hcommit, mem_append_left _ hearlier⟩, rfl,
    hlast, ?_, ?_, hlinks, hknown⟩
  · have hnext : nextOrdinal { applied with pendingChange := UInt64.ofNat (count + 3) } =
        nextOrdinal projection := by
      rw [nextOrdinal, nextOrdinal, hprior]
    have hstep : revision.metadata.ordinal + 1 = nextOrdinal projection + 1 :=
      congrArg (· + 1) (hordinal.trans hnext)
    rw [h.ordinal_eq] at hstep
    exact hstep.trans (UInt64.ofNat_add (count + 3) 1).symm
  · rintro _ ⟨⟩
    exact hid

end Observed

theorem observed_upto {count : Nat} (hpos : 0 < count) (hcount : count ≤ maximumSourceEventLinks) :
    ∃ projection, Observed count projection := by
  induction count, hpos using Nat.le_induction with
  | base => exact observed_one
  | succ count _ ih =>
    obtain ⟨projection, h⟩ := ih (by omega)
    exact h.once_more (by omega)

/-- After one observation the operation is accepted once more. -/
theorem secondObservation_accepted :
    ∃ projection trace, Runs sampleGraph 0 trace projection ∧
      sampleEvent 3 (.operation sampleOperation) ∈ trace ∧ Accepts projection
        (sampleEvent 4 (.operation sampleOperation)) (sampleID .graphRevision 4)
        (Fact.operation sampleOperation).nodeIDs .active := by
  obtain ⟨projection, h⟩ := observed_one
  obtain ⟨trace, hrun, hearlier⟩ := h.run
  have hrestates : Restates .active (.operation sampleOperation) (.operation sampleOperation) :=
    .operation rfl
  obtain ⟨hnodes, hedges⟩ := h.hasRoom (by decide)
  refine ⟨projection, trace, hrun, hearlier, ?_⟩
  refine (reobservation_accepted_iff hrun hearlier rfl hrestates (h.follows (by decide))
    (h.freshRevision (by decide))).2 ⟨h.settled, ?_, ?_, hnodes, hedges⟩
  · rw [h.lastSequence_eq]
    decide
  · rw [h.ordinal_eq]
    decide

/-- **An operation that was observed sixty-four times is refused from then on.** The projection is
reached by events that were projected and committed one by one, and no change is pending. -/
theorem sixtyFifthObservation_refused :
    ∃ projection trace, Runs sampleGraph 0 trace projection ∧
      sampleEvent 3 (.operation sampleOperation) ∈ trace ∧ projection.pendingChange = 0 ∧
      Follows projection (.operation sampleOperation)
        (sampleEvent 67 (.operation sampleOperation)) ∧
      ∀ result, projectSessionEvent projection (sampleEvent 67 (.operation sampleOperation)) ≠
        .ok result := by
  obtain ⟨projection, h⟩ := observed_upto (by decide) (le_refl maximumSourceEventLinks)
  obtain ⟨trace, hrun, hearlier⟩ := h.run
  have hfollows := h.follows (by decide)
  refine ⟨projection, trace, hrun, hearlier, h.settled, hfollows, ?_⟩
  rintro ⟨next, change⟩ hproject
  obtain ⟨hnodes, -⟩ := (hrun.tracked.projects_iff hearlier rfl nofun sampleOperation_shares
    hfollows).1 ⟨next, change, (projectSessionEvent_ok_iff.1 hproject).2⟩
  obtain ⟨entry, hentry, hlen⟩ := h.links _ mem_cons_self
  obtain ⟨node, hnode, rfl⟩ := Option.map_eq_some_iff.1 hentry
  have hroom := hnodes _ mem_cons_self node hnode
  exact absurd hlen hroom.ne

end Codeflux.TaskGraph
