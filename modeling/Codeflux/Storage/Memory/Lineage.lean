import Codeflux.Storage.Memory.Tables

/-!
# Recorded lineage

The repositories record direct edges only. The index of them has an entry for each artifact that is
the descendant end of some edge, and for no other.
-/

namespace Codeflux.Storage

open Library Go Domain List

/-! ### Writes -/

/-- The checks on an edge before it is recorded. -/
def checkLineageEdge (artifactID ancestorID : MemoryArtifactID) : Result Unit := do
  ensure (artifactID.isZero = false) (.new "memory artifact ID must not be empty")
  ensure (ancestorID.isZero = false) (.new "memory artifact ancestor ID must not be empty")
  ensure (artifactID ≠ ancestorID) (.new "memory artifact cannot be its own lineage ancestor")

/-- An error of the database that a trigger or a foreign key raises. -/
def constraintError {α : Type} (operation reason : String) : Result α :=
  .error (.typed errConstraint operation (.new reason))

namespace MemoryStore

/-- Both artifacts belong to one project. -/
def SameProject (store : MemoryStore) (a b : MemoryArtifactID) : Prop :=
  ∃ project, store.projectOf a = some project ∧ store.projectOf b = some project

instance (store : MemoryStore) (a b : MemoryArtifactID) : Decidable (store.SameProject a b) :=
  decidable_of_iff (store.projectOf a ≠ none ∧ store.projectOf a = store.projectOf b) <| by
    constructor
    · rintro ⟨hne, heq⟩
      obtain ⟨project, hproject⟩ := Option.ne_none_iff_exists'.1 hne
      exact ⟨project, hproject, heq ▸ hproject⟩
    · rintro ⟨project, ha, hb⟩
      exact ⟨by simp [ha], ha.trans hb.symm⟩

/-- Is there an edge between these artifacts in the table? -/
def hasEdge (table : Table lineageSchema) (artifactID ancestorID : MemoryArtifactID) : Bool :=
  table.rows.any fun row => row.artifactID == artifactID && row.ancestorID == ancestorID

/-- The triggers and foreign keys of the lineage table `own`: the edge stays within a project, and
is not in the table `other`. -/
def checkEdgeTriggers (store : MemoryStore) (own other : String) (edges : Table lineageSchema)
    (artifactID ancestorID : MemoryArtifactID) : Result Unit := do
  if ¬store.SameProject artifactID ancestorID then
    constraintError "record memory artifact lineage edge"
      (own ++ " lineage crosses the owning project boundary")
  if hasEdge edges artifactID ancestorID then
    constraintError "record memory artifact lineage edge"
      ("memory artifact cannot be both " ++ own ++ " and " ++ other ++ " the same ancestor")

/-- Record that an artifact derives. -/
def recordMemoryArtifactDerivedFrom (artifactID ancestorID : MemoryArtifactID) (now : Int)
    (store : MemoryStore) : Result MemoryStore := do
  checkLineageEdge artifactID ancestorID
  checkEdgeTriggers store "derived_from" "influenced_by" store.influencedBy artifactID ancestorID
  return { store with
    derivedFrom := insertOrIgnore store.derivedFrom ⟨artifactID, ancestorID, now⟩ }

/-- Record an influence. -/
def recordMemoryArtifactInfluencedBy (artifactID ancestorID : MemoryArtifactID) (now : Int)
    (store : MemoryStore) : Result MemoryStore := do
  checkLineageEdge artifactID ancestorID
  checkEdgeTriggers store "influenced_by" "derived_from" store.derivedFrom artifactID ancestorID
  return {
    store with influencedBy := insertOrIgnore store.influencedBy ⟨artifactID, ancestorID, now⟩ }

/-- The episode's project is the one the trigger compares with the artifact's. -/
def recordMemoryArtifactSupportingEpisode (episodeProject : EpisodeID → Option ProjectID)
    (artifactID : MemoryArtifactID) (episodeID : EpisodeID) (now : Int) (store : MemoryStore) :
    Result MemoryStore := do
  ensure (artifactID.isZero = false) (.new "memory artifact ID must not be empty")
  ensure (episodeID.isZero = false) (.new "episode ID must not be empty")
  ensure (store.projectOf artifactID ≠ none ∧
      store.projectOf artifactID = episodeProject episodeID)
    (.typed errConstraint "record memory artifact supporting episode"
      (.new "memory artifact supporting episode crosses the owning project boundary"))
  return {
    store with
    supportingEpisodes := insertOrIgnore store.supportingEpisodes ⟨artifactID, episodeID, now⟩ }

theorem checkEdgeTriggers_ok {store : MemoryStore} {own other : String}
    {edges : Table lineageSchema} {artifactID ancestorID : MemoryArtifactID} {u : Unit}
    (h : store.checkEdgeTriggers own other edges artifactID ancestorID = .ok u) :
    store.SameProject artifactID ancestorID := by
  by_contra hnot
  rw [checkEdgeTriggers, if_pos hnot] at h
  exact nomatch h

section Sound

variable {store store' : MemoryStore} {artifactID ancestorID : MemoryArtifactID} {now : Int}

theorem recordMemoryArtifactDerivedFrom_sound (hsound : store.Sound)
    (h : recordMemoryArtifactDerivedFrom artifactID ancestorID now store = .ok store') :
    store'.Sound := by
  simp only [recordMemoryArtifactDerivedFrom, run_ok_iff] at h
  obtain ⟨-, -, _, htriggers, rfl⟩ := h
  exact { hsound with
    derived := forall_insertOrIgnore hsound.derived (checkEdgeTriggers_ok htriggers) }

theorem recordMemoryArtifactInfluencedBy_sound (hsound : store.Sound)
    (h : recordMemoryArtifactInfluencedBy artifactID ancestorID now store = .ok store') :
    store'.Sound := by
  simp only [recordMemoryArtifactInfluencedBy, run_ok_iff] at h
  obtain ⟨-, -, _, htriggers, rfl⟩ := h
  exact { hsound with
    influenced := forall_insertOrIgnore hsound.influenced (checkEdgeTriggers_ok htriggers) }

theorem recordMemoryArtifactSupportingEpisode_sound (hsound : store.Sound)
    {episodeProject : EpisodeID → Option ProjectID} {episodeID : EpisodeID}
    (h : recordMemoryArtifactSupportingEpisode episodeProject artifactID episodeID now store =
      .ok store') : store'.Sound := by
  simp only [recordMemoryArtifactSupportingEpisode, run_ok_iff] at h
  obtain ⟨-, -, -, hepisode, -, -, rfl⟩ := h
  exact { hsound with episodes := forall_insertOrIgnore hsound.episodes hepisode }

end Sound

/-- A lineage without ancestors, whose exposure was not looked up. -/
def lineageStub (id : MemoryArtifactID) : MemoryArtifactLineage := ⟨id, [], [], [], false⟩

/-- The two kinds of edge. -/
inductive EdgeKind
  | derived
  | influenced
deriving DecidableEq

/-- Add a direct ancestor to a lineage. -/
def addAncestor (kind : EdgeKind) (ancestorID : MemoryArtifactID)
    (entry : MemoryArtifactLineage) : MemoryArtifactLineage :=
  match kind with
  | .derived => { entry with derivedFrom := entry.derivedFrom ++ [ancestorID] }
  | .influenced => { entry with influencedBy := entry.influencedBy ++ [ancestorID] }

/-- One row of a scan: the descendant's entry is made when there is none. -/
def scanEdge (kind : EdgeKind) (index : LineageIndex) (row : LineageRow) : LineageIndex :=
  index.insert row.artifactID
    (addAncestor kind row.ancestorID
      ((index.lookup row.artifactID).getD (lineageStub row.artifactID)))

/-- Add edges to an index. -/
def scanEdges (kind : EdgeKind) (rows : List LineageRow) (index : LineageIndex) : LineageIndex :=
  rows.foldl (scanEdge kind) index

/-- The episodes recorded for an artifact. -/
def episodesFor (store : MemoryStore) (id : MemoryArtifactID) : List EpisodeID :=
  (store.supportingEpisodes.rows.filter (·.artifactID == id)).map (·.episodeID)

/-- The exposure of an entry, as it was looked up. -/
def setSupportingEpisodesKnown (episodes : List EpisodeID) (entry : MemoryArtifactLineage) :
    MemoryArtifactLineage :=
  { entry with supportingEpisodes := episodes, supportingEpisodesKnown := true }

/-- `finalizeMemoryArtifactLineageIndexSupportingEpisodes`. -/
def finalizeSupportingEpisodes (store : MemoryStore) (index : LineageIndex) : LineageIndex where
  entries := index.entries.map fun entry =>
    ⟨entry.1, setSupportingEpisodesKnown (store.episodesFor entry.1) entry.2⟩
  nodupKeys := by
    rw [List.NodupKeys, List.keys, map_map]
    exact index.nodupKeys

/-- The edges of a table whose descendants belong to a project. -/
def projectEdges (store : MemoryStore) (table : Table lineageSchema) (projectID : ProjectID) :
    List LineageRow :=
  table.rows.filter fun row => store.projectOf row.artifactID = some projectID

/-- The index of a project. -/
def loadMemoryArtifactLineageIndex (store : MemoryStore) (projectID : ProjectID) : LineageIndex :=
  store.finalizeSupportingEpisodes <|
    scanEdges .influenced (store.projectEdges store.influencedBy projectID) <|
      scanEdges .derived (store.projectEdges store.derivedFrom projectID) ∅

/-! ### What an index has -/

/-- The direct ancestors of one kind. -/
def ancestorsOf (kind : EdgeKind) (index : LineageIndex) (id : MemoryArtifactID) :
    List MemoryArtifactID :=
  match kind with
  | .derived => index.derivedFrom id
  | .influenced => index.influencedBy id

section Scan

variable {kind kind' : EdgeKind} {index : LineageIndex} {rows : List LineageRow}
  {id ancestor : MemoryArtifactID}

theorem ancestorsOf_scanEdge (row : LineageRow) :
    ancestorsOf kind' (scanEdge kind index row) id =
      ancestorsOf kind' index id ++
        if kind' = kind ∧ row.artifactID = id then [row.ancestorID] else [] := by
  by_cases hid : row.artifactID = id
  · subst hid
    cases hentry : index.lookup row.artifactID <;> cases kind <;> cases kind' <;>
      simp [ancestorsOf, scanEdge, LineageIndex.derivedFrom, LineageIndex.influencedBy, hentry,
        addAncestor, lineageStub]
  · have hlookup : (scanEdge kind index row).lookup id = index.lookup id :=
      AList.lookup_insert_ne (Ne.symm hid)
    cases kind' <;>
      simp [ancestorsOf, LineageIndex.derivedFrom, LineageIndex.influencedBy, hlookup, hid]

theorem mem_ancestorsOf_scanEdges_iff :
    ancestor ∈ ancestorsOf kind' (scanEdges kind rows index) id ↔
      ancestor ∈ ancestorsOf kind' index id ∨
        kind' = kind ∧ ∃ row ∈ rows, row.artifactID = id ∧ row.ancestorID = ancestor := by
  induction rows generalizing index with
  | nil => simp [scanEdges]
  | cons row rows ih =>
    rw [scanEdges, foldl_cons, ← scanEdges, ih, ancestorsOf_scanEdge, mem_append]
    have hedge : (ancestor ∈ if kind' = kind ∧ row.artifactID = id then [row.ancestorID] else []) ↔
        kind' = kind ∧ row.artifactID = id ∧ row.ancestorID = ancestor := by
      split_ifs with hrow
      · simp [hrow, eq_comm]
      · simp only [not_mem_nil, false_iff]
        exact fun h => hrow ⟨h.1, h.2.1⟩
    rw [hedge, or_assoc, ← and_or_left]
    simp

theorem mem_scanEdges_iff :
    id ∈ scanEdges kind rows index ↔ id ∈ index ∨ ∃ row ∈ rows, row.artifactID = id := by
  induction rows generalizing index with
  | nil => simp [scanEdges]
  | cons row rows ih =>
    rw [scanEdges, foldl_cons, ← scanEdges, ih, scanEdge, AList.mem_insert]
    simp only [mem_cons, exists_eq_or_imp, eq_comm (a := id)]
    tauto

theorem filed_scanEdges (h : index.Filed) : (scanEdges kind rows index).Filed := by
  induction rows generalizing index with
  | nil => exact h
  | cons row rows ih =>
    refine ih (forall_lookup_insert h ?_)
    cases hentry : index.lookup row.artifactID with
    | none => cases kind <;> rfl
    | some entry => cases kind <;> exact h row.artifactID entry hentry

end Scan

section Finalize

variable {store : MemoryStore} {index : LineageIndex} {id ancestor : MemoryArtifactID}

theorem lookup_finalize :
    (store.finalizeSupportingEpisodes index).lookup id =
      (index.lookup id).map (setSupportingEpisodesKnown (store.episodesFor id)) := by
  exact dlookup_map₂ (f := fun id => setSupportingEpisodesKnown (store.episodesFor id)) id

theorem mem_finalize_iff : id ∈ store.finalizeSupportingEpisodes index ↔ id ∈ index := by
  rw [← AList.lookup_isSome, lookup_finalize, Option.isSome_map, AList.lookup_isSome]

theorem ancestorsOf_finalize (kind : EdgeKind) :
    ancestorsOf kind (store.finalizeSupportingEpisodes index) id = ancestorsOf kind index id := by
  cases kind <;>
    cases hentry : index.lookup id <;>
      simp [ancestorsOf, LineageIndex.derivedFrom, LineageIndex.influencedBy, lookup_finalize,
        hentry, setSupportingEpisodesKnown]

theorem filed_finalize (h : index.Filed) : (store.finalizeSupportingEpisodes index).Filed := by
  intro id lineage hlineage
  rw [lookup_finalize, Option.map_eq_some_iff] at hlineage
  obtain ⟨entry, hentry, rfl⟩ := hlineage
  exact h id entry hentry

theorem known_finalize {lineage : MemoryArtifactLineage}
    (h : (store.finalizeSupportingEpisodes index).lookup id = some lineage) :
    lineage.supportingEpisodesKnown = true ∧
      ∀ episode, episode ∈ lineage.supportingEpisodes ↔ store.Supports episode id := by
  rw [lookup_finalize, Option.map_eq_some_iff] at h
  obtain ⟨entry, -, rfl⟩ := h
  refine ⟨rfl, fun episode => ?_⟩
  simp [setSupportingEpisodesKnown, episodesFor, Supports, and_assoc]

end Finalize

/-! ### The index of a project -/

section Load

variable {store : MemoryStore} {projectID : ProjectID} {id ancestor : MemoryArtifactID}

/-- The artifact is the descendant end of some edge. -/
def HasAncestor (store : MemoryStore) (id : MemoryArtifactID) : Prop :=
  ∃ ancestor, store.DerivesFrom id ancestor ∨ store.InfluencedBy id ancestor

theorem exists_projectEdges_iff {table : Table lineageSchema} :
    (∃ row ∈ store.projectEdges table projectID, row.artifactID = id ∧ row.ancestorID = ancestor) ↔
      store.projectOf id = some projectID ∧
        ∃ row ∈ table.rows, row.artifactID = id ∧ row.ancestorID = ancestor := by
  simp only [projectEdges, mem_filter, decide_eq_true_eq]
  constructor
  · rintro ⟨row, ⟨hrow, hproject⟩, rfl, rfl⟩
    exact ⟨hproject, row, hrow, rfl, rfl⟩
  · rintro ⟨hproject, row, hrow, rfl, rfl⟩
    exact ⟨row, ⟨hrow, hproject⟩, rfl, rfl⟩

theorem mem_derivedFrom_load_iff :
    ancestor ∈ (store.loadMemoryArtifactLineageIndex projectID).derivedFrom id ↔
      store.projectOf id = some projectID ∧ store.DerivesFrom id ancestor := by
  show ancestor ∈ ancestorsOf .derived (store.loadMemoryArtifactLineageIndex projectID) id ↔ _
  rw [loadMemoryArtifactLineageIndex, ancestorsOf_finalize, mem_ancestorsOf_scanEdges_iff,
    mem_ancestorsOf_scanEdges_iff, exists_projectEdges_iff]
  simp [ancestorsOf, LineageIndex.derivedFrom, DerivesFrom]

theorem mem_influencedBy_load_iff :
    ancestor ∈ (store.loadMemoryArtifactLineageIndex projectID).influencedBy id ↔
      store.projectOf id = some projectID ∧ store.InfluencedBy id ancestor := by
  show ancestor ∈ ancestorsOf .influenced (store.loadMemoryArtifactLineageIndex projectID) id ↔ _
  rw [loadMemoryArtifactLineageIndex, ancestorsOf_finalize, mem_ancestorsOf_scanEdges_iff,
    exists_projectEdges_iff, mem_ancestorsOf_scanEdges_iff]
  simp [ancestorsOf, LineageIndex.influencedBy, InfluencedBy]

/-- An artifact without an edge of its own has no entry. -/
theorem mem_load_iff :
    id ∈ store.loadMemoryArtifactLineageIndex projectID ↔
      store.projectOf id = some projectID ∧ store.HasAncestor id := by
  rw [loadMemoryArtifactLineageIndex, mem_finalize_iff, mem_scanEdges_iff, mem_scanEdges_iff]
  simp only [projectEdges, mem_filter, decide_eq_true_eq, HasAncestor, DerivesFrom,
    InfluencedBy]
  constructor
  · rintro ((h | ⟨row, ⟨hrow, hproject⟩, rfl⟩) | ⟨row, ⟨hrow, hproject⟩, rfl⟩)
    · exact absurd h (AList.notMem_empty id)
    · exact ⟨hproject, _, .inl ⟨row, hrow, rfl, rfl⟩⟩
    · exact ⟨hproject, _, .inr ⟨row, hrow, rfl, rfl⟩⟩
  · rintro ⟨hproject, _, ⟨row, hrow, rfl, rfl⟩ | ⟨row, hrow, rfl, rfl⟩⟩
    · exact .inl (.inr ⟨row, ⟨hrow, hproject⟩, rfl⟩)
    · exact .inr ⟨row, ⟨hrow, hproject⟩, rfl⟩

theorem filed_load : (store.loadMemoryArtifactLineageIndex projectID).Filed :=
  filed_finalize (filed_scanEdges (filed_scanEdges fun _ _ h => nomatch h))

end Load

/-! ### Descendants -/

/-- The second artifact transitively derives from the first. -/
def Descends (store : MemoryStore) : MemoryArtifactID → MemoryArtifactID → Prop :=
  Relation.TransGen fun x y => store.DerivesFrom y x

/-- The artifact is the target, or transitively derives from it. -/
def InClosure (store : MemoryStore) : MemoryArtifactID → MemoryArtifactID → Prop :=
  Relation.ReflTransGen fun x y => store.DerivesFrom y x

/-- The direct dependents of each artifact, row by row. -/
def derivedDescendants (store : MemoryStore) : FinDigraph MemoryArtifactID where
  nodes := store.derivedFrom.rows.map (·.ancestorID)
  next id := (store.derivedFrom.rows.filter (·.ancestorID == id)).map (·.artifactID)
  outside id h := by
    rw [map_eq_nil_iff, filter_eq_nil_iff]
    intro row hrow hid
    exact h (mem_map.2 ⟨row, hrow, by simpa using hid⟩)

/-- The recursive query `memoryArtifactDerivedFromDescendantsCTE`: a row is added when it is not
there yet. -/
def descendantClosure (store : MemoryStore) (target : MemoryArtifactID) : List MemoryArtifactID :=
  store.derivedDescendants.spread [target] [target]

section Descendants

variable {store : MemoryStore} {target id : MemoryArtifactID}

theorem mem_derivedDescendants_next_iff :
    id ∈ store.derivedDescendants.next target ↔ store.DerivesFrom id target := by
  simp only [derivedDescendants, DerivesFrom, mem_map, mem_filter, beq_iff_eq,
    and_right_comm, and_assoc]

theorem mem_descendantClosure_iff :
    id ∈ store.descendantClosure target ↔ store.InClosure target id := by
  rw [descendantClosure, FinDigraph.mem_spread_iff]
  have hrel : (fun x y => y ∈ store.derivedDescendants.next x) =
      fun x y => store.DerivesFrom y x := by
    funext x y
    exact propext mem_derivedDescendants_next_iff
  rw [FinDigraph.Reach, hrel, InClosure]

end Descendants

/-- A project. -/
def sampleProjectID : ProjectID :=
  ⟨"prj_0190a5b0-0000-7000-8000-000000000031", .inr (by decide)⟩

/-- The root. -/
def sampleRootID : MemoryArtifactID :=
  ⟨"mem_0190a5b0-0000-7000-8000-000000000032", .inr (by decide)⟩

/-- The lesson. -/
def sampleLessonID : MemoryArtifactID :=
  ⟨"mem_0190a5b0-0000-7000-8000-000000000033", .inr (by decide)⟩

/-- An episode. -/
def sampleEpisodeID : EpisodeID :=
  ⟨"epi_0190a5b0-0000-7000-8000-000000000034", .inr (by decide)⟩

/-- A lesson that derives from a root, with one episode that supported the root. -/
def rootedLesson : MemoryStore where
  artifacts := {
    rows := [⟨sampleRootID, .repositoryFact, sampleProjectID, 0, none, none⟩,
      ⟨sampleLessonID, .repositoryFact, sampleProjectID, 0, none, none⟩]
    checked := by decide
    distinct := by decide }
  revisions := Table.empty
  supportingEvidence := Table.empty
  transitions := Table.empty
  derivedFrom := {
    rows := [⟨sampleLessonID, sampleRootID, 0⟩]
    checked := by decide
    distinct := by decide }
  influencedBy := Table.empty
  supportingEpisodes := {
    rows := [⟨sampleRootID, sampleEpisodeID, 0⟩]
    checked := by decide
    distinct := by decide }
  embeddings := Table.empty

theorem rootedLesson_sound : rootedLesson.Sound where
  derived row hrow := by
    obtain rfl := mem_singleton.1 hrow
    exact ⟨sampleProjectID, by decide, by decide⟩
  influenced row hrow := absurd hrow not_mem_nil
  episodes row hrow := by
    obtain rfl := mem_singleton.1 hrow
    decide
  evidence row hrow := absurd hrow not_mem_nil
  logged row hrow := absurd hrow not_mem_nil
  numbered row hrow := absurd hrow not_mem_nil
  identified row hrow := absurd hrow not_mem_nil

end MemoryStore

end Codeflux.Storage
