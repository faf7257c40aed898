import Codeflux.Domain.Lineage
import Codeflux.Domain.Maturity
import Codeflux.Storage.Database

/-!
# The tables of project memory

Each table is modelled with the columns that the repositories read and with its constraints. What
spans tables, the foreign keys and the triggers, is `MemoryStore.Sound`, which the repositories'
operations keep.
-/

namespace Codeflux.Storage

open Library Go Domain

/-- The kinds of content an artifact can have. -/
inductive MemoryArtifactKind
  | repositoryFact | reviewedCommand | fileToTestMapping | repositoryConvention
  | acceptedRegressionCase | executionRecipe | executableAtomReference | observationHypothesis
deriving DecidableEq

/-- Why a revision lost its authority. -/
inductive InvalidationReasonKind
  | lessonArmWorse | bothArmsBad | adaptationFailed | bindingChanged | evidenceAmbiguous
  | userCorrection | deployedWorkflowFailure | other
deriving DecidableEq

instance : Declared InvalidationReasonKind where
  all := [.lessonArmWorse, .bothArmsBad, .adaptationFailed, .bindingChanged, .evidenceAmbiguous,
    .userCorrection, .deployedWorkflowFailure, .other]
  text
    | .lessonArmWorse => "lesson-arm-worse"
    | .bothArmsBad => "both-arms-bad"
    | .adaptationFailed => "adaptation-failed"
    | .bindingChanged => "binding-changed"
    | .evidenceAmbiguous => "evidence-ambiguous"
    | .userCorrection => "user-correction"
    | .deployedWorkflowFailure => "deployed-workflow-failure"
    | .other => "other"

/-! ### Rows -/

/-- A row of `memory_artifacts`. -/
structure MemoryArtifactRow where
  id : MemoryArtifactID
  kind : MemoryArtifactKind
  projectID : ProjectID
  createdAt : Int
  deletedAt : Option Int
  deletionReason : Option String
deriving DecidableEq

/-- The constraints of artifacts. -/
def memoryArtifactSchema : Schema MemoryArtifactRow where
  check row :=
    0 ≤ row.createdAt && row.deletedAt.all (row.createdAt ≤ ·) &&
    row.deletionReason.all (lengthBetween 1 2048) &&
    row.deletedAt.isSome == row.deletionReason.isSome
  conflict a b := a.id == b.id
  conflict_comm a b := by rw [BEq.comm]

/-- A row of `memory_artifact_revisions`. The content is immutable, the maturity is not. -/
structure MemoryRevisionRow where
  id : MemoryArtifactRevisionID
  artifactID : MemoryArtifactID
  revisionNumber : Nat
  kind : MemoryArtifactKind
  scopeRepositoryID : Option RepositoryID
  contentRepositoryID : RepositoryID
  (contentJSON contentSHA256 : String)
  maturity : MaturityState
  supersedesRevisionID : Option MemoryArtifactRevisionID
  createdFromCorrection : Bool
  idempotencyKey : String
  createdAt : Int
deriving DecidableEq

/-- The constraints of revisions. -/
def memoryRevisionSchema : Schema MemoryRevisionRow where
  check row :=
    1 ≤ row.revisionNumber && lengthBetween 1 255 row.idempotencyKey && 0 ≤ row.createdAt &&
    (row.supersedesRevisionID.isNone && row.revisionNumber == 1 && !row.createdFromCorrection ||
      row.supersedesRevisionID.isSome && 1 < row.revisionNumber && row.createdFromCorrection)
  conflict a b :=
    a.id == b.id || a.artifactID == b.artifactID && a.revisionNumber == b.revisionNumber ||
    a.artifactID == b.artifactID && a.idempotencyKey == b.idempotencyKey
  conflict_comm a b := by
    simp [BEq.comm (a := a.id), BEq.comm (a := a.artifactID), BEq.comm (a := a.revisionNumber),
      BEq.comm (a := a.idempotencyKey)]

/-- A row of `memory_artifact_supporting_evidence`. -/
structure SupportingEvidenceRow where
  revisionID : MemoryArtifactRevisionID
  evidenceID : EvidenceID
  source : EvidenceSourceKind
  strength : EvidenceStrength
  recordedAt : Int

/-- The constraints of evidence. -/
def supportingEvidenceSchema : Schema SupportingEvidenceRow where
  check row :=
    0 ≤ row.recordedAt && !(row.source == .agentSelfReport && row.strength != .none)
  conflict a b := a.revisionID == b.revisionID && a.evidenceID == b.evidenceID
  conflict_comm a b := by rw [BEq.comm (a := a.revisionID), BEq.comm (a := a.evidenceID)]

/-- A row of `memory_artifact_maturity_transitions`. Its primary key is a hash of the revision and
the idempotency key, which are unique together. -/
structure MaturityTransitionRow where
  revisionID : MemoryArtifactRevisionID
  (fromState toState : MaturityState)
  reasonKind : Option InvalidationReasonKind
  detail : Option String
  counterexampleEvidenceID : Option EvidenceID
  idempotencyKey : String
  transitionedAt : Int

/-- The constraints of transitions. -/
def maturityTransitionSchema : Schema MaturityTransitionRow where
  check row :=
    (row.fromState, row.toState) ∈ maturityTransitions &&
    row.detail.all (lengthBetween 1 8192) && lengthBetween 1 255 row.idempotencyKey &&
    0 ≤ row.transitionedAt &&
    (row.toState ∉ [.quarantined, .invalidated, .retired] ||
      row.reasonKind.isSome && row.detail.isSome)
  conflict a b := a.revisionID == b.revisionID && a.idempotencyKey == b.idempotencyKey
  conflict_comm a b := by rw [BEq.comm (a := a.revisionID), BEq.comm (a := a.idempotencyKey)]

/-- A row of `memory_artifact_derived_from` or of `memory_artifact_influenced_by`. -/
structure LineageRow where
  (artifactID ancestorID : MemoryArtifactID)
  recordedAt : Int

/-- The constraints of edges. -/
def lineageSchema : Schema LineageRow where
  check row := 0 ≤ row.recordedAt && row.artifactID != row.ancestorID
  conflict a b := a.artifactID == b.artifactID && a.ancestorID == b.ancestorID
  conflict_comm a b := by rw [BEq.comm (a := a.artifactID), BEq.comm (a := a.ancestorID)]

/-- A row of `memory_artifact_supporting_episode`. -/
structure SupportingEpisodeRow where
  artifactID : MemoryArtifactID
  episodeID : EpisodeID
  recordedAt : Int

/-- The constraints of episodes. -/
def supportingEpisodeSchema : Schema SupportingEpisodeRow where
  check row := 0 ≤ row.recordedAt
  conflict a b := a.artifactID == b.artifactID && a.episodeID == b.episodeID
  conflict_comm a b := by rw [BEq.comm (a := a.artifactID), BEq.comm (a := a.episodeID)]

/-- A row of `memory_artifact_embeddings`, without the vector. -/
structure EmbeddingRow where
  id : String
  revisionID : MemoryArtifactRevisionID
  spaceID : String
  createdAt : Int
  valid : Bool
  invalidatedAt : Option Int
deriving DecidableEq

/-- The constraints of embeddings. -/
def embeddingSchema : Schema EmbeddingRow where
  check row :=
    0 ≤ row.createdAt && row.invalidatedAt.all (row.createdAt ≤ ·) &&
    row.valid == row.invalidatedAt.isNone
  conflict a b := a.id == b.id || a.revisionID == b.revisionID && a.spaceID == b.spaceID
  conflict_comm a b := by
    rw [BEq.comm (a := a.id), BEq.comm (a := a.revisionID), BEq.comm (a := a.spaceID)]

/-! ### The store -/

/-- The tables of project memory. -/
structure MemoryStore where
  artifacts : Table memoryArtifactSchema
  revisions : Table memoryRevisionSchema
  supportingEvidence : Table supportingEvidenceSchema
  transitions : Table maturityTransitionSchema
  (derivedFrom influencedBy : Table lineageSchema)
  supportingEpisodes : Table supportingEpisodeSchema
  embeddings : Table embeddingSchema

namespace MemoryStore

/-- The store without rows. -/
def empty : MemoryStore :=
  ⟨Table.empty, Table.empty, Table.empty, Table.empty, Table.empty, Table.empty, Table.empty,
    Table.empty⟩

variable (store : MemoryStore)

/-- `findMemoryArtifact`. -/
def findArtifact (id : MemoryArtifactID) : Option MemoryArtifactRow :=
  store.artifacts.rows.find? (·.id == id)

/-- The project that owns an artifact. -/
def projectOf (id : MemoryArtifactID) : Option ProjectID :=
  (store.findArtifact id).map (·.projectID)

/-- The artifact is stored and not deleted. -/
def Live (id : MemoryArtifactID) : Prop :=
  ∃ row ∈ store.artifacts.rows, row.id = id ∧ row.deletedAt = none

/-- The artifact derives directly from the ancestor. -/
def DerivesFrom (artifact ancestor : MemoryArtifactID) : Prop :=
  ∃ row ∈ store.derivedFrom.rows, row.artifactID = artifact ∧ row.ancestorID = ancestor

/-- The artifact was made in the context of the ancestor. -/
def InfluencedBy (artifact ancestor : MemoryArtifactID) : Prop :=
  ∃ row ∈ store.influencedBy.rows, row.artifactID = artifact ∧ row.ancestorID = ancestor

/-- The episode is recorded as supporting the artifact. -/
def Supports (episode : EpisodeID) (artifact : MemoryArtifactID) : Prop :=
  ∃ row ∈ store.supportingEpisodes.rows, row.artifactID = artifact ∧ row.episodeID = episode

/-- The conditions between tables: foreign keys, and what triggers and the repositories check. -/
structure Sound : Prop where
  /-- Lineage stays within a project. -/
  derived : ∀ row ∈ store.derivedFrom.rows,
    ∃ project, store.projectOf row.artifactID = some project ∧
      store.projectOf row.ancestorID = some project
  influenced : ∀ row ∈ store.influencedBy.rows,
    ∃ project, store.projectOf row.artifactID = some project ∧
      store.projectOf row.ancestorID = some project
  episodes : ∀ row ∈ store.supportingEpisodes.rows, row.episodeID.isZero = false
  /-- Evidence supports revisions that exist. -/
  evidence : ∀ row ∈ store.supportingEvidence.rows,
    row.evidenceID.isZero = false ∧ ∃ revision ∈ store.revisions.rows, revision.id = row.revisionID
  /-- A revision with a logged transition is a candidate no more, and is out of the reach of
  authority when one of its transitions took it there. -/
  logged : ∀ row ∈ store.transitions.rows,
    ∃ revision ∈ store.revisions.rows, revision.id = row.revisionID ∧
      revision.maturity ≠ .candidate ∧
      (row.toState.canReachAuthority = false → revision.maturity.canReachAuthority = false)
  /-- The revisions of an artifact are numbered without gaps. -/
  numbered : ∀ revision ∈ store.revisions.rows, 1 < revision.revisionNumber →
    ∃ prior ∈ store.revisions.rows, prior.artifactID = revision.artifactID ∧
      prior.revisionNumber + 1 = revision.revisionNumber
  /-- Identities of stored rows are not zero. -/
  identified : ∀ revision ∈ store.revisions.rows,
    revision.id.isZero = false ∧ revision.artifactID.isZero = false

theorem empty_sound : empty.Sound := by
  constructor <;> intro row hrow <;> exact absurd hrow List.not_mem_nil

variable {store}

theorem findArtifact_eq_some_iff {id : MemoryArtifactID} {row : MemoryArtifactRow} :
    store.findArtifact id = some row ↔ row ∈ store.artifacts.rows ∧ row.id = id := by
  rw [findArtifact, Table.find_eq_some_iff (by simp +contextual [memoryArtifactSchema]), beq_iff_eq]

end MemoryStore

end Codeflux.Storage
