import Codeflux.Storage.Memory.Deletion
import Codeflux.Library.Run

/-!
# Revisions and their maturity

A revision's content never changes; its maturity moves only along the governed transitions, each of
which is logged. The contents of revisions are opaque here: their checks and their encoding are
parameters, as are the tables outside project memory.
-/

namespace Codeflux.Storage

open Library Go Domain List

/-- The content of a revision. -/
structure MemoryArtifactContent where
  kind : MemoryArtifactKind
  repository : RepositoryID
  payload : String

/-- What the operations need from outside project memory: the tables that others own, and the checks
and the canonical encoding of a content with its hash. -/
structure Surroundings where
  projectExists : ProjectID → Bool
  repositoryProject : RepositoryID → Option ProjectID
  evidenceProject : EvidenceID → Option ProjectID
  episodeProject : EpisodeID → Option ProjectID
  validateContent : MemoryArtifactContent → Result Unit
  canonicalMemoryArtifactContent : MemoryArtifactContent → Result (String × String)

/-- A request for a new artifact. -/
structure CreateMemoryArtifact where
  artifactID : MemoryArtifactID
  revisionID : MemoryArtifactRevisionID
  projectID : ProjectID
  scopeRepositoryID : Option RepositoryID
  content : MemoryArtifactContent
  idempotencyKey : String

/-- A request for a correction. -/
structure CreateMemoryArtifactCorrection where
  (priorRevisionID newRevisionID : MemoryArtifactRevisionID)
  correctedContent : MemoryArtifactContent
  idempotencyKey : String

/-- A request for a transition. -/
structure TransitionMemoryArtifactMaturity where
  revisionID : MemoryArtifactRevisionID
  (source target : OpenEnum MaturityState)
  reasonKind : OpenEnum InvalidationReasonKind
  detailRedacted : String
  counterexampleEvidenceID : Option EvidenceID
  idempotencyKey : String

/-- The artifact cannot be repaired. -/
def errMemoryArtifactCorrectionRequiresNewIdentity : Failure :=
  .new "memory artifact correction requires a new artifact identity"

/-- The evidence is another project's. -/
def errMemoryArtifactCounterexampleCrossProject : Failure :=
  .new ("memory artifact maturity transition counterexample evidence crosses the owning project " ++
    "boundary")

/-- `NewMemoryArtifactRevision`: the checks on a first revision. -/
def newMemoryArtifactRevision (env : Surroundings) (input : CreateMemoryArtifact) :
    Result Unit := do
  ensure (input.artifactID.isZero = false)
    (.value "memory.artifact.artifact_id" "must not be empty")
  ensure (input.revisionID.isZero = false)
    (.value "memory.artifact.revision_id" "must not be empty")
  ensure (input.projectID.isZero = false)
    (.value "memory.project_scope.project" "must not be empty")
  env.validateContent input.content

/-- `ReviseMemoryArtifactWithUserCorrection`: the checks on a correction of a revision. -/
def reviseMemoryArtifactWithUserCorrection (env : Surroundings) (prior : MemoryRevisionRow)
    (input : CreateMemoryArtifactCorrection) : Result Unit := do
  ensure (prior.artifactID.isZero = false ∧ prior.id.isZero = false)
    (.value "memory.correction.prior" "must reference a real prior revision")
  ensure (input.newRevisionID.isZero = false)
    (.value "memory.correction.revision_id" "must not be empty")
  ensure (input.newRevisionID ≠ prior.id)
    (.value "memory.correction.revision_id" "must be a new, distinct revision identity")
  ensure (prior.maturity.canReachAuthority = true)
    (.detail errMemoryArtifactCorrectionRequiresNewIdentity
      ("prior revision " ++ prior.id.value ++ " has maturity \"" ++ Declared.text prior.maturity ++
        "\", which cannot reach an authority-bearing state; create a new memory artifact " ++
        "identity instead of correcting artifact " ++ prior.artifactID.value ++ " in place"))
  env.validateContent input.correctedContent

namespace MemoryStore

variable (store : MemoryStore)

variable (id : MemoryArtifactRevisionID)

/-- The row of a revision. -/
def findRevision : Option MemoryRevisionRow :=
  store.revisions.rows.find? (·.id == id)

/-- `findMemoryArtifactRevisionByIdempotency`. -/
def findRevisionByIdempotency (artifactID : MemoryArtifactID) (key : String) :
    Option MemoryRevisionRow :=
  store.revisions.rows.find? fun row => row.artifactID == artifactID && row.idempotencyKey == key

section

variable (revisionID : MemoryArtifactRevisionID)

/-- `findMemoryMaturityTransitionByIdempotency`. -/
def findTransitionByIdempotency (key : String) : Option MaturityTransitionRow :=
  store.transitions.rows.find? fun row => row.revisionID == revisionID && row.idempotencyKey == key

/-- `memoryArtifactRevisionProjectID`. -/
def revisionProject : Option ProjectID :=
  (store.findRevision id).bind fun revision => store.projectOf revision.artifactID

/-- `supportingEvidenceRecords`. -/
def supportingEvidenceRecords : List SupportingEvidenceRecord :=
  ((store.supportingEvidence.rows.filter (·.revisionID == revisionID)).insertionSort
    fun a b => a.recordedAt ≤ b.recordedAt).map fun row =>
      ⟨row.evidenceID, .declared row.source, .declared row.strength⟩

/-- Some evidence for the revision is corroborated. -/
def Corroborated : Prop :=
  ∃ row ∈ store.supportingEvidence.rows, row.revisionID = revisionID ∧
    row.strength = .corroborated

end

/-! ### New revisions -/

/-- `insertMemoryArtifactRevision`, with the triggers and foreign keys of the table. -/
def insertMemoryArtifactRevision (env : Surroundings) (row : MemoryRevisionRow) :
    Result (Table memoryRevisionSchema) := do
  ensure (∃ artifact ∈ store.artifacts.rows, artifact.id = row.artifactID ∧
      artifact.kind = row.kind ∧ artifact.deletedAt = none)
    (.typed errConstraint "insert memory artifact revision"
      (.new "memory artifact revision kind does not match its artifact"))
  ensure (env.repositoryProject row.contentRepositoryID ≠ none ∧
      env.repositoryProject row.contentRepositoryID = store.projectOf row.artifactID)
    (.typed errConstraint "insert memory artifact revision"
      (.new "memory artifact content repository crosses the owning project boundary"))
  ensure (∀ scope ∈ row.scopeRepositoryID, env.repositoryProject scope ≠ none ∧
      env.repositoryProject scope = store.projectOf row.artifactID)
    (.typed errConstraint "insert memory artifact revision"
      (.new "memory artifact scope repository crosses the owning project boundary"))
  ensure (∀ prior ∈ row.supersedesRevisionID, ∃ revision ∈ store.revisions.rows,
      revision.id = prior ∧ revision.artifactID = row.artifactID ∧
        revision.revisionNumber + 1 = row.revisionNumber)
    (.typed errConstraint "insert memory artifact revision"
      (.new "memory artifact revision does not immediately supersede its prior revision"))
  repositoryWriteError "insert memory artifact revision" (store.revisions.insert row)

/-- The artifact of a first revision: the stored one, or a new one. -/
def declareArtifact (env : Surroundings) (now : Int) (input : CreateMemoryArtifact) :
    Result (Table memoryArtifactSchema) :=
  match store.findArtifact input.artifactID with
  | some existing => do
    ensure (existing.projectID = input.projectID ∧ existing.kind = input.content.kind)
      (.typed errConflict "create memory artifact"
        (.new "artifact identity retried with different project or kind"))
    return store.artifacts
  | none => do
    ensure (env.projectExists input.projectID)
      (.typed errConstraint "create memory artifact identity"
        (.new "FOREIGN KEY constraint failed"))
    repositoryWriteError "create memory artifact identity"
      (store.artifacts.insert
        ⟨input.artifactID, input.content.kind, input.projectID, now, none, none⟩)

/-- Write a revision unless its idempotency key has been used for it before. -/
def writeRevision (env : Surroundings) (operation : String) (row : MemoryRevisionRow) :
    Result (MemoryRevisionRow × MemoryStore) :=
  match store.findRevisionByIdempotency row.artifactID row.idempotencyKey with
  | some existing => do
    ensure (existing.id = row.id ∧ existing.contentSHA256 = row.contentSHA256)
      (.typed errConflict operation (.new "idempotency key belongs to a different revision"))
    return (existing, store)
  | none => do
    let revisions ← store.insertMemoryArtifactRevision env row
    return (row, { store with revisions })

/-- Create an artifact with a revision. -/
def createMemoryArtifact (env : Surroundings) (now : Int) (input : CreateMemoryArtifact) :
    Result (MemoryRevisionRow × MemoryStore) := do
  validateBounded "memory artifact idempotency key" input.idempotencyKey 255
  newMemoryArtifactRevision env input
  let (contentJSON, contentSHA256) ← env.canonicalMemoryArtifactContent input.content
  let artifacts ← store.declareArtifact env now input
  writeRevision { store with artifacts } env "create memory artifact revision" {
    id := input.revisionID
    artifactID := input.artifactID
    revisionNumber := 1
    kind := input.content.kind
    scopeRepositoryID := input.scopeRepositoryID
    contentRepositoryID := input.content.repository
    contentJSON
    contentSHA256
    maturity := .candidate
    supersedesRevisionID := none
    createdFromCorrection := false
    idempotencyKey := input.idempotencyKey
    createdAt := now }

/-- The row of a correction. -/
def correctedRow (now : Int) (input : CreateMemoryArtifactCorrection) (prior : MemoryRevisionRow)
    (contentJSON contentSHA256 : String) : MemoryRevisionRow :=
  { prior with
    id := input.newRevisionID
    revisionNumber := prior.revisionNumber + 1
    kind := input.correctedContent.kind
    contentRepositoryID := input.correctedContent.repository
    contentJSON
    contentSHA256
    maturity := .candidate
    supersedesRevisionID := some prior.id
    createdFromCorrection := true
    idempotencyKey := input.idempotencyKey
    createdAt := now }

/-- Supersede a revision. -/
def createMemoryArtifactCorrection (env : Surroundings) (now : Int)
    (input : CreateMemoryArtifactCorrection) : Result (MemoryRevisionRow × MemoryStore) := do
  validateBounded "memory artifact correction idempotency key" input.idempotencyKey 255
  match store.findRevision input.priorRevisionID with
  | none => .error (.typed errNotFound "read prior memory artifact revision" errNoRows)
  | some prior =>
    reviseMemoryArtifactWithUserCorrection env prior input
    ensure (input.correctedContent.kind = prior.kind)
      (.typed errConstraint "create memory artifact correction"
        (.new "correction cannot change the artifact kind"))
    let (contentJSON, contentSHA256) ← env.canonicalMemoryArtifactContent input.correctedContent
    store.writeRevision env "create memory artifact correction"
      (correctedRow now input prior contentJSON contentSHA256)

/-- Link evidence to a revision. -/
def recordMemoryArtifactSupportingEvidence (env : Surroundings) (now : Int)
    (revisionID : MemoryArtifactRevisionID) (record : SupportingEvidenceRecord) :
    Result MemoryStore := do
  ensure (revisionID.isZero = false) (.new "memory artifact revision ID must not be empty")
  record.validate
  match store.supportingEvidence.rows.find? fun row =>
      row.revisionID == revisionID && row.evidenceID == record.evidence with
  | some existing =>
    ensure (record.source = .declared existing.source ∧
        record.strength = .declared existing.strength)
      (.typed errConflict "record memory artifact supporting evidence"
        (.new "evidence link already recorded with a different source or strength"))
    return store
  | none =>
    match record.source, record.strength with
    | .declared source, .declared strength =>
      ensure (store.revisionProject revisionID ≠ none ∧
          store.revisionProject revisionID = env.evidenceProject record.evidence)
        (.typed errConstraint "record memory artifact supporting evidence"
          (.new "memory artifact supporting evidence crosses the owning project boundary"))
      let supportingEvidence ← repositoryWriteError "record memory artifact supporting evidence"
        (store.supportingEvidence.insert ⟨revisionID, record.evidence, source, strength, now⟩)
      return { store with supportingEvidence }
    | _, _ =>
      -- a validated record has declared texts only
      constraintError "record memory artifact supporting evidence" "CHECK constraint failed"

/-! ### Maturity -/

variable (input : TransitionMemoryArtifactMaturity)

/-- The checks on a request before its transaction. -/
def checkTransitionRequest : Result Unit := do
  ensure (input.revisionID.isZero = false) (.new "memory artifact revision ID must not be empty")
  validateBounded "memory artifact maturity transition idempotency key" input.idempotencyKey 255
  if input.target = .declared .quarantined ∨ input.target = .declared .invalidated ∨
      input.target = .declared .retired then
    ensure input.reasonKind.isValid
      (.new "memory artifact invalidation reason kind is not declared")
    validateBounded "memory artifact invalidation detail" input.detailRedacted 8192

/-- The counterexample of a transition belongs to the project of the revision. -/
def checkCounterexample (env : Surroundings) (input : TransitionMemoryArtifactMaturity) :
    Result Unit :=
  match input.counterexampleEvidenceID with
  | none => .ok ()
  | some evidenceID =>
    match store.revisionProject input.revisionID, env.evidenceProject evidenceID with
    | none, _ =>
      .error (.typed errNotFound "find memory artifact revision project" errNoRows)
    | _, none =>
      .error (.typed errNotFound "find memory artifact counterexample evidence project" errNoRows)
    | some revisionProject, some evidenceProject =>
      ensure (revisionProject = evidenceProject)
        (.typed errConstraint "transition memory artifact maturity"
          (.detail errMemoryArtifactCounterexampleCrossProject
            ("revision " ++ input.revisionID.value ++ " belongs to project " ++
              revisionProject.value ++ ", counterexample evidence " ++ evidenceID.value ++
              " belongs to project " ++ evidenceProject.value)))

/-- The transition is a governed one, with a proof from the recorded evidence when it leads to
authority. -/
def authorizeTransition : Result Unit := do
  if isAuthorityBearing input.target then
    let proof ← authorizeMemoryArtifactMaturityGrant input.revisionID
      (store.supportingEvidenceRecords input.revisionID)
    validateMemoryArtifactMaturityTransition
      ⟨input.source, input.target, input.revisionID, proof⟩
  else
    validateMemoryArtifactMaturityTransition
      ⟨input.source, input.target, input.revisionID, .zero⟩

/-- The reason columns of a logged transition. A reason that is not declared breaks the column's
constraint. -/
def reasonColumns : Result (Option InvalidationReasonKind × Option String) :=
  if input.reasonKind.toText = "" then .ok (none, none)
  else
    match input.reasonKind with
    | .declared kind => .ok (some kind, some input.detailRedacted)
    | .undeclared _ _ =>
      constraintError "log memory artifact maturity transition" "CHECK constraint failed"

/-- Insert a transition, with the triggers of the table. -/
def logTransition (row : MaturityTransitionRow) : Result (Table maturityTransitionSchema) := do
  ensure (∃ revision ∈ store.revisions.rows, revision.id = row.revisionID ∧
      revision.maturity = row.fromState)
    (.typed errConstraint "log memory artifact maturity transition"
      (.new "memory artifact maturity transition does not match the current recorded maturity"))
  ensure (row.toState.isAuthorityBearing = true →
      ∃ evidence ∈ store.supportingEvidence.rows, evidence.revisionID = row.revisionID ∧
        evidence.source ≠ .agentSelfReport ∧ evidence.strength = .corroborated)
    (.typed errConstraint "log memory artifact maturity transition"
      (.new "memory artifact maturity grant requires corroborated non-self-report evidence"))
  repositoryWriteError "log memory artifact maturity transition" (store.transitions.insert row)

/-- The update of a revision's maturity, row by row. -/
def setMaturity (source target : MaturityState) (row : MemoryRevisionRow) : MemoryRevisionRow :=
  if row.id = id ∧ row.maturity = source then { row with maturity := target } else row

/-- A transition that was not logged before. -/
def applyTransition (now : Int) (input : TransitionMemoryArtifactMaturity)
    (source target : MaturityState) : Result (MaturityTransitionRow × MemoryStore) := do
  let (reasonKind, detail) ← reasonColumns input
  let row : MaturityTransitionRow := { input with
    fromState := source
    toState := target
    reasonKind
    detail
    transitionedAt := now }
  let transitions ← store.logTransition row
  let revisions ← repositoryWriteError "apply memory artifact maturity transition"
    (store.revisions.update (setMaturity input.revisionID source target))
  let affected := store.revisions.rows.countP fun revision =>
    revision.id = input.revisionID ∧ revision.maturity = source
  ensure (affected = 1)
    (.typed errStaleRevision "apply memory artifact maturity transition"
      (.new ("updated " ++ toString affected ++ " rows, want 1")))
  return (row, { store with transitions, revisions })

/-- Move a maturity, once per key. -/
def transitionMemoryArtifactMaturity (env : Surroundings) (now : Int)
    (input : TransitionMemoryArtifactMaturity) : Result (MaturityTransitionRow × MemoryStore) := do
  checkTransitionRequest input
  match store.findTransitionByIdempotency input.revisionID input.idempotencyKey with
  | some existing =>
    ensure (input.source = .declared existing.fromState ∧
        input.target = .declared existing.toState)
      (.typed errConflict "transition memory artifact maturity"
        (.new "idempotency key belongs to a different transition"))
    return (existing, store)
  | none =>
    store.checkCounterexample env input
    store.authorizeTransition input
    match input.source, input.target with
    | .declared source, .declared target => store.applyTransition now input source target
    | _, _ =>
      -- the governed transitions are between declared states
      constraintError "log memory artifact maturity transition" "CHECK constraint failed"

/-! ### What an operation writes -/

variable {artifacts : Table memoryArtifactSchema}

section Writes

variable {store store' : MemoryStore} {env : Surroundings} {now : Int}

variable {row written : MemoryRevisionRow} {input : TransitionMemoryArtifactMaturity}
  {record : MaturityTransitionRow}

theorem findRevision_eq_some_iff {id : MemoryArtifactRevisionID} :
    store.findRevision id = some row ↔ row ∈ store.revisions.rows ∧ row.id = id := by
  rw [findRevision, Table.find_eq_some_iff (by simp +contextual [memoryRevisionSchema]), beq_iff_eq]

theorem eq_of_revision_id {a b : MemoryRevisionRow} (ha : a ∈ store.revisions.rows)
    (hb : b ∈ store.revisions.rows) (hid : a.id = b.id) : a = b :=
  Table.eq_of_conflict ha hb (by simp [memoryRevisionSchema, hid])

/-- The second store has one more revision than the first. -/
structure AddsRevision (store : MemoryStore) (row : MemoryRevisionRow) (store' : MemoryStore) :
    Prop where
  admitted : store.revisions.Admits row
  rows : store'.revisions.rows = store.revisions.rows ++ [row]
  rest : store' = { store with revisions := store'.revisions }
  supersedes : ∀ prior ∈ row.supersedesRevisionID, ∃ revision ∈ store.revisions.rows,
    revision.id = prior ∧ revision.artifactID = row.artifactID ∧
      revision.revisionNumber + 1 = row.revisionNumber

/-- A revision is written, or its idempotency key was used for it before. -/
theorem writeRevision_ok {operation : String}
    (h : store.writeRevision env operation row = .ok (written, store')) :
    store' = store ∨ store.AddsRevision row store' := by
  unfold writeRevision at h
  split at h
  · simp only [run_ok_iff, Prod.mk.injEq] at h
    obtain ⟨-, -, -, rfl⟩ := h
    exact .inl rfl
  · simp only [insertMemoryArtifactRevision, run_ok_iff, repositoryWriteError_ok_iff,
      Prod.mk.injEq] at h
    obtain ⟨revisions, ⟨-, -, -, -, -, -, -, hsupersedes, hinsert⟩, -, rfl⟩ := h
    obtain ⟨hadmits, hrows⟩ := Table.insert_ok_iff.1 hinsert
    exact .inr ⟨hadmits, hrows, rfl, hsupersedes⟩

theorem declareArtifact_ok {input : CreateMemoryArtifact}
    (h : store.declareArtifact env now input = .ok artifacts) :
    artifacts = store.artifacts ∨ ∃ row, artifacts.rows = store.artifacts.rows ++ [row] := by
  unfold declareArtifact at h
  split at h
  · simp only [run_ok_iff] at h
    obtain ⟨-, -, rfl⟩ := h
    exact .inl rfl
  · simp only [bind_ok_iff, repositoryWriteError_ok_iff] at h
    obtain ⟨-, -, hinsert⟩ := h
    exact .inr ⟨_, (Table.insert_ok_iff.1 hinsert).2⟩

/-- A correction supersedes a revision that can reach authority, by a candidate. -/
theorem createMemoryArtifactCorrection_ok {input : CreateMemoryArtifactCorrection}
    (h : store.createMemoryArtifactCorrection env now input = .ok (written, store')) :
    store' = store ∨
      ∃ prior ∈ store.revisions.rows, prior.maturity.canReachAuthority = true ∧
        input.newRevisionID.isZero = false ∧ prior.artifactID.isZero = false ∧
        ∃ json sha, store.AddsRevision (correctedRow now input prior json sha) store' := by
  simp only [createMemoryArtifactCorrection, bind_ok_iff] at h
  obtain ⟨-, -, h⟩ := h
  split at h
  · exact nomatch h
  · next prior hprior =>
    simp only [reviseMemoryArtifactWithUserCorrection, run_ok_iff] at h
    obtain ⟨-, ⟨-, ⟨hartifact, -⟩, -, hzero, -, -, -, hreach, -⟩, -, -, content, -, hwrite⟩ := h
    refine (writeRevision_ok hwrite).imp_right fun hadds => ?_
    exact ⟨prior, (findRevision_eq_some_iff.1 hprior).1, hreach, hzero, hartifact, _, _, hadds⟩

/-- The second store has moved the maturity of a revision. -/
structure MovesMaturity (store : MemoryStore) (id : MemoryArtifactRevisionID)
    (source target : MaturityState) (store' : MemoryStore) : Prop where
  governed : (source, target) ∈ maturityTransitions
  current : ∃ revision ∈ store.revisions.rows, revision.id = id ∧ revision.maturity = source
  earned : target.isAuthorityBearing = true → store.Corroborated id
  revisions : store'.revisions.rows = store.revisions.rows.map (setMaturity id source target)
  transitions : ∃ row, row.revisionID = id ∧ row.toState = target ∧
    store'.transitions.rows = store.transitions.rows ++ [row]
  rest : store' =
    { store with revisions := store'.revisions, transitions := store'.transitions }

theorem applyTransition_ok {source target : MaturityState}
    (h : store.applyTransition now input source target = .ok (record, store')) :
    store.MovesMaturity input.revisionID source target store' := by
  simp only [applyTransition, logTransition, run_ok_iff, repositoryWriteError_ok_iff,
    Prod.mk.injEq] at h
  obtain ⟨columns, -, transitions, ⟨-, hcurrent, -, hearned, hinsert⟩, revisions, hupdate, -, -, -,
    rfl⟩ := h
  obtain ⟨hadmits, hrows⟩ := Table.insert_ok_iff.1 hinsert
  refine ⟨?_, hcurrent, fun htarget => ?_, Table.update_ok hupdate, ⟨_, rfl, rfl, hrows⟩, rfl⟩
  · have hcheck := hadmits.1
    simp only [maturityTransitionSchema, Bool.and_eq_true, decide_eq_true_eq] at hcheck
    exact hcheck.1.1.1.1
  · obtain ⟨evidence, hevidence, hid, -, hstrength⟩ := hearned htarget
    exact ⟨evidence, hevidence, hid, hstrength⟩

/-- A transition moves the maturity of its revision, or it was logged before. -/
theorem transitionMemoryArtifactMaturity_ok
    (h : store.transitionMemoryArtifactMaturity env now input = .ok (record, store')) :
    (store' = store ∧ ∃ row ∈ store.transitions.rows, row.revisionID = input.revisionID ∧
        input.source = .declared row.fromState ∧ input.target = .declared row.toState) ∨
      ∃ source target, input.source = .declared source ∧ input.target = .declared target ∧
        store.MovesMaturity input.revisionID source target store' := by
  simp only [transitionMemoryArtifactMaturity, bind_ok_iff] at h
  obtain ⟨-, -, h⟩ := h
  split at h
  · next existing hexisting =>
    simp only [run_ok_iff, Prod.mk.injEq] at h
    obtain ⟨-, ⟨hsource, htarget⟩, -, rfl⟩ := h
    have hfound := find?_some hexisting
    simp only [Bool.and_eq_true, beq_iff_eq] at hfound
    exact .inl ⟨rfl, existing, mem_of_find?_eq_some hexisting, hfound.1, hsource, htarget⟩
  · simp only [bind_ok_iff] at h
    obtain ⟨-, -, -, -, h⟩ := h
    split at h
    · next source target hsource htarget =>
      exact .inr ⟨source, target, hsource, htarget, applyTransition_ok h⟩
    · cases h

end Writes

/-! ### The operations keep the store sound -/

section Sound

variable {store store' : MemoryStore} {env : Surroundings} {now : Int}

theorem sameProject_of_append {row : MemoryArtifactRow} {id ancestor : MemoryArtifactID}
    (hrows : store'.artifacts.rows = store.artifacts.rows ++ [row])
    (h : ∃ project, store.projectOf id = some project ∧ store.projectOf ancestor = some project) :
    ∃ project, store'.projectOf id = some project ∧ store'.projectOf ancestor = some project := by
  have hkept : ∀ {id project}, store.projectOf id = some project →
      store'.projectOf id = some project := by
    simp only [projectOf, findArtifact, Option.map_eq_some_iff]
    rintro id project ⟨artifact, hfind, hproject⟩
    exact ⟨artifact, by rw [hrows, find?_append, hfind]; rfl, hproject⟩
  exact h.imp fun project hboth => hboth.imp hkept hkept

variable {id : MemoryArtifactRevisionID} {input : CreateMemoryArtifact}
  {written : MemoryRevisionRow} {source target : MaturityState}

theorem Sound.declareArtifact (hsound : store.Sound)
    (h : store.declareArtifact env now input = .ok artifacts) :
    ({ store with artifacts } : MemoryStore).Sound := by
  rcases declareArtifact_ok h with rfl | ⟨row, hrows⟩
  · exact hsound
  · exact { hsound with
      derived := fun edge hedge => sameProject_of_append hrows (hsound.derived edge hedge)
      influenced := fun edge hedge => sameProject_of_append hrows (hsound.influenced edge hedge) }

/-- A new revision that has identities and continues the numbering keeps the store sound. -/
theorem AddsRevision.sound {row : MemoryRevisionRow} (h : store.AddsRevision row store')
    (hsound : store.Sound) (hid : row.id.isZero = false)
    (hartifact : row.artifactID.isZero = false) :
    store'.Sound := by
  have hold : ∀ revision ∈ store.revisions.rows, revision ∈ store'.revisions.rows :=
    fun revision hmem => h.rows ▸ mem_append_left _ hmem
  have hsplit : ∀ revision ∈ store'.revisions.rows,
      revision ∈ store.revisions.rows ∨ revision = row := fun revision hmem => by
    rwa [h.rows, mem_append, mem_singleton] at hmem
  rw [h.rest]
  refine { hsound with
    evidence := fun link hlink => ?_
    logged := fun transition htransition => ?_
    numbered := fun revision hrevision hnumber => ?_
    identified := fun revision hrevision => ?_ }
  · obtain ⟨hzero, revision, hrevision, heq⟩ := hsound.evidence link hlink
    exact ⟨hzero, revision, hold revision hrevision, heq⟩
  · obtain ⟨revision, hrevision, hrest⟩ := hsound.logged transition htransition
    exact ⟨revision, hold revision hrevision, hrest⟩
  · rcases hsplit revision hrevision with hmem | rfl
    · obtain ⟨prior, hprior, hrest⟩ := hsound.numbered revision hmem hnumber
      exact ⟨prior, hold prior hprior, hrest⟩
    · have hcheck := h.admitted.1
      simp only [memoryRevisionSchema, Bool.and_eq_true, Bool.or_eq_true, decide_eq_true_eq,
        beq_iff_eq] at hcheck
      rcases hcheck.2 with hfirst | hlater
      · omega
      · obtain ⟨prior, hprior⟩ := Option.isSome_iff_exists.1 hlater.1.1
        obtain ⟨superseded, hmem, -, hrest⟩ := h.supersedes prior hprior
        exact ⟨superseded, hold superseded hmem, hrest⟩
  · rcases hsplit revision hrevision with hmem | rfl
    · exact hsound.identified revision hmem
    · exact ⟨hid, hartifact⟩

theorem createMemoryArtifact_sound (hsound : store.Sound)
    (h : store.createMemoryArtifact env now input = .ok (written, store')) : store'.Sound := by
  simp only [createMemoryArtifact, newMemoryArtifactRevision, run_ok_iff] at h
  obtain ⟨-, -, -, ⟨-, hartifact, -, hrevision, -⟩, content, -, artifacts, hartifacts, hwrite⟩ := h
  have hdeclared := hsound.declareArtifact hartifacts
  rcases writeRevision_ok hwrite with rfl | hadds
  · exact hdeclared
  · exact hadds.sound hdeclared hrevision hartifact

theorem recordMemoryArtifactSupportingEvidence_sound {revisionID : MemoryArtifactRevisionID}
    {record : SupportingEvidenceRecord} (hsound : store.Sound)
    (h : store.recordMemoryArtifactSupportingEvidence env now revisionID record = .ok store') :
    store'.Sound := by
  simp only [recordMemoryArtifactSupportingEvidence, SupportingEvidenceRecord.validate,
    run_ok_iff] at h
  obtain ⟨-, -, -, ⟨-, hzero, -⟩, h⟩ := h
  split at h
  · simp only [run_ok_iff] at h
    obtain ⟨-, -, rfl⟩ := h
    exact hsound
  · split at h
    · simp only [run_ok_iff, repositoryWriteError_ok_iff] at h
      obtain ⟨-, ⟨hproject, -⟩, table, hinsert, rfl⟩ := h
      refine { hsound with evidence := fun link hlink => ?_ }
      have hrows := (Table.insert_ok_iff.1 hinsert).2
      have hmem : link ∈ table.rows := hlink
      rw [hrows, mem_append, mem_singleton] at hmem
      rcases hmem with hmem | rfl
      · exact hsound.evidence link hmem
      · refine ⟨hzero, ?_⟩
        cases hfind : store.findRevision revisionID with
        | none => simp [revisionProject, hfind] at hproject
        | some revision => exact ⟨revision, findRevision_eq_some_iff.1 hfind⟩
    · cases h

@[simp] theorem setMaturity_keys (row : MemoryRevisionRow) :
    (setMaturity id source target row).id = row.id ∧
      (setMaturity id source target row).artifactID = row.artifactID ∧
      (setMaturity id source target row).revisionNumber = row.revisionNumber := by
  unfold setMaturity
  split_ifs <;> exact ⟨rfl, rfl, rfl⟩

theorem MovesMaturity.sound (h : store.MovesMaturity id source target store') (hsound : store.Sound)
    : store'.Sound := by
  have hmoved : ∀ revision ∈ store.revisions.rows,
      setMaturity id source target revision ∈ store'.revisions.rows := fun revision hmem =>
    h.revisions ▸ mem_map_of_mem hmem
  have hfrom : ∀ revision ∈ store'.revisions.rows, ∃ old ∈ store.revisions.rows,
      setMaturity id source target old = revision := fun revision hmem => by
    rw [h.revisions] at hmem
    exact mem_map.1 hmem
  rw [h.rest]
  refine { hsound with
    evidence := fun link hlink => ?_
    logged := fun transition htransition => ?_
    numbered := fun revision hrevision hnumber => ?_
    identified := fun revision hrevision => ?_ }
  · obtain ⟨hzero, revision, hrevision, heq⟩ := hsound.evidence link hlink
    exact ⟨hzero, _, hmoved revision hrevision, (setMaturity_keys revision).1.trans heq⟩
  · obtain ⟨row, hid, htarget, hrows⟩ := h.transitions
    have hmem : transition ∈ store'.transitions.rows := htransition
    rw [hrows, mem_append, mem_singleton] at hmem
    rcases hmem with hmem | rfl
    · obtain ⟨revision, hrevision, heq, hcandidate, hreach⟩ := hsound.logged transition hmem
      refine ⟨_, hmoved revision hrevision, (setMaturity_keys revision).1.trans heq, ?_⟩
      unfold setMaturity
      split_ifs with hset
      · exact ⟨MaturityState.ne_candidate_of_transition h.governed, fun hterminal =>
          MaturityState.canReachAuthority_of_transition h.governed (hset.2 ▸ hreach hterminal)⟩
      · exact ⟨hcandidate, hreach⟩
    · obtain ⟨revision, hrevision, heq, hsource⟩ := h.current
      refine ⟨_, hmoved revision hrevision, (setMaturity_keys revision).1.trans
        (heq.trans hid.symm),
        ?_⟩
      rw [setMaturity, if_pos ⟨heq, hsource⟩, htarget]
      exact ⟨MaturityState.ne_candidate_of_transition h.governed, fun hterminal => hterminal⟩
  · obtain ⟨old, hold, rfl⟩ := hfrom revision hrevision
    obtain ⟨-, hartifact, hnumbers⟩ := @setMaturity_keys id source target old
    rw [hnumbers] at hnumber
    obtain ⟨prior, hprior, hsame, hsucc⟩ := hsound.numbered old hold hnumber
    refine ⟨_, hmoved prior hprior, ?_, ?_⟩
    · rw [(setMaturity_keys prior).2.1, hartifact, hsame]
    · rw [(setMaturity_keys prior).2.2, hnumbers, hsucc]
  · obtain ⟨old, hold, rfl⟩ := hfrom revision hrevision
    rw [(setMaturity_keys old).1, (setMaturity_keys old).2.1]
    exact hsound.identified old hold

theorem deleteMemoryArtifactRows_sound {order : MapOrder} {input : DeleteMemoryArtifact}
    {outcome : MemoryArtifactDeletionOutcome} (hsound : store.Sound)
    (h : store.deleteMemoryArtifactRows order input now = .ok (outcome, store')) :
    store'.Sound := by
  cases htarget : store.findArtifact input.target with
  | none =>
    simp [deleteMemoryArtifactRows, htarget] at h
  | some target =>
    by_cases hlive : target.deletedAt = none
    · exact (deleteMemoryArtifactRows_ok hsound htarget hlive h).deletes.sound hsound
    · simp only [deleteMemoryArtifactRows, htarget, if_pos hlive, run_ok_iff, Prod.mk.injEq,
        ne_eq] at h
      obtain ⟨-, -, -, -, -, rfl⟩ := h
      exact hsound

end Sound

section Promotion

variable {store : MemoryStore} {revision : MemoryRevisionRow}

/-- The request that makes a candidate a validated revision. -/
def promotion : TransitionMemoryArtifactMaturity where
  revisionID := id
  source := .declared .candidate
  target := .declared .validated
  reasonKind := .ofText ""
  detailRedacted := ""
  counterexampleEvidenceID := none
  idempotencyKey := "promote"

variable {id : MemoryArtifactRevisionID} {record : SupportingEvidenceRecord}
  {source : MaturityState}

theorem mem_supportingEvidenceRecords_iff :
    record ∈ store.supportingEvidenceRecords id ↔
      ∃ row ∈ store.supportingEvidence.rows, row.revisionID = id ∧
        record = ⟨row.evidenceID, .declared row.source, .declared row.strength⟩ := by
  simp only [supportingEvidenceRecords, mem_map, mem_insertionSort, mem_filter,
    beq_iff_eq, and_assoc, @eq_comm _ record]

theorem validate_of_mem_records (hsound : store.Sound)
    (h : record ∈ store.supportingEvidenceRecords id) : record.validate = .ok () := by
  obtain ⟨row, hrow, -, rfl⟩ := mem_supportingEvidenceRecords_iff.1 h
  have hcheck := store.supportingEvidence.checked row hrow
  simp only [supportingEvidenceSchema, Bool.and_eq_true, Bool.not_eq_true', bne,
    Bool.and_eq_false_iff, beq_eq_false_iff_ne, Bool.not_eq_false', beq_iff_eq] at hcheck
  refine SupportingEvidenceRecord.validate_ok_iff.2 ⟨(hsound.evidence row hrow).1, rfl, rfl, ?_⟩
  rintro ⟨hsource, hstrength⟩
  rcases hcheck.2 with hne | heq
  · exact hne (OpenEnum.declared.inj hsource)
  · exact hstrength (congrArg _ heq)

/-- A change of maturity breaks no constraint of the table. -/
theorem update_setMaturity (store : MemoryStore) (id : MemoryArtifactRevisionID)
    (source target : MaturityState) :
    ∃ revisions, store.revisions.update (setMaturity id source target) = .ok revisions ∧
      revisions.rows = store.revisions.rows.map (setMaturity id source target) := by
  refine Table.update_of_keys (fun row hrow => ?_) fun a b => ?_
  · have hcheck := store.revisions.checked row hrow
    unfold setMaturity
    split_ifs <;> exact hcheck
  · unfold setMaturity
    split_ifs <;> rfl

theorem countP_revision_eq_one (hrevision : revision ∈ store.revisions.rows)
    (hsource : revision.maturity = source) :
    store.revisions.rows.countP (fun row => row.id = revision.id ∧ row.maturity = source) = 1 := by
  rw [countP_eq_length_filter, Table.filter_eq_singleton hrevision
    (decide_eq_true ⟨rfl, hsource⟩) (by simp +contextual [memoryRevisionSchema])]
  rfl

/-- A transition to authority that the table has is authorized by corroborated evidence. -/
theorem authorizeTransition_of_corroborated (hsound : store.Sound)
    {input : TransitionMemoryArtifactMaturity} {target : MaturityState}
    (hsource : input.source = .declared source) (htarget : input.target = .declared target)
    (hgoverned : (source, target) ∈ maturityTransitions)
    (hauthority : target.isAuthorityBearing = true) (hzero : input.revisionID.isZero = false)
    (hcorroborated : store.Corroborated input.revisionID) :
    store.authorizeTransition input = .ok () := by
  obtain ⟨evidence, hevidence, hid, hstrength⟩ := hcorroborated
  have hrecord := mem_supportingEvidenceRecords_iff.2 ⟨evidence, hevidence, hid, rfl⟩
  have hgrant := authorizeMemoryArtifactMaturityGrant_ok_iff.2 ⟨hzero,
    fun record hmem => validate_of_mem_records hsound hmem,
    ⟨_, hrecord, congrArg OpenEnum.declared hstrength⟩, rfl⟩
  have hbearing : isAuthorityBearing input.target = true := by
    rwa [htarget]
  rw [authorizeTransition, if_pos hbearing, hgrant, ok_bind,
    validateMemoryArtifactMaturityTransition_ok_iff]
  refine ⟨source, target, hsource, htarget, hgoverned, fun _ => ?_⟩
  have hnonempty : (store.supportingEvidenceRecords input.revisionID).isEmpty = false :=
    isEmpty_eq_false_iff.2 (ne_nil_of_mem hrecord)
  simp [AuthorityProof.authorizesRevision, AuthorityProof.isAuthorized, hzero, hnonempty]

/-- **Corroborated evidence promotes a candidate**, in any sound store. -/
theorem transitionMemoryArtifactMaturity_promotes (env : Surroundings) (hsound : store.Sound)
    (hrevision : revision ∈ store.revisions.rows) (hcandidate : revision.maturity = .candidate)
    (hcorroborated : store.Corroborated revision.id) :
    ∃ record store', store.transitionMemoryArtifactMaturity env 0 (promotion revision.id) =
        .ok (record, store') ∧
      { revision with maturity := .validated } ∈ store'.revisions.rows := by
  have hzero := (hsound.identified revision hrevision).1
  -- nothing was logged for a candidate, so the key is fresh
  have hunlogged : ∀ row ∈ store.transitions.rows, row.revisionID ≠ revision.id := by
    intro row hrow hid
    obtain ⟨moved, hmoved, heq, hne, -⟩ := hsound.logged row hrow
    rw [eq_of_revision_id hmoved hrevision (heq.trans hid)] at hne
    exact hne hcandidate
  have hfresh : store.findTransitionByIdempotency revision.id "promote" = none := by
    refine find?_eq_none.2 fun row hrow => ?_
    simp [hunlogged row hrow]
  have hauthorized : store.authorizeTransition (promotion revision.id) = .ok () :=
    authorizeTransition_of_corroborated hsound rfl rfl (by decide) rfl hzero hcorroborated
  have hkey : lengthBetween 1 255 "promote" = true := by decide
  have hadmits : store.transitions.Admits
      ⟨revision.id, .candidate, .validated, none, none, none, "promote", 0⟩ :=
    ⟨by simp [maturityTransitionSchema, maturityTransitions, hkey],
      fun row hrow => by simp [maturityTransitionSchema, hunlogged row hrow]⟩
  obtain ⟨transitions, hinsert, -⟩ := Table.insert_of_admits hadmits
  obtain ⟨revisions, hupdate, hrows⟩ := update_setMaturity store revision.id .candidate .validated
  have hcount : store.revisions.rows.countP
      (fun row => row.id = revision.id ∧ row.maturity = .candidate) = 1 :=
    countP_revision_eq_one hrevision hcandidate
  have hearned : ∃ evidence ∈ store.supportingEvidence.rows, evidence.revisionID = revision.id ∧
      evidence.source ≠ .agentSelfReport ∧ evidence.strength = .corroborated := by
    obtain ⟨evidence, hevidence, hid, hstrength⟩ := hcorroborated
    refine ⟨evidence, hevidence, hid, fun hself => ?_, hstrength⟩
    have hcheck := store.supportingEvidence.checked evidence hevidence
    simp [supportingEvidenceSchema, hself, hstrength] at hcheck
  refine ⟨⟨revision.id, .candidate, .validated, none, none, none, "promote", 0⟩,
    { store with transitions, revisions }, ?_, ?_⟩
  · simp only [transitionMemoryArtifactMaturity, checkTransitionRequest, run_ok_iff]
    have hbounded : validateBounded "memory artifact maturity transition idempotency key" "promote"
        255 = .ok () := by decide
    refine ⟨(), ⟨(), hzero, (), hbounded, rfl⟩, ?_⟩
    rw [show store.findTransitionByIdempotency (promotion revision.id).revisionID
      (promotion revision.id).idempotencyKey = none from hfresh]
    simp only [bind_ok_iff]
    refine ⟨(), rfl, (), hauthorized, ?_⟩
    simp only [promotion]
    simp only [applyTransition, logTransition, run_ok_iff, repositoryWriteError_ok_iff]
    exact ⟨(none, none), if_pos (OpenEnum.toText_ofText ""), transitions,
      ⟨(), ⟨revision, hrevision, rfl, hcandidate⟩, (), fun _ => hearned, hinsert⟩, revisions,
      hupdate, (), hcount, rfl⟩
  · show _ ∈ revisions.rows
    rw [hrows]
    refine mem_map.2 ⟨revision, hrevision, ?_⟩
    exact if_pos ⟨rfl, hcandidate⟩

end Promotion

/-! ### The stores that the operations build -/

/-- An operation on project memory, with the time at which it runs. -/
inductive MemoryOperation
  | create (now : Int) (input : CreateMemoryArtifact)
  | correct (now : Int) (input : CreateMemoryArtifactCorrection)
  | transition (now : Int) (input : TransitionMemoryArtifactMaturity)
  | support (now : Int) (revisionID : MemoryArtifactRevisionID) (record : SupportingEvidenceRecord)
  | deriveFrom (now : Int) (artifactID ancestorID : MemoryArtifactID)
  | influence (now : Int) (artifactID ancestorID : MemoryArtifactID)
  | supportEpisode (now : Int) (artifactID : MemoryArtifactID) (episodeID : EpisodeID)
  | delete (now : Int) (order : MapOrder) (input : DeleteMemoryArtifact)

/-- Run one operation. -/
def MemoryOperation.apply (env : Surroundings) (store : MemoryStore) :
    MemoryOperation → Result MemoryStore
  | .create now input => Prod.snd <$> store.createMemoryArtifact env now input
  | .correct now input => Prod.snd <$> store.createMemoryArtifactCorrection env now input
  | .transition now input => Prod.snd <$> store.transitionMemoryArtifactMaturity env now input
  | .support now revisionID record =>
    store.recordMemoryArtifactSupportingEvidence env now revisionID record
  | .deriveFrom now artifactID ancestorID =>
    recordMemoryArtifactDerivedFrom artifactID ancestorID now store
  | .influence now artifactID ancestorID =>
    recordMemoryArtifactInfluencedBy artifactID ancestorID now store
  | .supportEpisode now artifactID episodeID =>
    recordMemoryArtifactSupportingEpisode env.episodeProject artifactID episodeID now store
  | .delete now order input => Prod.snd <$> store.deleteMemoryArtifactRows order input now

theorem MemoryOperation.apply_sound {env : Surroundings} {store store' : MemoryStore}
    {operation : MemoryOperation} (hsound : store.Sound)
    (h : operation.apply env store = .ok store') : store'.Sound := by
  cases operation with
  | create now input =>
    obtain ⟨⟨written, _⟩, hrun, rfl⟩ := map_ok_iff.1 h
    exact createMemoryArtifact_sound hsound hrun
  | correct now input =>
    obtain ⟨⟨written, _⟩, hrun, rfl⟩ := map_ok_iff.1 h
    rcases createMemoryArtifactCorrection_ok hrun with
      rfl | ⟨prior, -, -, hid, hartifact, _, _, hadds⟩
    · exact hsound
    · exact hadds.sound hsound hid hartifact
  | transition now input =>
    obtain ⟨⟨record, _⟩, hrun, rfl⟩ := map_ok_iff.1 h
    rcases transitionMemoryArtifactMaturity_ok hrun with ⟨rfl, -⟩ | ⟨_, _, -, -, hmoves⟩
    · exact hsound
    · exact hmoves.sound hsound
  | support now revisionID record => exact recordMemoryArtifactSupportingEvidence_sound hsound h
  | deriveFrom now artifactID ancestorID => exact recordMemoryArtifactDerivedFrom_sound hsound h
  | influence now artifactID ancestorID => exact recordMemoryArtifactInfluencedBy_sound hsound h
  | supportEpisode now artifactID episodeID =>
    exact recordMemoryArtifactSupportingEpisode_sound hsound h
  | delete now order input =>
    obtain ⟨⟨outcome, _⟩, hrun, rfl⟩ := map_ok_iff.1 h
    exact deleteMemoryArtifactRows_sound hsound hrun

/-- The stores that operations build from the empty one. -/
def MemoryReachable (env : Surroundings) : MemoryStore → Prop :=
  Reachable (· = empty) fun store store' =>
    ∃ operation : MemoryOperation, operation.apply env store = .ok store'

/-- **The operations build sound stores only.** -/
theorem MemoryReachable.sound {env : Surroundings} {store : MemoryStore}
    (h : MemoryReachable env store) : store.Sound :=
  h.invariant (fun _ hempty => hempty ▸ empty_sound) fun _ _ hsound ⟨_, happly⟩ =>
    MemoryOperation.apply_sound hsound happly

end MemoryStore

end Codeflux.Storage
