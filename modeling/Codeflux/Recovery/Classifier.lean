import Codeflux.Checkpoint.Schema
import Mathlib.Data.List.Destutter

/-!
# Classification of interrupted runs

After a restart a durable checkpoint is compared with what is observed. Some findings are a
fundamental loss, after which only a preserved patch can help; others require the run to be
reconciled; others only inform. The class of the run is decided by the kinds of findings there are.
-/

namespace Codeflux.Recovery

open Library Go Domain Checkpoint

/-- The safety class of an interrupted run, from the least permissive one on. -/
inductive RecoveryClassification
  | unrecoverable | patchPreservationOnly | reconcileRequired | safeResume
deriving DecidableEq

/-- The place of a class in the order of permissiveness. -/
def RecoveryClassification.rank : RecoveryClassification → Nat
  | .unrecoverable => 0
  | .patchPreservationOnly => 1
  | .reconcileRequired => 2
  | .safeResume => 3

/-- What an observation can differ in. The codes of a checkpoint that is missing or corrupt belong
to its caller and are left out. -/
inductive RecoveryFindingCode
  | repositoryPathChanged | repositoryIdentityChanged
  | baseRevisionUnavailable | worktreeMissing | worktreeOwnershipChanged | worktreeBindingChanged
  | worktreeHeadChanged | dirtyFileConflict | nonOverlappingUserEdit | diffIdentityChanged
  | gitOperationUnresolved | policyChanged | providerChanged | toolConfigurationChanged
  | ambiguousExternalAction | eventJournalBehind | eventsAfterCheckpoint
deriving DecidableEq

/-- One exact reason that affects the safety of a resume. -/
structure RecoveryFinding where
  code : RecoveryFindingCode
  detail : String
  paths : List Bytes := []

/-- A read-only view of the repository, the worktree, the configuration and the journal. -/
structure RecoveryObservation where
  (repositoryPathMatches repositoryIdentityMatches baseRevisionAvailable worktreeExists
    worktreeOwned : Bool)
  worktreeBindingRevision : UInt64
  worktreeHead : Bytes
  dirtyFiles : List DirtyFileHash
  diffSHA256 : Bytes
  gitOperationStates : List Bytes
  (policyCompatible providerCompatible toolsCompatible : Bool)
  durableEventSequence : UInt64
  completedActionIDs : List Bytes
  ambiguousExternalActions : List AmbiguousExternalAction
  patchAvailable : Bool
  (patchLocator patchExportPath : Bytes)

/-- An observation with the checkpoint that it is compared with. -/
structure RecoveryClassificationInput where
  checkpointID : CheckpointID
  checkpointEventSequence : UInt64
  checkpoint : Snapshot
  observation : RecoveryObservation

/-- The result of the classification. -/
structure RecoveryAssessment where
  checkpointID : Option CheckpointID
  taskID : TaskID
  runID : RunID
  classification : RecoveryClassification
  findings : List RecoveryFinding
  nonOverlappingUserEditPaths : List Bytes := []
  actionsThatMustNotBeRepeated : List Bytes := []
  patchAvailable : Bool := false
  patchLocator : Bytes := []
  patchExportPath : Bytes := []

/-- `slices.Sort` on texts. -/
def sortTexts (texts : List Bytes) : List Bytes := sortOn latin texts

/-- `slices.Compact`: of equal neighbours the first one stays. -/
def compactTexts (texts : List Bytes) : List Bytes := texts.destutter (· ≠ ·)

/-! ### Comparisons -/

/-- The entry of a path in the map of a list of files: the last one of the list. -/
def fileByPath (files : List DirtyFileHash) (path : Bytes) : Option DirtyFileHash :=
  files.reverse.find? fun file => file.path = path

/-- The keys of that map. -/
def filePaths (files : List DirtyFileHash) : List Bytes := (files.map (·.path)).dedup

/-- Has the entry of a recorded path changed, or is it gone? -/
def isConflict (recorded observed : List DirtyFileHash) (path : Bytes) : Bool :=
  match fileByPath recorded path, fileByPath observed path with
  | some want, some got => got.fileExists ≠ want.fileExists || got.sha256 ≠ want.sha256
  | some _, none => true
  | none, _ => false

/-- The recorded paths whose content changed, and the observed paths that were not recorded. -/
def compareCheckpointDirtyFiles (recorded observed : List DirtyFileHash) :
    List Bytes × List Bytes :=
  (sortTexts ((filePaths recorded).filter (isConflict recorded observed)),
    sortTexts ((filePaths observed).filter fun path => (fileByPath recorded path).isNone))

/-- The actions of both lists, one for each identifier: that of the later list, if it has one. -/
def mergeAmbiguousRecoveryActions
    (checkpointActions currentActions : List AmbiguousExternalAction) :
    List AmbiguousExternalAction :=
  let entries := checkpointActions ++ currentActions
  sortOn (latin ·.actionID) ((entries.map (·.actionID)).dedup.filterMap fun id =>
    entries.reverse.find? fun action => action.actionID = id)

/-- The sequence of the checkpoint's event. -/
def recoveryCheckpointEventSequence (persisted snapshot : UInt64) : UInt64 :=
  if persisted = 0 then snapshot else persisted

/-- A finding, and whether it requires the run to be reconciled. -/
structure Noted where
  finding : RecoveryFinding
  reconcile : Bool := true

/-- A finding that is noted when a condition holds. -/
def noteWhen (condition : Bool) (noted : Noted) : List Noted := if condition then [noted] else []

/-- Do the findings require the run to be reconciled? -/
def anyReconcile (noted : List Noted) : Bool := noted.any (·.reconcile)

variable (observation : RecoveryObservation)

/-- The findings of a fundamental loss. -/
def fundamentalRecoveryFindings : List RecoveryFinding :=
  (if observation.repositoryPathMatches then [] else [
    { code := .repositoryPathChanged
      detail := "the durable repository path no longer resolves to the observed repository" }]) ++
  (if observation.repositoryIdentityMatches then [] else [
    { code := .repositoryIdentityChanged
      detail := "the repository Git identity differs from the durable repository identity" }]) ++
  (if observation.baseRevisionAvailable then [] else [
    { code := .baseRevisionUnavailable
      detail := "the checkpoint base revision is not available in the observed repository" }]) ++
  (if !observation.worktreeExists then [
    { code := .worktreeMissing, detail := "the task worktree is missing or inaccessible" }]
  else if !observation.worktreeOwned then [
    { code := .worktreeOwnershipChanged
      detail := "the task worktree is not owned by the checkpoint task binding" }]
  else [])

/-- Findings about the worktree. -/
def worktreeRecoveryFindings (snapshot : Snapshot) (observation : RecoveryObservation) :
    List Noted :=
  let (conflicts, additions) :=
    compareCheckpointDirtyFiles snapshot.dirtyFiles observation.dirtyFiles
  noteWhen (observation.worktreeBindingRevision ≠ snapshot.worktreeBindingRevision)
    { finding :=
        { code := .worktreeBindingChanged
          detail := "worktree binding revision is " ++
            toString observation.worktreeBindingRevision ++ "; checkpoint recorded " ++
            toString snapshot.worktreeBindingRevision } } ++
  noteWhen (observation.worktreeHead ≠ snapshot.worktreeHead)
    { finding :=
        { code := .worktreeHeadChanged
          detail := "worktree HEAD differs from the checkpoint worktree HEAD" } } ++
  noteWhen (conflicts ≠ [])
    { finding :=
        { code := .dirtyFileConflict
          detail := "checkpointed file content was changed, removed, or replaced"
          paths := conflicts } } ++
  noteWhen (additions ≠ [])
    { finding :=
        { code := .nonOverlappingUserEdit
          detail := "user edits outside the checkpointed path set are present and must remain " ++
            "visible during resume"
          paths := additions }
      reconcile := false } ++
  noteWhen (observation.diffSHA256 ≠ snapshot.diffSHA256 && conflicts.isEmpty && additions.isEmpty)
    { finding :=
        { code := .diffIdentityChanged
          detail := "the worktree diff identity changed without a file-content explanation" } } ++
  noteWhen (observation.gitOperationStates ≠ [])
    { finding :=
        { code := .gitOperationUnresolved
          detail := "an unresolved Git operation prevents automatic resume"
          paths := observation.gitOperationStates } }

/-- Findings about the configuration. -/
def compatibilityRecoveryFindings : List Noted :=
  noteWhen (!observation.policyCompatible)
    { finding :=
        { code := .policyChanged
          detail := "the effective execution policy is not checkpoint-compatible" } } ++
  noteWhen (!observation.providerCompatible)
    { finding :=
        { code := .providerChanged
          detail := "the provider or model configuration is not compatible with the " ++
            "checkpointed run" } } ++
  noteWhen (!observation.toolsCompatible)
    { finding :=
        { code := .toolConfigurationChanged
          detail := "the tool schema or catalog is not checkpoint-compatible" } }

/-- Findings about the journal. -/
def eventRecoveryFindings (checkpointSequence currentSequence : UInt64) : List Noted :=
  if currentSequence < checkpointSequence then
    [{ finding :=
        { code := .eventJournalBehind
          detail := "durable event sequence is " ++ toString currentSequence ++
            "; checkpoint recorded " ++ toString checkpointSequence } }]
  else if checkpointSequence < currentSequence then
    [{ finding :=
        { code := .eventsAfterCheckpoint
          detail := toString (currentSequence - checkpointSequence) ++
            " durable event(s) occurred after the checkpoint and must be replayed before resume" }
       reconcile := false }]
  else []

/-- Findings about external actions. -/
def ambiguousRecoveryFindings (actions : List AmbiguousExternalAction) : List Noted :=
  noteWhen (actions ≠ [])
    { finding :=
        { code := .ambiguousExternalAction
          detail := "one or more external actions have an ambiguous outcome and must be " ++
            "reconciled rather than repeated"
          paths := sortTexts (actions.map (·.actionID)) } }

/-! ### Checks of an observation -/

/-- The loop over the sorted identifiers of completed actions. -/
def checkCompletedActions : Bytes → List Bytes → Result Unit
  | _, [] => .ok ()
  | previous, actionID :: rest => do
    ensure (¬(isBlank actionID ∨ 255 < actionID.length ∨ actionID = previous))
      (.new "completed recovery action IDs are invalid")
    checkCompletedActions actionID rest

/-- The snapshot with what was observed of the external actions. -/
def actionsProbe (snapshot : Snapshot) (value : RecoveryObservation) : Snapshot :=
  { snapshot with
    ambiguousExternalActions := value.ambiguousExternalActions
    externalOutcomeAmbiguous := !value.ambiguousExternalActions.isEmpty }

/-- The snapshot with what was observed of the worktree. -/
def worktreeProbe (snapshot : Snapshot) (value : RecoveryObservation) : Snapshot :=
  { snapshot with
    worktreeBindingRevision := value.worktreeBindingRevision
    worktreeHead := value.worktreeHead
    dirtyFiles := value.dirtyFiles
    diffSHA256 := value.diffSHA256 }

section Classify

variable (host : Host)

/-- Check the observed actions. -/
def validateRecoveryActionObservations (snapshot : Snapshot) (value : RecoveryObservation) :
    Result Unit := do
  checkCompletedActions [] (sortTexts value.completedActionIDs)
  let _ ← (canonicalize host (actionsProbe snapshot value)).mapError
    (.wrap "validate ambiguous recovery actions")
  return ()

/-- Check an observation. -/
def validateRecoveryObservation (snapshot : Snapshot) (value : RecoveryObservation) :
    Result Unit := do
  ensure (¬(value.patchAvailable ∧ isBlank value.patchLocator ∧ isBlank value.patchExportPath))
    (.new "available recovery patch requires a locator or export path")
  ensure (¬(value.patchAvailable = false ∧
      (value.patchLocator ≠ [] ∨ value.patchExportPath ≠ [])))
    (.new "unavailable recovery patch cannot have a locator or export path")
  ensure (¬(value.worktreeExists ∧ value.worktreeBindingRevision = 0))
    (.new "existing recovery worktree requires a binding revision")
  ensure (¬(value.worktreeExists ∧ value.worktreeHead = []))
    (.new "existing recovery worktree requires a HEAD revision")
  ensure (¬(value.worktreeExists ∧ value.diffSHA256 = []))
    (.new "existing recovery worktree requires a diff identity")
  if value.worktreeExists then
    let _ ← (canonicalize host (worktreeProbe snapshot value)).mapError
      (.wrap "validate observed recovery worktree")
  validateRecoveryActionObservations host snapshot value

/-- The observation with sorted texts. -/
def cloneRecoveryObservation (value : RecoveryObservation) : RecoveryObservation :=
  { value with
    gitOperationStates := compactTexts (sortTexts value.gitOperationStates)
    completedActionIDs := sortTexts value.completedActionIDs }

/-- The actions that must not be repeated: those that are complete and, if there are any, those
whose outcome is not known. -/
def replayGate (completed : List Bytes) (ambiguous : List AmbiguousExternalAction) : List Bytes :=
  let done := compactTexts (sortTexts completed)
  if ambiguous = [] then done
  else compactTexts (sortTexts (done ++ sortTexts (ambiguous.map (·.actionID))))

/-- The assessment of a checked observation. -/
def assessRecovery (input : RecoveryClassificationInput) (snapshot : Snapshot)
    (observation : RecoveryObservation) : RecoveryAssessment :=
  let ambiguous := mergeAmbiguousRecoveryActions snapshot.ambiguousExternalActions
    observation.ambiguousExternalActions
  let assessment : RecoveryAssessment :=
    { checkpointID := some input.checkpointID
      taskID := snapshot.taskID
      runID := snapshot.runID
      classification := .unrecoverable
      findings := fundamentalRecoveryFindings observation
      actionsThatMustNotBeRepeated := replayGate observation.completedActionIDs ambiguous
      patchAvailable := observation.patchAvailable
      patchLocator := observation.patchLocator
      patchExportPath := observation.patchExportPath }
  if assessment.findings ≠ [] then
    { assessment with
      classification :=
        if observation.patchAvailable then .patchPreservationOnly else .unrecoverable
      findings := assessment.findings ++ (ambiguousRecoveryFindings ambiguous).map (·.finding) }
  else
    let noted := worktreeRecoveryFindings snapshot observation ++
      compatibilityRecoveryFindings observation ++
      eventRecoveryFindings (recoveryCheckpointEventSequence input.checkpointEventSequence
        snapshot.lastDurableEventSequence) observation.durableEventSequence ++
      ambiguousRecoveryFindings ambiguous
    { assessment with
      classification :=
        if noted.any (·.finding.code = .eventJournalBehind) then .unrecoverable
        else if anyReconcile noted then .reconcileRequired
        else .safeResume
      findings := noted.map (·.finding)
      nonOverlappingUserEditPaths :=
        (compareCheckpointDirtyFiles snapshot.dirtyFiles observation.dirtyFiles).2 }

/-- Classify an interrupted run. -/
def classifyCheckpointRecovery (input : RecoveryClassificationInput) :
    Result RecoveryAssessment := do
  ensure (input.checkpointID.isZero = false) (.new "recovery checkpoint ID is required")
  let canonical ← (canonicalize host input.checkpoint).mapError
    (.wrap "validate recovery checkpoint")
  ensure (input.checkpointEventSequence = 0 ∨
      input.checkpointEventSequence = canonical.snapshot.lastDurableEventSequence + 1)
    (.new "recovery checkpoint event sequence is inconsistent")
  let observation := cloneRecoveryObservation input.observation
  validateRecoveryObservation host canonical.snapshot observation
  return assessRecovery input canonical.snapshot observation

end Classify

/-! ### What is accepted -/

section Accepted

variable {host : Host} {input : RecoveryClassificationInput} {snapshot : Snapshot}
  {value : RecoveryObservation} {u : Unit}

/-- An accepted observation. -/
structure ObservationValid (host : Host) (snapshot : Snapshot) (value : RecoveryObservation) :
    Prop where
  located : ¬(value.patchAvailable ∧ isBlank value.patchLocator ∧ isBlank value.patchExportPath)
  unlocated : ¬(value.patchAvailable = false ∧
    (value.patchLocator ≠ [] ∨ value.patchExportPath ≠ []))
  revision : value.worktreeExists = true → value.worktreeBindingRevision ≠ 0
  head : value.worktreeExists = true → value.worktreeHead ≠ []
  diff : value.worktreeExists = true → value.diffSHA256 ≠ []
  worktree : value.worktreeExists = true →
    ∃ state, canonicalize host (worktreeProbe snapshot value) = .ok state
  completed : checkCompletedActions [] (sortTexts value.completedActionIDs) = .ok ()
  actions : ∃ state, canonicalize host (actionsProbe snapshot value) = .ok state

theorem validateRecoveryActionObservations_ok_iff :
    validateRecoveryActionObservations host snapshot value = .ok u ↔
      checkCompletedActions [] (sortTexts value.completedActionIDs) = .ok () ∧
      ∃ state, canonicalize host (actionsProbe snapshot value) = .ok state := by
  simp only [validateRecoveryActionObservations, run_ok_iff, mapError_ok_iff, and_true]
  exact Unique.exists_iff

theorem validateRecoveryObservation_ok_iff :
    validateRecoveryObservation host snapshot value = .ok u ↔
      ObservationValid host snapshot value := by
  cases hexists : value.worktreeExists with
  | true =>
    simp only [validateRecoveryObservation, hexists, if_true, run_ok_iff, exists_const,
      mapError_ok_iff, validateRecoveryActionObservations_ok_iff, true_and]
    constructor
    · rintro ⟨hlocated, hunlocated, hrevision, hhead, hdiff, state, hworktree, hcompleted,
        hactions⟩
      exact ⟨hlocated, hunlocated, fun _ => hrevision, fun _ => hhead, fun _ => hdiff,
        fun _ => ⟨state, hworktree⟩, hcompleted, hactions⟩
    · rintro h
      obtain ⟨state, hworktree⟩ := h.worktree hexists
      exact ⟨h.located, h.unlocated, h.revision hexists, h.head hexists, h.diff hexists, state,
        hworktree, h.completed, h.actions⟩
  | false =>
    simp only [validateRecoveryObservation, hexists, Bool.false_eq_true, if_false, run_ok_iff,
      exists_const, validateRecoveryActionObservations_ok_iff, false_and, not_false_eq_true,
      true_and]
    constructor
    · rintro ⟨hlocated, hunlocated, hcompleted, hactions⟩
      refine ⟨hlocated, hunlocated, ?_, ?_, ?_, ?_, hcompleted, hactions⟩
      all_goals exact fun h => absurd (hexists.symm.trans h) Bool.false_ne_true
    · rintro h
      exact ⟨h.located, h.unlocated, h.completed, h.actions⟩

/-- An accepted input. -/
structure InputValid (host : Host) (input : RecoveryClassificationInput) : Prop where
  identity : input.checkpointID.isZero = false
  checkpoint : ∃ state, canonicalize host input.checkpoint = .ok state
  sequence : input.checkpointEventSequence = 0 ∨
    input.checkpointEventSequence = input.checkpoint.lastDurableEventSequence + 1
  observation : ObservationValid host input.checkpoint.normalized
    (cloneRecoveryObservation input.observation)

/-- **The accepted inputs**, and the assessment of each. -/
theorem classifyCheckpointRecovery_ok_iff {assessment : RecoveryAssessment} :
    classifyCheckpointRecovery host input = .ok assessment ↔
      InputValid host input ∧ assessRecovery input input.checkpoint.normalized
        (cloneRecoveryObservation input.observation) = assessment := by
  have hsnapshot : ∀ {state}, canonicalize host input.checkpoint = .ok state →
      state.snapshot = input.checkpoint.normalized := fun h => by
    obtain ⟨-, _, -, rfl⟩ := canonicalize_ok_iff.1 h
    rfl
  simp only [classifyCheckpointRecovery, run_ok_iff, exists_const, mapError_ok_iff,
    validateRecoveryObservation_ok_iff]
  constructor
  · rintro ⟨hid, state, hstate, hsequence, hobservation, hassessment⟩
    rw [hsnapshot hstate] at hsequence hobservation hassessment
    exact ⟨⟨hid, ⟨state, hstate⟩, hsequence, hobservation⟩, hassessment⟩
  · rintro ⟨⟨hid, ⟨state, hstate⟩, hsequence, hobservation⟩, hassessment⟩
    refine ⟨hid, state, hstate, ?_⟩
    rw [hsnapshot hstate]
    exact ⟨hsequence, hobservation, hassessment⟩

end Accepted

/-- A host that encodes every snapshot. -/
def plainHost : Host where
  digest _ := zeroSHA256
  jsonValid _ := true
  marshal value := .ok value.encoded
  unmarshalVersion _ := none
  unmarshal _ := none

/-- The state of the sample checkpoint, with a patch. -/
def sampleObservation : RecoveryObservation where
  repositoryPathMatches := true
  repositoryIdentityMatches := true
  baseRevisionAvailable := true
  worktreeExists := true
  worktreeOwned := true
  worktreeBindingRevision := 1
  worktreeHead := zeroRevision
  dirtyFiles := []
  diffSHA256 := zeroSHA256
  gitOperationStates := []
  policyCompatible := true
  providerCompatible := true
  toolsCompatible := true
  durableEventSequence := 5
  completedActionIDs := []
  ambiguousExternalActions := []
  patchAvailable := true
  patchLocator := bytes "refs/patch"
  patchExportPath := []

/-- A run without divergence. -/
def sampleInput : RecoveryClassificationInput where
  checkpointID := ⟨"ckp_0190a5b0-0000-7000-8000-000000000065", .inr (by decide)⟩
  checkpointEventSequence := 5
  checkpoint := sampleSnapshot []
  observation

/-- The class of an observation of the sample checkpoint. -/
def sampleClass : Option RecoveryClassification :=
  match classifyCheckpointRecovery plainHost (sampleInput observation) with
  | .ok assessment => some assessment.classification
  | .error _ => none

end Codeflux.Recovery
