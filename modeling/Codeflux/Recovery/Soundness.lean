import Codeflux.Recovery.Classifier

/-!
# Soundness and monotonicity of the recovery classification

A worse observation should not lead to a more permissive class. It does in two ways. A journal
behind the checkpoint makes a run unrecoverable, but a fundamental loss on top of that is classified
by the preserved patch alone. And a diff identity that changed without an explanation requires the
run to be reconciled, but one more dirty file counts as the explanation.
-/

namespace Codeflux.Recovery

open Library Go Domain Checkpoint List

/-- The repository and the worktree are those of the checkpoint. -/
structure RepositoryMatches (o : RecoveryObservation) : Prop where
  path : o.repositoryPathMatches = true
  identity : o.repositoryIdentityMatches = true
  base : o.baseRevisionAvailable = true
  worktree : o.worktreeExists = true
  owned : o.worktreeOwned = true

/-- A dirty file is observed that the checkpoint does not record. -/
def HasUnrecorded (snapshot : Snapshot) (o : RecoveryObservation) : Prop :=
  ∃ file ∈ o.dirtyFiles, file.path ∉ snapshot.dirtyFiles.map (·.path)

/-- The sequence that the journal is compared with. -/
def RecoveryClassificationInput.sequence (input : RecoveryClassificationInput) : UInt64 :=
  recoveryCheckpointEventSequence input.checkpointEventSequence
    input.checkpoint.lastDurableEventSequence

/-- The journal ends before the event of the checkpoint. -/
def JournalBehind (sequence : UInt64) (o : RecoveryObservation) : Prop :=
  o.durableEventSequence < sequence

/-- **The facts that make a resume safe.** -/
structure Resumable (sequence : UInt64) (snapshot : Snapshot) (o : RecoveryObservation) : Prop where
  repository : RepositoryMatches o
  binding : o.worktreeBindingRevision = snapshot.worktreeBindingRevision
  head : o.worktreeHead = snapshot.worktreeHead
  files : ∀ file ∈ snapshot.dirtyFiles, file ∈ o.dirtyFiles
  diff : o.diffSHA256 = snapshot.diffSHA256 ∨ HasUnrecorded snapshot o
  gitOperations : o.gitOperationStates = []
  policy : o.policyCompatible = true
  provider : o.providerCompatible = true
  tools : o.toolsCompatible = true
  recordedActions : snapshot.ambiguousExternalActions = []
  observedActions : o.ambiguousExternalActions = []
  journal : ¬JournalBehind sequence o

/-- **A worse observation.** Matches and compatibilities are only lost, HEAD, the binding revision,
the diff identity and recorded files only move away from the checkpoint, dirty files, git operations
and ambiguous actions only come in addition, and the journal only moves back. -/
structure Worse (snapshot : Snapshot) (o o' : RecoveryObservation) : Prop where
  path : o'.repositoryPathMatches = true → o.repositoryPathMatches = true
  identity : o'.repositoryIdentityMatches = true → o.repositoryIdentityMatches = true
  base : o'.baseRevisionAvailable = true → o.baseRevisionAvailable = true
  worktree : o'.worktreeExists = true → o.worktreeExists = true
  owned : o'.worktreeOwned = true → o.worktreeOwned = true
  policy : o'.policyCompatible = true → o.policyCompatible = true
  provider : o'.providerCompatible = true → o.providerCompatible = true
  tools : o'.toolsCompatible = true → o.toolsCompatible = true
  binding : o'.worktreeBindingRevision = o.worktreeBindingRevision ∨
    o'.worktreeBindingRevision ≠ snapshot.worktreeBindingRevision
  head : o'.worktreeHead = o.worktreeHead ∨ o'.worktreeHead ≠ snapshot.worktreeHead
  recorded : ∀ file ∈ snapshot.dirtyFiles, file ∈ o'.dirtyFiles → file ∈ o.dirtyFiles
  added : ∀ file ∈ o.dirtyFiles, file.path ∉ snapshot.dirtyFiles.map (·.path) →
    file.path ∈ o'.dirtyFiles.map (·.path)
  diff : o'.diffSHA256 = o.diffSHA256 ∨ o'.diffSHA256 ≠ snapshot.diffSHA256
  gitOperations : ∀ operation ∈ o.gitOperationStates, operation ∈ o'.gitOperationStates
  actions : ∀ action ∈ o.ambiguousExternalActions,
    action.actionID ∈ o'.ambiguousExternalActions.map (·.actionID)
  journal : o'.durableEventSequence ≤ o.durableEventSequence
  patch : o'.patchAvailable = o.patchAvailable

/-! ### Comparisons of files and actions -/

section Compare

variable {files recorded observed : List DirtyFileHash} {path : Bytes}

theorem fileByPath_isNone_iff :
    (fileByPath files path).isNone = true ↔ path ∉ files.map (·.path) := by
  rw [Option.isNone_iff_eq_none, fileByPath, find?_eq_none]
  simp

theorem fileByPath_eq_some_iff (hdistinct : (files.map (·.path)).Nodup) {file : DirtyFileHash} :
    fileByPath files path = some file ↔ file ∈ files ∧ file.path = path := by
  constructor
  · intro h
    exact ⟨mem_reverse.1 (mem_of_find?_eq_some h), by simpa using find?_some h⟩
  · rintro ⟨hfile, rfl⟩
    cases hfound : fileByPath files file.path with
    | none =>
      have hnone := fileByPath_isNone_iff.1 (Option.isNone_iff_eq_none.2 hfound)
      exact absurd (mem_map_of_mem hfile) hnone
    | some found =>
      have hmem := mem_reverse.1 (mem_of_find?_eq_some hfound)
      have hpath : found.path = file.path := by simpa using find?_some hfound
      rw [inj_on_of_nodup_map hdistinct hmem hfile hpath]

theorem sortTexts_eq_nil_iff {texts : List Bytes} : sortTexts texts = [] ↔ texts = [] := by
  rw [← length_eq_zero_iff, sortTexts, length_sortOn, length_eq_zero_iff]

theorem conflicts_eq_nil_iff (hrecorded : (recorded.map (·.path)).Nodup)
    (hobserved : (observed.map (·.path)).Nodup) :
    (compareCheckpointDirtyFiles recorded observed).1 = [] ↔
      ∀ file ∈ recorded, file ∈ observed := by
  have hconflict (want) (hwant : want ∈ recorded) :
      isConflict recorded observed want.path = false ↔ want ∈ observed := by
    rw [isConflict, (fileByPath_eq_some_iff hrecorded).2 ⟨hwant, rfl⟩]
    cases hfound : fileByPath observed want.path with
    | none =>
      have hnone := fileByPath_isNone_iff.1 (Option.isNone_iff_eq_none.2 hfound)
      exact iff_of_false Bool.noConfusion fun hmem => hnone (mem_map_of_mem hmem)
    | some got =>
      obtain ⟨hgot, hpath⟩ := (fileByPath_eq_some_iff hobserved).1 hfound
      simp only [Bool.or_eq_false_iff, decide_eq_false_iff_not, not_not]
      constructor
      · rintro ⟨hexists, hsha⟩
        have heq : got = want := by
          cases got
          cases want
          simp_all
        exact heq ▸ hgot
      · intro hmem
        rw [inj_on_of_nodup_map hobserved hgot hmem hpath]
        exact ⟨rfl, rfl⟩
  rw [compareCheckpointDirtyFiles, sortTexts_eq_nil_iff, filter_eq_nil_iff]
  simp only [filePaths, mem_dedup, forall_mem_map, Bool.not_eq_true]
  exact forall₂_congr hconflict

theorem additions_eq_nil_iff :
    (compareCheckpointDirtyFiles recorded observed).2 = [] ↔
      ∀ file ∈ observed, file.path ∈ recorded.map (·.path) := by
  rw [compareCheckpointDirtyFiles, sortTexts_eq_nil_iff, filter_eq_nil_iff]
  simp only [filePaths, mem_dedup, forall_mem_map, fileByPath_isNone_iff, not_not]

theorem mergeAmbiguousRecoveryActions_eq_nil_iff {first second : List AmbiguousExternalAction} :
    mergeAmbiguousRecoveryActions first second = [] ↔ first = [] ∧ second = [] := by
  constructor
  · intro h
    by_contra hsome
    rw [← append_eq_nil_iff] at hsome
    obtain ⟨action, haction⟩ := exists_mem_of_ne_nil _ hsome
    rw [mergeAmbiguousRecoveryActions, ← length_eq_zero_iff, length_sortOn,
      length_eq_zero_iff, filterMap_eq_nil_iff] at h
    have hnone := h action.actionID (mem_dedup.2 (mem_map_of_mem haction))
    rw [find?_eq_none] at hnone
    exact hnone action (mem_reverse.2 haction) (decide_eq_true rfl)
  · rintro ⟨rfl, rfl⟩
    rfl

end Compare

/-! ### The class of an observation -/

section Class

variable {input : RecoveryClassificationInput} {snapshot : Snapshot} {o : RecoveryObservation}

@[simp] theorem noteWhen_any (condition : Bool) (noted : Noted) (p : Noted → Bool) :
    (noteWhen condition noted).any p = (condition && p noted) := by
  cases condition <;> simp [noteWhen]

theorem fundamentalRecoveryFindings_eq_nil_iff :
    fundamentalRecoveryFindings o = [] ↔ RepositoryMatches o := by
  rw [fundamentalRecoveryFindings]
  constructor
  · intro h
    simp only [append_eq_nil_iff, ite_eq_left_iff, cons_ne_nil, imp_false,
      Bool.not_eq_true, Bool.not_eq_false] at h
    obtain ⟨⟨⟨hpath, hidentity⟩, hbase⟩, hworktree⟩ := h
    cases hexists : o.worktreeExists <;> cases howned : o.worktreeOwned <;>
      simp [hexists, howned] at hworktree
    exact ⟨hpath, hidentity, hbase, hexists, howned⟩
  · rintro ⟨hpath, hidentity, hbase, hexists, howned⟩
    simp [hpath, hidentity, hbase, hexists, howned]

theorem compactTexts_eq_nil_iff {texts : List Bytes} : compactTexts texts = [] ↔ texts = [] := by
  cases texts with
  | nil => exact iff_of_true rfl rfl
  | cons text texts => simp [compactTexts, List.destutter, List.destutter'_ne_nil]

/-- The findings after the fundamental ones. -/
def laterFindings (input : RecoveryClassificationInput) (snapshot : Snapshot)
    (o : RecoveryObservation) : List Noted :=
  worktreeRecoveryFindings snapshot o ++ compatibilityRecoveryFindings o ++
    eventRecoveryFindings (recoveryCheckpointEventSequence input.checkpointEventSequence
      snapshot.lastDurableEventSequence) o.durableEventSequence ++
    ambiguousRecoveryFindings (mergeAmbiguousRecoveryActions snapshot.ambiguousExternalActions
      o.ambiguousExternalActions)

theorem assessRecovery_classification :
    (assessRecovery input snapshot o).classification =
      if fundamentalRecoveryFindings o ≠ [] then
        if o.patchAvailable then .patchPreservationOnly else .unrecoverable
      else if (laterFindings input snapshot o).any (·.finding.code = .eventJournalBehind) then
        .unrecoverable
      else if anyReconcile (laterFindings input snapshot o) then .reconcileRequired
      else .safeResume := by
  simp only [assessRecovery]
  split <;> rfl

/-- Only the comparison of the sequences says that the journal is behind. -/
theorem laterFindings_any_behind :
    (laterFindings input snapshot o).any (·.finding.code = .eventJournalBehind) = true ↔
      o.durableEventSequence < recoveryCheckpointEventSequence input.checkpointEventSequence
        snapshot.lastDurableEventSequence := by
  simp only [laterFindings, worktreeRecoveryFindings, compatibilityRecoveryFindings,
    ambiguousRecoveryFindings, any_append, noteWhen_any, reduceCtorEq, decide_false,
    Bool.and_false, Bool.or_false, Bool.false_or]
  rw [eventRecoveryFindings]
  split
  · next hbehind => simp [hbehind]
  · next hbehind =>
    split <;> simp [hbehind]

theorem eventRecoveryFindings_reconcile (checkpointSequence currentSequence : UInt64) :
    (eventRecoveryFindings checkpointSequence currentSequence).any (·.reconcile) =
      decide (currentSequence < checkpointSequence) := by
  rw [eventRecoveryFindings]
  split
  · next hbehind => simp [hbehind]
  · next hbehind => split <;> simp [hbehind]

/-- Nothing requires the run to be reconciled exactly when all these facts hold. -/
theorem anyReconcile_laterFindings_eq_false_iff
    (hrecorded : (snapshot.dirtyFiles.map (·.path)).Nodup)
    (hobserved : (o.dirtyFiles.map (·.path)).Nodup) :
    anyReconcile (laterFindings input snapshot o) = false ↔
      (o.worktreeBindingRevision = snapshot.worktreeBindingRevision ∧
        o.worktreeHead = snapshot.worktreeHead ∧
        (∀ file ∈ snapshot.dirtyFiles, file ∈ o.dirtyFiles) ∧
        (o.diffSHA256 = snapshot.diffSHA256 ∨ HasUnrecorded snapshot o) ∧
        o.gitOperationStates = []) ∧
      (o.policyCompatible = true ∧ o.providerCompatible = true ∧ o.toolsCompatible = true) ∧
      ¬o.durableEventSequence < recoveryCheckpointEventSequence input.checkpointEventSequence
        snapshot.lastDurableEventSequence ∧
      snapshot.ambiguousExternalActions = [] ∧ o.ambiguousExternalActions = [] := by
  have hadded : (compareCheckpointDirtyFiles snapshot.dirtyFiles o.dirtyFiles).2 ≠ [] ↔
      HasUnrecorded snapshot o := by
    rw [Ne, additions_eq_nil_iff, HasUnrecorded]
    push Not
    rfl
  have hintact := conflicts_eq_nil_iff hrecorded hobserved
  rw [← hintact, ← hadded]
  simp only [anyReconcile, laterFindings, worktreeRecoveryFindings, compatibilityRecoveryFindings,
    ambiguousRecoveryFindings, any_append, noteWhen_any, eventRecoveryFindings_reconcile,
    Bool.and_true, Bool.and_false, Bool.or_false, Bool.or_eq_false_iff, Bool.and_eq_false_iff,
    decide_eq_false_iff_not, not_not, Bool.not_eq_false', isEmpty_eq_false_iff,
    mergeAmbiguousRecoveryActions_eq_nil_iff]
  constructor
  · rintro ⟨⟨⟨⟨⟨⟨⟨hbinding, hhead⟩, hfiles⟩, hdiff⟩, hgit⟩, ⟨hpolicy, hprovider⟩, htools⟩,
      hjournal⟩,
      hactions⟩
    refine ⟨⟨hbinding, hhead, hfiles, ?_, hgit⟩, ⟨hpolicy, hprovider, htools⟩, hjournal, hactions⟩
    exact hdiff.imp_left fun h => h.resolve_right (not_not.2 hfiles)
  · rintro ⟨⟨hbinding, hhead, hfiles, hdiff, hgit⟩, ⟨hpolicy, hprovider, htools⟩,
      hjournal, hactions⟩
    exact ⟨⟨⟨⟨⟨⟨⟨hbinding, hhead⟩, hfiles⟩, hdiff.imp_left .inl⟩, hgit⟩, ⟨hpolicy, hprovider⟩,
      htools⟩, hjournal⟩, hactions⟩

theorem hasUnrecorded_normalized :
    HasUnrecorded snapshot.normalized (cloneRecoveryObservation o) ↔ HasUnrecorded snapshot o := by
  have hpaths : ∀ path, path ∈ snapshot.normalized.dirtyFiles.map (·.path) ↔
      path ∈ snapshot.dirtyFiles.map (·.path) := fun path =>
    ((sortOn_perm _ snapshot.dirtyFiles).map _).mem_iff
  simp only [HasUnrecorded, hpaths]
  rfl

/-- An accepted observation without a fundamental loss needs no reconciliation exactly when its run
is resumable. -/
theorem InputValid.resumable_iff {host : Host} (h : InputValid host input)
    (hmatches : RepositoryMatches input.observation) :
    anyReconcile (laterFindings input input.checkpoint.normalized
      (cloneRecoveryObservation input.observation)) = false ↔
      Resumable input.sequence input.checkpoint input.observation := by
  obtain ⟨state, hstate⟩ := h.checkpoint
  have hrecorded := (canonicalize_ok_iff.1 hstate).1.normalized.files.distinct
  -- the worktree exists, so that its files were checked
  obtain ⟨probe, hprobe⟩ := h.observation.worktree hmatches.worktree
  have hobserved : ((cloneRecoveryObservation input.observation).dirtyFiles.map (·.path)).Nodup :=
    (canonicalize_ok_iff.1 hprobe).1.files.distinct
  have hactions : input.checkpoint.normalized.ambiguousExternalActions = [] ↔
      input.checkpoint.ambiguousExternalActions = [] := by
    rw [← length_eq_zero_iff, Snapshot.normalized, length_sortOn, length_eq_zero_iff]
  have hgit : (cloneRecoveryObservation input.observation).gitOperationStates = [] ↔
      input.observation.gitOperationStates = [] :=
    compactTexts_eq_nil_iff.trans sortTexts_eq_nil_iff
  rw [anyReconcile_laterFindings_eq_false_iff hrecorded hobserved, hactions, hgit,
    hasUnrecorded_normalized]
  constructor
  · rintro ⟨⟨hbinding, hhead, hfiles, hdiff, hgit⟩, ⟨hpolicy, hprovider, htools⟩, hjournal,
      hrecordedActions, hobservedActions⟩
    exact ⟨hmatches, hbinding, hhead, fun file hfile => hfiles file ((mem_sortOn _).2 hfile), hdiff,
      hgit, hpolicy, hprovider, htools, hrecordedActions, hobservedActions, hjournal⟩
  · rintro h
    exact ⟨⟨h.binding, h.head, fun file hfile => h.files file ((mem_sortOn _).1 hfile), h.diff,
      h.gitOperations⟩, ⟨h.policy, h.provider, h.tools⟩, h.journal, h.recordedActions,
      h.observedActions⟩

open Classical in
/-- **The class of an accepted observation.** -/
theorem classification_eq {host : Host} {assessment : RecoveryAssessment}
    (h : classifyCheckpointRecovery host { input with observation := o } = .ok assessment) :
    assessment.classification =
      if RepositoryMatches o then
        if JournalBehind input.sequence o then .unrecoverable
        else if Resumable input.sequence input.checkpoint o then .safeResume else .reconcileRequired
      else if o.patchAvailable then .patchPreservationOnly else .unrecoverable := by
  obtain ⟨hinput, rfl⟩ := classifyCheckpointRecovery_ok_iff.1 h
  have hmatches : fundamentalRecoveryFindings (cloneRecoveryObservation o) = [] ↔
      RepositoryMatches o := by
    rw [fundamentalRecoveryFindings_eq_nil_iff]
    exact ⟨fun ⟨h1, h2, h3, h4, h5⟩ => ⟨h1, h2, h3, h4, h5⟩,
      fun ⟨h1, h2, h3, h4, h5⟩ => ⟨h1, h2, h3, h4, h5⟩⟩
  have hjournal : (laterFindings { input with observation := o } input.checkpoint.normalized
      (cloneRecoveryObservation o)).any (·.finding.code = .eventJournalBehind) = true ↔
        JournalBehind input.sequence o := laterFindings_any_behind
  rw [assessRecovery_classification]
  by_cases hloss : RepositoryMatches o
  · have hresumable : _ ↔ Resumable input.sequence input.checkpoint o := hinput.resumable_iff hloss
    rw [if_neg (not_not.2 (hmatches.2 hloss)), if_pos hloss, if_congr hjournal rfl rfl,
      ← if_congr hresumable rfl rfl]
    cases anyReconcile (laterFindings _ _ _) <;> rfl
  · rw [if_pos (mt hmatches.1 hloss), if_neg hloss]
    rfl

end Class

/-! ### Worse observations -/

section Worse

variable {snapshot : Snapshot} {sequence : UInt64} {o o' : RecoveryObservation}

theorem Worse.repositoryMatches (h : Worse snapshot o o')
    (hmatches : RepositoryMatches o') : RepositoryMatches o :=
  ⟨h.path hmatches.path, h.identity hmatches.identity, h.base hmatches.base,
    h.worktree hmatches.worktree, h.owned hmatches.owned⟩

theorem Worse.journalBehind (h : Worse snapshot o o') (hbehind : JournalBehind sequence o) :
    JournalBehind sequence o' :=
  UInt64.lt_of_le_of_lt h.journal hbehind

/-- When the worse observation is resumable, the better one lacks at most an explanation of its
diff. -/
theorem Worse.resumable_iff (h : Worse snapshot o o')
    (hresumable : Resumable sequence snapshot o') :
    Resumable sequence snapshot o ↔
      o.diffSHA256 = snapshot.diffSHA256 ∨ HasUnrecorded snapshot o := by
  refine ⟨fun hsafe => hsafe.diff, fun hdiff => ?_⟩
  have hactions : o.ambiguousExternalActions = [] := by
    refine eq_nil_iff_forall_not_mem.2 fun action haction => ?_
    have hmem := h.actions action haction
    rw [hresumable.observedActions] at hmem
    cases hmem
  have hgit : o.gitOperationStates = [] := by
    refine eq_nil_iff_forall_not_mem.2 fun operation hoperation => ?_
    have hmem := h.gitOperations operation hoperation
    rw [hresumable.gitOperations] at hmem
    cases hmem
  exact {
    repository := h.repositoryMatches hresumable.repository
    binding := (h.binding.resolve_right (not_not.2 hresumable.binding)).symm.trans
      hresumable.binding
    head := (h.head.resolve_right (not_not.2 hresumable.head)).symm.trans hresumable.head
    files := fun file hfile => h.recorded file hfile (hresumable.files file hfile)
    diff := hdiff
    gitOperations := hgit
    policy := h.policy hresumable.policy
    provider := h.provider hresumable.provider
    tools := h.tools hresumable.tools
    recordedActions := hresumable.recordedActions
    observedActions := hactions
    journal := fun hbehind => hresumable.journal (h.journalBehind hbehind) }

end Worse

/-- **Soundness, and when the classification is monotone.** Safe resume means that every fact of
the checkpoint still holds. For a worse accepted observation of the same checkpoint the class is
at most as permissive, exactly unless the first has a journal behind the checkpoint and only the
second a fundamental loss with a patch, or the second is safe to resume and the first has a
changed diff identity that no dirty file explains. -/
theorem recovery_sound_and_monotone_iff {host : Host} {input : RecoveryClassificationInput}
    {o' : RecoveryObservation} {assessment assessment' : RecoveryAssessment}
    (h : classifyCheckpointRecovery host input = .ok assessment)
    (h' : classifyCheckpointRecovery host { input with observation := o' } = .ok assessment')
    (hworse : Worse input.checkpoint input.observation o') :
    (assessment.classification = .safeResume →
      Resumable input.sequence input.checkpoint input.observation) ∧
    (assessment'.classification.rank ≤ assessment.classification.rank ↔
      ¬(RepositoryMatches input.observation ∧ JournalBehind input.sequence input.observation ∧
        ¬RepositoryMatches o' ∧ o'.patchAvailable = true) ∧
      ¬(Resumable input.sequence input.checkpoint o' ∧
        input.observation.diffSHA256 ≠ input.checkpoint.diffSHA256 ∧
        ¬HasUnrecorded input.checkpoint input.observation)) := by
  have hclass := classification_eq (o := input.observation) h
  have hclass' := classification_eq h'
  refine ⟨fun hsafe => ?_, ?_⟩
  · rw [hsafe] at hclass
    split_ifs at hclass with hmatches hbehind hresumable
    exact hresumable
  · -- each fact of the classification is only lost, up to the explanation of the diff
    have hmatches := hworse.repositoryMatches
    have hbehind := @Worse.journalBehind _ input.sequence _ _ hworse
    have hresumable := @Worse.resumable_iff _ input.sequence _ _ hworse
    have hpatch := hworse.patch
    rw [hclass, hclass']
    split_ifs <;> grind [RecoveryClassification.rank, Resumable.repository, Resumable.journal]

/-- The policy has changed. -/
def stricterPolicy : RecoveryObservation := { sampleObservation with policyCompatible := false }

/-- The journal ends before the event of the checkpoint. -/
def behindJournal : RecoveryObservation := { sampleObservation with durableEventSequence := 4 }

/-- In addition the repository has moved. -/
def movedRepository : RecoveryObservation :=
  { behindJournal with repositoryPathMatches := false }

/-- The diff identity is another one, and no dirty file says why. -/
def changedDiff : RecoveryObservation :=
  { sampleObservation with diffSHA256 := List.replicate 64 0x31 }

/-- In addition there is a dirty file. -/
def changedDiffAndFile : RecoveryObservation :=
  { changedDiff with dirtyFiles := [⟨bytes "note.txt", false, []⟩] }

theorem sampleClass_eq {o : RecoveryObservation} {result : RecoveryClassification}
    (h : sampleClass o = some result) :
    ∃ assessment, classifyCheckpointRecovery plainHost (sampleInput o) = .ok assessment ∧
      assessment.classification = result := by
  rw [sampleClass] at h
  cases hassessment : classifyCheckpointRecovery plainHost (sampleInput o) with
  | ok assessment =>
    rw [hassessment] at h
    exact ⟨assessment, rfl, Option.some.inj h⟩
  | error failure =>
    rw [hassessment] at h
    cases h

theorem stricterPolicy_worse : Worse (sampleSnapshot []) sampleObservation stricterPolicy := by
  constructor <;> simp [sampleObservation, stricterPolicy, sampleSnapshot]

theorem recovery_monotone_stricterPolicy :
    ∃ assessment assessment',
      classifyCheckpointRecovery plainHost (sampleInput sampleObservation) = .ok assessment ∧
      classifyCheckpointRecovery plainHost (sampleInput stricterPolicy) = .ok assessment' ∧
      Resumable 5 (sampleSnapshot []) sampleObservation ∧
      assessment'.classification.rank ≤ assessment.classification.rank := by
  obtain ⟨assessment, h, hclass⟩ :=
    @sampleClass_eq sampleObservation .safeResume (by decide +kernel)
  obtain ⟨assessment', h', -⟩ :=
    @sampleClass_eq stricterPolicy .reconcileRequired (by decide +kernel)
  obtain ⟨hsound, hmonotone⟩ := recovery_sound_and_monotone_iff h h' stricterPolicy_worse
  refine ⟨assessment, assessment', h, h', hsound hclass, hmonotone.2 ⟨?_, ?_⟩⟩
  · rintro ⟨-, hbehind, -, -⟩
    exact absurd hbehind (show ¬(5 : UInt64) < 5 by decide)
  · rintro ⟨-, hdiff, -⟩
    exact hdiff rfl

/-- A run with a journal behind its checkpoint is unrecoverable, and becomes a case for its patch
when its repository moves. A run with an unexplained diff has to be reconciled, and becomes safe to
resume when a dirty file turns up. -/
theorem worse_observations_more_permissive :
    Worse (sampleSnapshot []) behindJournal movedRepository ∧
    sampleClass behindJournal = some .unrecoverable ∧
    sampleClass movedRepository = some .patchPreservationOnly ∧
    Worse (sampleSnapshot []) changedDiff changedDiffAndFile ∧
    sampleClass changedDiff = some .reconcileRequired ∧
    sampleClass changedDiffAndFile = some .safeResume := by
  refine ⟨?_, by decide +kernel, by decide +kernel, ?_, by decide +kernel, by decide +kernel⟩
  · constructor <;> simp [behindJournal, movedRepository, sampleObservation, sampleSnapshot]
  · constructor <;> simp [changedDiff, changedDiffAndFile, sampleObservation, sampleSnapshot]

end Codeflux.Recovery
