import Codeflux.Domain.Policy
import Codeflux.Go.ByteText
import Codeflux.Library.KeySort
import Codeflux.Library.OpenEnum
import Mathlib.Data.String.Basic

/-!
# Checkpoint snapshots and their canonical encoding

`Canonicalize` sorts the lists of a snapshot by path or identifier, checks the result and encodes it
as JSON; `DecodeCanonicalState` reads a snapshot back, canonicalizes it again and compares text and
hash. Texts are byte sequences. The sort of the source leaves the order of entries with equal keys
open; the checks refuse such entries, so a stable sort stands for every sort.
-/

namespace Codeflux.Checkpoint

open Library Go Domain List

/-- The first immutable checkpoint-state encoding. -/
def schemaVersion : UInt64 := 1

/-- The most dirty files. -/
def maximumDirtyFiles : Nat := 2048
/-- The most steps of a list. -/
def maximumPlanSteps : Nat := 256
/-- The most ambiguous actions. -/
def maximumAmbiguousActions : Nat := 128

/-- The state of one plan step. -/
inductive PlanStepState
  | pending | inProgress | implemented | validated | failed | skipped
deriving DecidableEq

instance : Declared PlanStepState where
  all := [.pending, .inProgress, .implemented, .validated, .failed, .skipped]
  text
    | .pending => "pending"
    | .inProgress => "in-progress"
    | .implemented => "implemented"
    | .validated => "validated"
    | .failed => "failed"
    | .skipped => "skipped"

/-- The path, existence and content hash of a changed file. -/
structure DirtyFileHash where
  path : Bytes
  fileExists : Bool
  sha256 : Bytes
deriving DecidableEq

/-- A plan step and its state. -/
structure PlanStepSnapshot where
  id : Bytes
  state : OpenEnum PlanStepState
deriving DecidableEq

/-- A rational count of currency minor units. -/
structure ExactCost where
  currency : CurrencyCode
  (numerator denominator : Int)
deriving DecidableEq

/-- The ledger as it was observed. -/
structure BudgetPosition where
  budgetID : BudgetID
  (snapshotRevision limitRevision : UInt64)
  (reservedCost chargedCost actualKnownCost : ExactCost)
  costAccountingUnknown : Bool
  (reservedTokens chargedTokens actualTokens : UInt64)
  tokenAccountingUnknown : Bool
  providerCallSlots : UInt64
  reconciliationPending : Bool
deriving DecidableEq

/-- The policy of a run. -/
structure PolicyBinding where
  revision : UInt64
  (version contentSHA256 : Bytes)
deriving DecidableEq

/-- The tool catalog of a run. -/
structure ToolBinding where
  schemaVersion : Int
  catalogSHA256 : Bytes
deriving DecidableEq

/-- The provider and model of a run. -/
structure ProviderBinding where
  settingsRevision : UInt64
  (runConfigurationSHA256 adapter adapterVersion provider providerVersion model
    modelRevision : Bytes)
deriving DecidableEq

/-- An intent whose external outcome is not known. -/
structure AmbiguousExternalAction where
  (actionID kind intentSHA256 toolRequestID : Bytes)
deriving DecidableEq

/-- The complete recovery state. -/
structure Snapshot where
  schemaVersion : UInt64
  taskID : TaskID
  runID : RunID
  repositoryID : RepositoryID
  (worktreeBindingRevision planRevision : UInt64)
  (baseRevision worktreeHead preservedRevision : Bytes)
  dirtyFiles : List DirtyFileHash
  diffSHA256 : Bytes
  (completedPlanSteps pendingPlanSteps : List PlanStepSnapshot)
  budget : BudgetPosition
  policy : PolicyBinding
  provider : ProviderBinding
  tools : ToolBinding
  lastDurableEventSequence : UInt64
  externalOutcomeAmbiguous : Bool
  ambiguousExternalActions : List AmbiguousExternalAction
deriving DecidableEq

/-! ### Checks on texts -/

/-- A byte that satisfies a condition on characters. -/
def byteIs (p : Char → Bool) (b : UInt8) : Bool := p (Char.ofNat b.toNat)

variable (value : Bytes)

/-- Are all bytes lower-case hexadecimal digits? -/
def lowerHex : Bool := value.all (byteIs isLowerHex)

/-- Is it a Git object name? -/
def validGitObjectID : Bool :=
  value.length = 40 && lowerHex value || value.length = 64 && lowerHex value

/-- Is it a hexadecimal SHA-256? -/
def validSHA256 : Bool := value.length = 64 && lowerHex value

/-- Is it trimmed, not empty and short enough? -/
def boundedTrimmed (maximum : Nat) : Bool :=
  value ≠ [] && isTrimmed value && value.length ≤ maximum

/-- The characters of an identifier. -/
def identifierCharacter (c : Char) : Bool :=
  ('a' ≤ c && c ≤ 'z') || ('A' ≤ c && c ≤ 'Z') || ('0' ≤ c && c ≤ '9') ||
    "-._:/".toList.contains c

/-- Is it a short enough identifier? -/
def boundedIdentifier (maximum : Nat) : Bool :=
  boundedTrimmed value maximum && value.all (byteIs identifierCharacter)

/-- Is it a step identifier? -/
def validStepID : Bool := boundedTrimmed value 255

/-- A relative path in its shortest form that stays below its root. -/
def safePath : Bool :=
  value ≠ [] && latin value = clean (latin value) && value.length ≤ 4096 &&
    !containsText (latin value) "\\" && !isAbs (latin value) && latin value ≠ ".." &&
    !hasPrefix (latin value) "../"

/-! ### Checks on the parts of a snapshot -/

/-- A loop over entries sorted by a key: a check, the comparison with the key before, another check.
-/
def validateAscending {α : Type} (key : α → Bytes) (first : α → Result Unit) (duplicate : String)
    (second : α → Result Unit) : Bytes → List α → Result Unit
  | _, [] => .ok ()
  | previous, value :: rest => do
    first value
    ensure (¬(previous ≠ [] ∧ latin (key value) ≤ latin previous)) (.new duplicate)
    second value
    validateAscending key first duplicate second (key value) rest

/-- The check of a dirty file before its path is compared. -/
def checkPath (value : DirtyFileHash) : Result Unit :=
  ensure (safePath value.path) (.new "checkpoint dirty-file path is unsafe")

/-- The check of a dirty file after its path was compared. -/
def checkContent (value : DirtyFileHash) : Result Unit := do
  ensure (value.fileExists → validSHA256 value.sha256)
    (.new "checkpoint dirty-file identity is invalid")
  ensure (value.fileExists = false → value.sha256 = [])
    (.new "deleted checkpoint file cannot carry a content hash")

/-- Check the dirty files. -/
def validateDirtyFiles (values : List DirtyFileHash) : Result Unit :=
  validateAscending (·.path) checkPath "checkpoint dirty-file paths are not unique" checkContent []
    values

/-- The states of a completed step. -/
def completedStates : List PlanStepState := [.implemented, .validated, .skipped]

/-- The states of a pending step. -/
def pendingStates : List PlanStepState := [.pending, .inProgress, .failed]

/-- One of the two loops over plan steps: the states it allows, its error, and the identifiers seen
before and after it. -/
def validateSteps (states : List PlanStepState) (invalid : String) :
    List Bytes → List PlanStepSnapshot → Result (List Bytes)
  | seen, [] => .ok seen
  | seen, value :: rest => do
    ensure (validStepID value.id ∧ value.state ∈ states.map OpenEnum.declared) (.new invalid)
    ensure (value.id ∉ seen) (.new "checkpoint plan-step ID is duplicated")
    validateSteps states invalid (value.id :: seen) rest

/-- Check the plan steps. -/
def validatePlanSteps (completed pending : List PlanStepSnapshot) : Result Unit := do
  let seen ← validateSteps completedStates "completed checkpoint plan step is invalid" [] completed
  let _ ← validateSteps pendingStates "pending checkpoint plan step is invalid" seen pending
  return ()

/-- Check a cost. -/
def validateExactCost (value : ExactCost) : Result Unit :=
  ensure (parseCurrencyCode value.currency = .ok value.currency ∧ 0 ≤ value.numerator ∧
    1 ≤ value.denominator) (.new "checkpoint exact cost is invalid")

/-- Check a budget position. -/
def validateBudgetPosition (value : BudgetPosition) : Result Unit := do
  ensure (value.budgetID.isZero = false) (.new "checkpoint budget position is incomplete")
  [value.reservedCost, value.chargedCost, value.actualKnownCost].forM fun cost => do
    validateExactCost cost
    ensure (cost.currency = value.reservedCost.currency)
      (.new "checkpoint budget currencies differ")

/-- Check an ambiguous action. -/
def checkAction (value : AmbiguousExternalAction) : Result Unit :=
  ensure (boundedIdentifier value.actionID 255 ∧ boundedIdentifier value.kind 128 ∧
      validSHA256 value.intentSHA256 ∧
      (value.toolRequestID ≠ [] → boundedIdentifier value.toolRequestID 255))
    (.new "checkpoint ambiguous external action is invalid")

/-- Check the ambiguous actions. -/
def validateAmbiguousActions (values : List AmbiguousExternalAction) : Result Unit :=
  validateAscending (·.actionID) checkAction
    "checkpoint ambiguous external-action IDs are not unique" (fun _ => .ok ()) [] values

/-- The names of a provider binding. -/
def ProviderBinding.fields (value : ProviderBinding) : List Bytes :=
  [value.adapter, value.adapterVersion, value.provider, value.providerVersion, value.model,
    value.modelRevision]

/-- Check a normalized snapshot. -/
def validateSnapshot (value : Snapshot) : Result Unit := do
  ensure (value.schemaVersion = schemaVersion) (.new "checkpoint schema version is unsupported")
  ensure (¬(value.taskID.isZero ∨ value.runID.isZero ∨ value.repositoryID.isZero))
    (.new "checkpoint task, run, and repository are required")
  ensure (value.planRevision ≠ 0) (.new "checkpoint plan revision is required")
  ensure (validGitObjectID value.baseRevision ∧ validGitObjectID value.worktreeHead ∧
    validGitObjectID value.preservedRevision) (.new "checkpoint Git revisions are invalid")
  ensure (validSHA256 value.diffSHA256) (.new "checkpoint diff identity is invalid")
  ensure (value.dirtyFiles.length ≤ maximumDirtyFiles)
    (.new "checkpoint dirty-file count exceeds the bound")
  ensure (value.completedPlanSteps.length + value.pendingPlanSteps.length ≠ 0 ∧
      value.completedPlanSteps.length + value.pendingPlanSteps.length ≤ maximumPlanSteps)
    (.new "checkpoint plan-step count is outside the bound")
  ensure (value.externalOutcomeAmbiguous = !value.ambiguousExternalActions.isEmpty)
    (.new "checkpoint ambiguous-outcome flag differs from actions")
  ensure (value.ambiguousExternalActions.length ≤ maximumAmbiguousActions)
    (.new "checkpoint ambiguous-action count exceeds the bound")
  validateDirtyFiles value.dirtyFiles
  validatePlanSteps value.completedPlanSteps value.pendingPlanSteps
  validateBudgetPosition value.budget
  ensure (value.policy.revision ≠ 0 ∧ boundedTrimmed value.policy.version 255 ∧
    validSHA256 value.policy.contentSHA256) (.new "checkpoint policy binding is invalid")
  ensure (1 ≤ value.tools.schemaVersion ∧ validSHA256 value.tools.catalogSHA256)
    (.new "checkpoint tool binding is invalid")
  ensure (value.provider.settingsRevision ≠ 0 ∧
      validSHA256 value.provider.runConfigurationSHA256)
    (.new "checkpoint run-configuration binding is invalid")
  ensure (value.provider.fields.all (boundedTrimmed · 255))
    (.new "checkpoint provider/model binding is invalid")
  validateAmbiguousActions value.ambiguousExternalActions

/-! ### Canonical states -/

/-- The functions of the host that a canonical state rests on: the hash in hexadecimal digits, and
the JSON encoding of snapshots. -/
structure Host where
  digest : Bytes → Bytes
  jsonValid : Bytes → Bool
  marshal : Snapshot → Result Bytes
  unmarshalVersion : Bytes → Option UInt64
  unmarshal : Bytes → Option Snapshot

/-- The normalized snapshot with its encoding and its identity. -/
structure CanonicalState where
  snapshot : Snapshot
  (json stateSHA256 : Bytes)
deriving DecidableEq

/-- The snapshot with its four lists sorted. -/
def Snapshot.normalized (value : Snapshot) : Snapshot :=
  { value with
    dirtyFiles := sortOn (latin ·.path) value.dirtyFiles
    completedPlanSteps := sortOn (latin ·.id) value.completedPlanSteps
    pendingPlanSteps := sortOn (latin ·.id) value.pendingPlanSteps
    ambiguousExternalActions := sortOn (latin ·.actionID) value.ambiguousExternalActions }

section Canonical

variable (host : Host)

/-- The canonical state of a snapshot. -/
def canonicalize (value : Snapshot) : Result CanonicalState := do
  validateSnapshot value.normalized
  let encoded ← (host.marshal value.normalized).mapError (.wrap "encode checkpoint state")
  return { snapshot := value.normalized, json := encoded, stateSHA256 := host.digest encoded }

/-- The error of a text that is not canonical. -/
def errEncoding : Failure := .new "checkpoint canonical state encoding is invalid"

/-- Read a canonical state back. -/
def decodeCanonicalState (encoded expectedSHA256 : Bytes) : Result CanonicalState := do
  ensure (validSHA256 expectedSHA256 ∧ host.jsonValid encoded) errEncoding
  let version ← (host.unmarshalVersion encoded).elim (.error errEncoding) .ok
  ensure (version = schemaVersion)
    (.new "checkpoint schema version is not compatible with this application")
  let snapshot ← (host.unmarshal encoded).elim (.error errEncoding) .ok
  let state ← canonicalize host snapshot
  ensure (state.json = encoded ∧ state.stateSHA256 = expectedSHA256)
    (.new "checkpoint canonical state or hash is inconsistent")
  return state

end Canonical

/-! ### What is accepted -/

section Loops

variable {α : Type} {key : α → Bytes} {first second : α → Result Unit} {duplicate : String}

theorem validateAscending_ok_iff (hkey : ∀ value, first value = .ok () → key value ≠ [])
    {previous : Bytes} {values : List α} {u : Unit} :
    validateAscending key first duplicate second previous values = .ok u ↔
      (∀ value ∈ values, first value = .ok () ∧ second value = .ok ()) ∧
      values.Pairwise (fun a b => latin (key a) < latin (key b)) ∧
      (previous ≠ [] → ∀ value ∈ values, latin previous < latin (key value)) := by
  induction values generalizing previous with
  | nil => simp [validateAscending]
  | cons value rest ih =>
    simp only [validateAscending, run_ok_iff, exists_const, ih, forall_mem_cons,
      pairwise_cons]
    constructor
    · rintro ⟨_, hfirst, hafter, _, hsecond, hrest, hpairs, hlater⟩
      have hbelow := hlater (hkey value hfirst)
      refine ⟨⟨⟨hfirst, hsecond⟩, hrest⟩, ⟨hbelow, hpairs⟩, fun hprevious => ?_⟩
      have hlt : latin previous < latin (key value) :=
        lt_of_not_ge fun hle => hafter ⟨hprevious, hle⟩
      exact ⟨hlt, fun other hother => hlt.trans (hbelow other hother)⟩
    · rintro ⟨⟨⟨hfirst, hsecond⟩, hrest⟩, ⟨hbelow, hpairs⟩, hprevious⟩
      exact ⟨(), hfirst, fun ⟨hne, hle⟩ => absurd hle (not_le_of_gt (hprevious hne).1), (), hsecond,
        hrest, hpairs, fun _ => hbelow⟩

theorem validateSteps_ok_iff {states : List PlanStepState} {invalid : String}
    {seen seen' : List Bytes} {steps : List PlanStepSnapshot} :
    validateSteps states invalid seen steps = .ok seen' ↔
      (∀ step ∈ steps, validStepID step.id = true ∧
        step.state ∈ states.map OpenEnum.declared) ∧
      (steps.map (·.id)).Nodup ∧ (∀ step ∈ steps, step.id ∉ seen) ∧
      (steps.map (·.id)).reverse ++ seen = seen' := by
  induction steps generalizing seen with
  | nil => simp [validateSteps]
  | cons step steps ih =>
    simp only [validateSteps, run_ok_iff, exists_const, ih, forall_mem_cons, map_cons,
      nodup_cons, reverse_cons, append_assoc, singleton_append]
    constructor
    · rintro ⟨hstep, hnew, hsteps, hnodup, hothers, hseen⟩
      refine ⟨⟨hstep, hsteps⟩, ⟨fun hmem => ?_, hnodup⟩, ⟨hnew, fun other hother hold => ?_⟩, hseen⟩
      · obtain ⟨other, hother, heq⟩ := mem_map.1 hmem
        exact hothers other hother (heq ▸ mem_cons_self)
      · exact hothers other hother (mem_cons_of_mem _ hold)
    · rintro ⟨⟨hstep, hsteps⟩, ⟨hfresh, hnodup⟩, ⟨hnew, hothers⟩, hseen⟩
      refine ⟨hstep, hnew, hsteps, hnodup, fun other hother hmem => ?_, hseen⟩
      rcases mem_cons.1 hmem with heq | hold
      · exact hfresh (mem_map.2 ⟨other, hother, heq⟩)
      · exact hothers other hother hold

end Loops

/-- An accepted dirty file. -/
structure DirtyFileHash.Valid (value : DirtyFileHash) : Prop where
  path : safePath value.path = true
  hash : value.fileExists = true → validSHA256 value.sha256 = true
  deleted : value.fileExists = false → value.sha256 = []

/-- An accepted ambiguous action. -/
structure AmbiguousExternalAction.Valid (value : AmbiguousExternalAction) : Prop where
  actionID : boundedIdentifier value.actionID 255 = true
  kind : boundedIdentifier value.kind 128 = true
  intent : validSHA256 value.intentSHA256 = true
  request : value.toolRequestID ≠ [] → boundedIdentifier value.toolRequestID 255 = true

/-- An accepted plan step of one of the two lists. -/
def PlanStepSnapshot.Valid (states : List PlanStepState) (value : PlanStepSnapshot) : Prop :=
  validStepID value.id = true ∧ value.state ∈ states.map OpenEnum.declared

/-- Accepted dirty files, in any order. -/
structure FilesValid (files : List DirtyFileHash) : Prop where
  bound : files.length ≤ maximumDirtyFiles
  valid : ∀ file ∈ files, file.Valid
  distinct : (files.map (·.path)).Nodup

/-- Accepted ambiguous actions, in any order. -/
structure ActionsValid (actions : List AmbiguousExternalAction) : Prop where
  bound : actions.length ≤ maximumAmbiguousActions
  valid : ∀ action ∈ actions, action.Valid
  distinct : (actions.map (·.actionID)).Nodup

/-- Accepted plan steps, in any order. -/
structure StepsValid (completed pending : List PlanStepSnapshot) : Prop where
  some_step : completed.length + pending.length ≠ 0
  bound : completed.length + pending.length ≤ maximumPlanSteps
  completed_valid : ∀ step ∈ completed, step.Valid completedStates
  pending_valid : ∀ step ∈ pending, step.Valid pendingStates
  distinct : ((completed ++ pending).map (·.id)).Nodup

/-- A snapshot that is accepted once its lists are sorted. -/
structure Snapshot.Valid (value : Snapshot) : Prop where
  version : value.schemaVersion = Checkpoint.schemaVersion
  identities : ¬(value.taskID.isZero ∨ value.runID.isZero ∨ value.repositoryID.isZero)
  plan : value.planRevision ≠ 0
  base : validGitObjectID value.baseRevision = true
  head : validGitObjectID value.worktreeHead = true
  preserved : validGitObjectID value.preservedRevision = true
  diff : validSHA256 value.diffSHA256 = true
  files : FilesValid value.dirtyFiles
  steps : StepsValid value.completedPlanSteps value.pendingPlanSteps
  flag : value.externalOutcomeAmbiguous = !value.ambiguousExternalActions.isEmpty
  actions : ActionsValid value.ambiguousExternalActions
  budget : validateBudgetPosition value.budget = .ok ()
  policy : value.policy.revision ≠ 0 ∧ boundedTrimmed value.policy.version 255 = true ∧
    validSHA256 value.policy.contentSHA256 = true
  tools : 1 ≤ value.tools.schemaVersion ∧ validSHA256 value.tools.catalogSHA256 = true
  configuration : value.provider.settingsRevision ≠ 0 ∧
    validSHA256 value.provider.runConfigurationSHA256 = true
  provider : value.provider.fields.all (boundedTrimmed · 255) = true

section Accepted

variable {u : Unit}

theorem ne_nil_of_safePath {value : Bytes} (h : safePath value = true) : value ≠ [] := by
  rintro rfl
  simp [safePath] at h

theorem ne_nil_of_boundedIdentifier {value : Bytes} {maximum : Nat}
    (h : boundedIdentifier value maximum = true) : value ≠ [] := by
  rintro rfl
  simp [boundedIdentifier, boundedTrimmed] at h

theorem nodup_latin_iff {α : Type} {key : α → Bytes} {values : List α} :
    (values.map fun value => latin (key value)).Nodup ↔ (values.map key).Nodup := by
  rw [← nodup_map_iff latin_injective, map_map]
  rfl

theorem validateDirtyFiles_sorted_ok_iff {files : List DirtyFileHash} :
    validateDirtyFiles (sortOn (latin ·.path) files) = .ok u ↔
      (∀ file ∈ files, file.Valid) ∧ (files.map (·.path)).Nodup := by
  have hkey : ∀ value : DirtyFileHash, checkPath value = .ok () → value.path ≠ [] :=
    fun value h => ne_nil_of_safePath (ensure_ok_iff.1 h)
  rw [validateDirtyFiles, validateAscending_ok_iff hkey, pairwise_lt_sortOn_iff, nodup_latin_iff]
  have hvalid : ∀ file : DirtyFileHash,
      checkPath file = .ok () ∧ checkContent file = .ok () ↔ file.Valid := by
    intro file
    simp only [checkPath, checkContent, run_ok_iff, exists_const]
    exact ⟨fun h => ⟨h.1, h.2.1, h.2.2⟩, fun h => ⟨h.1, h.2, h.3⟩⟩
  simp [mem_sortOn, hvalid]

theorem validateAmbiguousActions_sorted_ok_iff {actions : List AmbiguousExternalAction} :
    validateAmbiguousActions (sortOn (latin ·.actionID) actions) = .ok u ↔
      (∀ action ∈ actions, action.Valid) ∧ (actions.map (·.actionID)).Nodup := by
  have hkey : ∀ value : AmbiguousExternalAction, checkAction value = .ok () →
      value.actionID ≠ [] := fun value h => ne_nil_of_boundedIdentifier (ensure_ok_iff.1 h).1
  rw [validateAmbiguousActions, validateAscending_ok_iff hkey, pairwise_lt_sortOn_iff,
    nodup_latin_iff]
  have hvalid : ∀ action : AmbiguousExternalAction, checkAction action = .ok () ↔ action.Valid := by
    intro action
    simp only [checkAction, ensure_ok_iff]
    exact ⟨fun ⟨hid, hkind, hintent, hrequest⟩ => ⟨hid, hkind, hintent, hrequest⟩,
      fun ⟨hid, hkind, hintent, hrequest⟩ => ⟨hid, hkind, hintent, hrequest⟩⟩
  simp [mem_sortOn, hvalid]

theorem validatePlanSteps_ok_iff {completed pending : List PlanStepSnapshot} :
    validatePlanSteps completed pending = .ok u ↔
      (∀ step ∈ completed, step.Valid completedStates) ∧
      (∀ step ∈ pending, step.Valid pendingStates) ∧
      ((completed ++ pending).map (·.id)).Nodup := by
  have happart : ((completed ++ pending).map (·.id)).Nodup ↔
      (completed.map (·.id)).Nodup ∧ (pending.map (·.id)).Nodup ∧
        ∀ step ∈ pending, step.id ∉ (completed.map (·.id)).reverse := by
    rw [map_append, nodup_append']
    refine and_congr_right fun _ => and_congr_right fun _ => ?_
    simp only [List.Disjoint, mem_map, mem_reverse]
    constructor
    · rintro h step hstep hmem
      exact h hmem ⟨step, hstep, rfl⟩
    · rintro h _ hmem ⟨step, hstep, rfl⟩
      exact h step hstep hmem
  simp only [validatePlanSteps, run_ok_iff, validateSteps_ok_iff, append_nil, not_mem_nil,
    not_false_eq_true, implies_true, true_and]
  rw [happart]
  constructor
  · rintro ⟨_, ⟨hcompleted, hnodup, rfl⟩, _, ⟨hpending, hnodup', hfresh, -⟩, -⟩
    exact ⟨hcompleted, hpending, hnodup, hnodup', hfresh⟩
  · rintro ⟨hcompleted, hpending, hnodup, hnodup', hfresh⟩
    exact ⟨_, ⟨hcompleted, hnodup, rfl⟩, _, ⟨hpending, hnodup', hfresh, rfl⟩, trivial⟩

variable {value : Snapshot}

/-- **The accepted snapshots.** -/
theorem validateSnapshot_ok_iff : validateSnapshot value.normalized = .ok u ↔ value.Valid := by
  have hsteps := (((sortOn_perm (fun step : PlanStepSnapshot => latin step.id)
    value.completedPlanSteps).append (sortOn_perm (fun step : PlanStepSnapshot => latin step.id)
      value.pendingPlanSteps)).map (·.id)).nodup_iff
  -- the checks first, and then what the sort does to them
  simp only [validateSnapshot, run_ok_iff, exists_const]
  simp only [Snapshot.normalized, length_sortOn, isEmpty_sortOn, validateDirtyFiles_sorted_ok_iff,
    validatePlanSteps_ok_iff, validateAmbiguousActions_sorted_ok_iff, mem_sortOn, hsteps,
    exists_const]
  constructor
  · rintro ⟨hversion, hids, hplan, ⟨hbase, hhead, hpreserved⟩, hdiff, hfiles, ⟨hsome, hbound⟩,
      hflag,
      hactions, ⟨hfile, hpaths⟩, ⟨hcompleted, hpending, hdistinct⟩, ⟨⟩, hbudget, hpolicy, htools,
      hconfiguration, hprovider, haction, hactionIDs⟩
    exact ⟨hversion, hids, hplan, hbase, hhead, hpreserved, hdiff, ⟨hfiles, hfile, hpaths⟩,
      ⟨hsome, hbound, hcompleted, hpending, hdistinct⟩, hflag, ⟨hactions, haction, hactionIDs⟩,
      hbudget, hpolicy, htools, hconfiguration, hprovider⟩
  · rintro h
    exact ⟨h.version, h.identities, h.plan, ⟨h.base, h.head, h.preserved⟩, h.diff, h.files.bound,
      ⟨h.steps.some_step, h.steps.bound⟩, h.flag, h.actions.bound,
      ⟨h.files.valid, h.files.distinct⟩,
      ⟨h.steps.completed_valid, h.steps.pending_valid, h.steps.distinct⟩, (), h.budget, h.policy,
      h.tools, h.configuration, h.provider, h.actions.valid, h.actions.distinct⟩

theorem normalized_normalized (value : Snapshot) :
    value.normalized.normalized = value.normalized := by
  simp [Snapshot.normalized, sortOn_sortOn]

theorem Snapshot.Valid.normalized (h : value.Valid) : value.normalized.Valid := by
  rw [← validateSnapshot_ok_iff (u := ()), normalized_normalized]
  exact validateSnapshot_ok_iff.2 h

/-- **Canonical states.** The snapshot is valid and can be encoded. -/
theorem canonicalize_ok_iff {host : Host} {state : CanonicalState} :
    canonicalize host value = .ok state ↔
      value.Valid ∧ ∃ encoded, host.marshal value.normalized = .ok encoded ∧
        ⟨value.normalized, encoded, host.digest encoded⟩ = state := by
  simp [canonicalize, validateSnapshot_ok_iff]

end Accepted

/-! ### The JSON text of a snapshot -/

/-- A JSON string. Of what `encoding/json` escapes, only a lone invalid byte is escaped here. -/
def jsonString (s : Bytes) : Bytes := bytes "\"" ++ toValidUTF8 s (bytes "\\ufffd") ++ bytes "\""

/-- Values between two brackets. -/
def jsonList (opening closing : String) (values : List Bytes) : Bytes :=
  bytes opening ++ (values.intersperse (bytes ",")).flatten ++ bytes closing

/-- A JSON object. -/
def jsonObject (members : List (String × Bytes)) : Bytes :=
  jsonList "\x7b" "\x7d" (members.map fun (name, value) =>
    jsonString (bytes name) ++ bytes ":" ++ value)

/-- A number or a truth value. -/
def jsonPlain {α : Type} [ToString α] (value : α) : Bytes := bytes (toString value)

/-- The JSON of a dirty file. -/
def DirtyFileHash.encoded (file : DirtyFileHash) : Bytes :=
  jsonObject ([("path", jsonString file.path), ("exists", jsonPlain file.fileExists)] ++
    if file.sha256 = [] then [] else [("sha256", jsonString file.sha256)])

/-- The JSON of a step. -/
def PlanStepSnapshot.encoded (step : PlanStepSnapshot) : Bytes :=
  jsonObject [("id", jsonString step.id), ("state", jsonString (bytes step.state.toText))]

/-- The JSON of a cost. -/
def ExactCost.encoded (cost : ExactCost) : Bytes :=
  jsonObject [("currency", jsonString (bytes cost.currency)),
    ("numerator", jsonPlain cost.numerator), ("denominator", jsonPlain cost.denominator)]

/-- The JSON of a budget position. -/
def BudgetPosition.encoded (budget : BudgetPosition) : Bytes :=
  jsonObject [("budget_id", jsonString (bytes budget.budgetID.value)),
    ("snapshot_revision", jsonPlain budget.snapshotRevision),
    ("limit_revision", jsonPlain budget.limitRevision),
    ("reserved_cost", budget.reservedCost.encoded),
    ("charged_cost", budget.chargedCost.encoded),
    ("actual_known_cost", budget.actualKnownCost.encoded),
    ("cost_accounting_unknown", jsonPlain budget.costAccountingUnknown),
    ("reserved_tokens", jsonPlain budget.reservedTokens),
    ("charged_tokens", jsonPlain budget.chargedTokens),
    ("actual_tokens", jsonPlain budget.actualTokens),
    ("token_accounting_unknown", jsonPlain budget.tokenAccountingUnknown),
    ("provider_call_slots", jsonPlain budget.providerCallSlots),
    ("reconciliation_pending", jsonPlain budget.reconciliationPending)]

/-- The JSON of a provider binding. -/
def ProviderBinding.encoded (provider : ProviderBinding) : Bytes :=
  jsonObject [("settings_revision", jsonPlain provider.settingsRevision),
    ("run_configuration_sha256", jsonString provider.runConfigurationSHA256),
    ("adapter", jsonString provider.adapter),
    ("adapter_version", jsonString provider.adapterVersion),
    ("provider", jsonString provider.provider),
    ("provider_version", jsonString provider.providerVersion),
    ("model", jsonString provider.model), ("model_revision", jsonString provider.modelRevision)]

/-- The JSON of an action. -/
def AmbiguousExternalAction.encoded (action : AmbiguousExternalAction) : Bytes :=
  jsonObject ([("action_id", jsonString action.actionID), ("kind", jsonString action.kind),
    ("intent_sha256", jsonString action.intentSHA256)] ++
    if action.toolRequestID = [] then [] else
      [("tool_request_id", jsonString action.toolRequestID)])

/-- The text of a snapshot whose lists are not nil. -/
def Snapshot.encoded (value : Snapshot) : Bytes :=
  jsonObject [("schema_version", jsonPlain value.schemaVersion),
    ("task_id", jsonString (bytes value.taskID.value)),
    ("run_id", jsonString (bytes value.runID.value)),
    ("repository_id", jsonString (bytes value.repositoryID.value)),
    ("worktree_binding_revision", jsonPlain value.worktreeBindingRevision),
    ("plan_revision", jsonPlain value.planRevision),
    ("base_revision", jsonString value.baseRevision),
    ("worktree_head", jsonString value.worktreeHead),
    ("preserved_revision", jsonString value.preservedRevision),
    ("dirty_files", jsonList "[" "]" (value.dirtyFiles.map (·.encoded))),
    ("diff_sha256", jsonString value.diffSHA256),
    ("completed_plan_steps", jsonList "[" "]" (value.completedPlanSteps.map (·.encoded))),
    ("pending_plan_steps", jsonList "[" "]" (value.pendingPlanSteps.map (·.encoded))),
    ("budget", value.budget.encoded),
    ("policy", jsonObject [("revision", jsonPlain value.policy.revision),
      ("version", jsonString value.policy.version),
      ("content_sha256", jsonString value.policy.contentSHA256)]),
    ("provider", value.provider.encoded),
    ("tools", jsonObject [("schema_version", jsonPlain value.tools.schemaVersion),
      ("catalog_sha256", jsonString value.tools.catalogSHA256)]),
    ("last_durable_event_sequence", jsonPlain value.lastDurableEventSequence),
    ("external_outcome_ambiguous", jsonPlain value.externalOutcomeAmbiguous),
    ("ambiguous_external_actions",
      jsonList "[" "]" (value.ambiguousExternalActions.map (·.encoded)))]

/-- A task. -/
def sampleTaskID : TaskID :=
  ⟨"tsk_0190a5b0-0000-7000-8000-000000000061", .inr (by decide)⟩

/-- A repository. -/
def sampleRepositoryID : RepositoryID :=
  ⟨"repo_0190a5b0-0000-7000-8000-000000000063", .inr (by decide)⟩

/-- A budget. -/
def sampleBudgetID : BudgetID :=
  ⟨"bdg_0190a5b0-0000-7000-8000-000000000064", .inr (by decide)⟩

/-- A hash of zeros. -/
def zeroSHA256 : Bytes := List.replicate 64 0x30

/-- A commit of zeros. -/
def zeroRevision : Bytes := List.replicate 40 0x30

/-- No cost. -/
def sampleCost : ExactCost := ⟨"USD", 0, 1⟩

/-- A run with one pending step and the given changed files. -/
def sampleSnapshot (files : List DirtyFileHash) : Snapshot where
  schemaVersion := 1
  taskID := sampleTaskID
  runID := ⟨"run_0190a5b0-0000-7000-8000-000000000062", .inr (by decide)⟩
  repositoryID := sampleRepositoryID
  worktreeBindingRevision := 1
  planRevision := 1
  baseRevision := zeroRevision
  worktreeHead := zeroRevision
  preservedRevision := zeroRevision
  dirtyFiles := files
  diffSHA256 := zeroSHA256
  completedPlanSteps := []
  pendingPlanSteps := [⟨bytes "step-1", .declared .pending⟩]
  budget := ⟨sampleBudgetID, 1, 1, sampleCost, sampleCost, sampleCost, false, 0, 0, 0, false, 0,
    false⟩
  policy := ⟨1, bytes "v1", zeroSHA256⟩
  provider := ⟨1, zeroSHA256, bytes "open", bytes "1", bytes "local", bytes "1", bytes "small",
    bytes "1"⟩
  tools := ⟨1, zeroSHA256⟩
  lastDurableEventSequence := 4
  externalOutcomeAmbiguous := false
  ambiguousExternalActions := []

end Codeflux.Checkpoint
