import Codeflux.Domain.Identity
import Codeflux.Gitwork.Worktree
import Mathlib.Data.List.Sort

/-!
# Edit batches

A batch of file mutations is applied after a complete preflight. Every expected snapshot is read
again immediately before its mutation, and on failure the rollback restores each path the preflight
captured.
-/

namespace Codeflux.Gitwork

open Library Go Domain

/-- The most mutations of a batch. -/
def maximumEditBatchMutations : Nat := 100

/-- So many deletions need an approval. -/
def broadDeleteFileCount : Nat := 10

/-- So many deleted bytes need an approval. -/
def largeDeleteBytes : Nat := 256 * 2 ^ 10

/-- The operations of a mutation; any other text is invalid. -/
inductive MutationOperation
  | create | update | rename | delete
  | other (text : String)
deriving DecidableEq

/-- The text of an operation. -/
def MutationOperation.text : MutationOperation → String
  | .create => "create"
  | .update => "update"
  | .rename => "rename"
  | .delete => "delete"
  | .other text => text

/-- One filesystem mutation with an exact existence or content-hash precondition. -/
structure FileMutation where
  operation : MutationOperation
  (path newPath : String)
  content : Bytes
  expectedSHA256 : String
  (expectAbsent formatterChanged : Bool)

/-- A batch of mutations for one task. -/
structure ApplyEditBatchInput where
  taskID : TaskID
  mutations : List FileMutation
  largeDeleteApproved : Bool

/-- The before and after identities of a mutation. -/
structure FileMutationResult where
  operation : MutationOperation
  (path newPath beforeSHA256 afterSHA256 : String)
deriving DecidableEq

/-- Counts and a digest, without source content or path text. -/
structure RedactedEditSummary where
  taskID : TaskID
  batchSHA256 : String
  (created updated renamed deleted fileCount : Nat)
deriving DecidableEq

/-- What a batch that was applied returns. -/
structure EditBatchResult where
  results : List FileMutationResult
  summary : RedactedEditSummary
  changedPaths : List String
deriving DecidableEq

/-- What the service consults besides the worktree: the verification of the task's worktree, and
whether an edit event recorder is bound. -/
structure Service where
  verifyTaskWorktree : TaskID → Result WorktreeBindingState
  hasRecorder : Bool

/-- `validateObjectID`: the form of a Git object name. -/
def validateObjectID (value : String) : Result Unit := do
  ensure ((byteLength value = 40 ∨ byteLength value = 64) ∧ value.toList.all isLowerHex)
    (.new "git object ID must contain 40 or 64 lowercase hexadecimal characters")

section

variable (mutation : FileMutation)

/-- The preconditions a mutation of the given operation has to carry. -/
def validateOperation : Result Unit :=
  match mutation.operation with
  | .create =>
    ensure (mutation.expectAbsent ∧ mutation.expectedSHA256 = "" ∧ mutation.newPath = "")
      (.new "create requires only an absence precondition")
  | .update =>
    ensure (¬mutation.expectAbsent ∧ mutation.newPath = "")
      (.new "update requires one expected content hash")
  | .rename =>
    ensure (¬mutation.expectAbsent ∧ mutation.newPath ≠ "" ∧ mutation.content = [])
      (.new "rename requires source hash and absent destination")
  | .delete =>
    ensure (¬mutation.expectAbsent ∧ mutation.newPath = "" ∧ mutation.content = [])
      (.new "delete requires one expected content hash")
  | .other _ => .error (.new "mutation operation is invalid")

/-- What a mutation has to satisfy by itself. -/
def validateMutation : Result Unit := do
  validateOperation mutation
  ensure (mutation.operation = .create ∨ validateObjectID mutation.expectedSHA256 = .ok () ∧
    byteLength mutation.expectedSHA256 = 64)
    (.new "expected content hash must be a lowercase SHA-256")
  ensure (mutation.operation = .create ∨ mutation.operation = .update → Editable mutation.content)
    errUnsupportedBinary

/-- A mutation against what is at its path. -/
def verifyMutationPrecondition (snapshot : FileSnapshot) : Result Unit :=
  if mutation.operation = .create then ensure (¬snapshot.present) errEditConflict
  else ensure (snapshot.present ∧ snapshot.sha256 = mutation.expectedSHA256) errEditConflict

/-- The paths that a mutation touches. -/
def mutationPaths : List String :=
  if mutation.operation = .rename then [mutation.path, mutation.newPath] else [mutation.path]

end

/-- The paths of a batch. -/
def ApplyEditBatchInput.paths (input : ApplyEditBatchInput) : List String :=
  input.mutations.flatMap mutationPaths

/-! ### Steps on the worktree -/

/-- `writeAtomic` as one step that succeeds or fails without effect. The temporary file it makes
beside the path is left out: it is gone afterwards unless its removal fails too. -/
def writeAtomic (path : String) (content : Bytes) (mode : Nat) : Effect World Failure Unit :=
  fileStep fun w => (.ok (), w.put path (some ⟨content, mode⟩))

/-- `os.Remove`. -/
def removeFile (path : String) : Effect World Failure Unit :=
  fileStep fun w =>
    if w.tree path = none then (.error errNotExist, w) else (.ok (), w.put path none)

/-- `os.Rename`, which replaces a file at the destination. -/
def renameFile (source destination : String) : Effect World Failure Unit :=
  fileStep fun w =>
    match w.tree source with
    | none => (.error errNotExist, w)
    | some file => (.ok (), (w.put source none).put destination (some file))

/-- The error `context: cause` in place of a failure. -/
def wrapping {α : Type} (context : String) (m : Effect World Failure α) : Effect World Failure α :=
  m.recover fun e => Effect.fail (.wrap context e)

/-- Every line ends in CRLF. -/
def normalizeCRLF (content : Bytes) : Bytes :=
  replaceAll (replaceAll content [0x0D, 0x0A] [0x0A]) [0x0A] [0x0D, 0x0A]

/-- The content and mode a create or update writes over `before`. -/
def writtenFile (mutation : FileMutation) (before : FileSnapshot) : File :=
  if before.present then
    if before.newlines = some .crlf ∧ ¬mutation.formatterChanged then
      ⟨normalizeCRLF mutation.content, before.mode⟩
    else ⟨mutation.content, before.mode⟩
  else ⟨mutation.content, 0o644⟩

section Digest

variable (sha256 : Bytes → String) (binding : WorktreeBindingState)

/-- Applies one mutation to the file that was read. -/
def applyFileMutation (mutation : FileMutation)
    (before : FileSnapshot) : Effect World Failure FileMutationResult := do
  let source ← Effect.lift (resolveTaskPath binding mutation.path)
  let result : FileMutationResult :=
    ⟨mutation.operation, mutation.path, mutation.newPath, before.sha256, ""⟩
  match mutation.operation with
  | .create | .update =>
    let file := writtenFile mutation before
    writeAtomic source file.content file.mode
    pure { result with afterSHA256 := sha256 file.content }
  | .rename =>
    let destination ← Effect.lift (resolveTaskPath binding mutation.newPath)
    wrapping "rename task file" (renameFile source destination)
    pure { result with afterSHA256 := before.sha256 }
  | .delete =>
    wrapping "delete task file" (removeFile source)
    pure result
  | .other _ => pure result

/-! ### The preflight -/

/-- What the preflight has collected. The originals are a map from paths to snapshots. -/
structure Preflight where
  originals : List (String × FileSnapshot)
  (deleteFiles deleteBytes : Nat)

variable (originals : List (String × FileSnapshot))

/-- The snapshot of a path, and the zero snapshot of a path that was not captured. -/
def snapshotAt (path : String) : FileSnapshot :=
  (originals.lookup path).getD (.absent "")

/-- Captures the paths of one mutation. -/
def capturePaths (binding : WorktreeBindingState) :
    List (String × FileSnapshot) → List String →
      Effect World Failure (List (String × FileSnapshot))
  | originals, [] => pure originals
  | originals, path :: rest =>
    if path ∈ originals.map Prod.fst then Effect.fail (.new "edit batch repeats a path")
    else do
      let snapshot ← readFileAtRevision sha256 binding path
      capturePaths binding (originals ++ [(path, snapshot)]) rest

/-- Checks one mutation and captures its paths. -/
def preflightMutation (pf : Preflight) (index : Nat)
    (mutation : FileMutation) : Effect World Failure Preflight := do
  wrapping ("mutation " ++ toString index) (Effect.lift (validateMutation mutation))
  let originals ← capturePaths sha256 binding pf.originals (mutationPaths mutation)
  Effect.lift (verifyMutationPrecondition mutation (snapshotAt originals mutation.path))
  Effect.lift (ensure (mutation.operation = .rename →
    ¬(snapshotAt originals mutation.newPath).present) errEditConflict)
  if mutation.operation = .delete then
    pure ⟨originals, pf.deleteFiles + 1,
      pf.deleteBytes + (snapshotAt originals mutation.path).content.length⟩
  else pure { pf with originals }

/-- Checks the mutations in turn, before the first of them is applied. -/
def preflight (binding : WorktreeBindingState) :
    Nat → Preflight → List FileMutation → Effect World Failure Preflight
  | _, pf, [] => pure pf
  | index, pf, mutation :: rest => do
    let pf ← preflightMutation sha256 binding pf index mutation
    preflight binding (index + 1) pf rest

/-! ### Mutations and rollback -/

/-- Reads each path again, compares it with the captured snapshot and applies the mutation. -/
def applyMutations (binding : WorktreeBindingState) (originals : List (String × FileSnapshot)) :
    List FileMutation → Effect World Failure (List FileMutationResult)
  | [] => pure []
  | mutation :: rest => do
    let current ← readFileAtRevision sha256 binding mutation.path
    if detectConcurrentUserChanges (snapshotAt originals mutation.path) current then
      Effect.fail errEditConflict
    else do
      let result ← applyFileMutation sha256 binding mutation current
      let results ← applyMutations binding originals rest
      pure (result :: results)

/-- Puts one captured path back. A path that had no file is removed, and it does not matter if
there is nothing to remove. -/
def restoreSnapshot (path : String) (snapshot : FileSnapshot) : Effect World Failure Unit := do
  let resolved ← Effect.lift (resolveTaskPath binding path)
  if snapshot.present then
    wrapping "restore task file" (writeAtomic resolved snapshot.content snapshot.mode)
  else
    (removeFile resolved).recover fun e =>
      if Failure.Is errNotExist e then pure ()
      else Effect.fail (.wrap "remove rolled-back task file" e)

/-- Restores captured paths one after the other and collects the errors. -/
def restoreEach (binding : WorktreeBindingState) :
    List (String × FileSnapshot) → Effect World (List Failure) (List Failure)
  | [] => pure []
  | (path, snapshot) :: rest => do
    let failed ← (restoreSnapshot binding path snapshot >>= fun _ => pure []).recover
      fun e => pure [e]
    let more ← restoreEach binding rest
    pure (failed ++ more)

/-- What was absent, then what was there, each in the order of the paths. -/
def restoreOrder : List (String × FileSnapshot) :=
  let sorted := originals.insertionSort fun x y => x.1 ≤ y.1
  sorted.filter (!·.2.present) ++ sorted.filter (·.2.present)

/-- Removes what was absent and rewrites what was there. -/
def restoreSnapshots : Effect World (List Failure) (List Failure) :=
  restoreEach binding (restoreOrder originals)

/-! ### The batch -/

/-- The summary of a batch that was applied. -/
def summarizeEditBatch (taskID : TaskID) (results : List FileMutationResult) :
    RedactedEditSummary where
  taskID
  batchSHA256 := sha256 (results.flatMap fun result =>
    bytes result.operation.text ++ [0] ++ bytes result.path ++ [0] ++ bytes result.newPath ++ [0] ++
      bytes result.beforeSHA256 ++ [0] ++ bytes result.afterSHA256 ++ [0])
  created := results.countP (·.operation = .create)
  updated := results.countP (·.operation = .update)
  renamed := results.countP (·.operation = .rename)
  deleted := results.countP (·.operation = .delete)
  fileCount := results.length

/-- The part of the batch that rolls back. The recorder is a step without effect on the worktree. -/
def mutateAndRecord (input : ApplyEditBatchInput)
    (originals : List (String × FileSnapshot)) : Effect World Failure EditBatchResult := do
  let results ← applyMutations sha256 binding originals input.mutations
  let summary := summarizeEditBatch sha256 input.taskID results
  wrapping "record edit summary" (fileStep fun w => (.ok (), w))
  pure ⟨results, summary, (originals.map Prod.fst).insertionSort (· ≤ ·)⟩

/-- The checks before the first mutation. -/
def checkBatch (service : Service) (input : ApplyEditBatchInput) :
    Effect World Failure (WorktreeBindingState × List (String × FileSnapshot)) := do
  Effect.lift (ensure (¬input.taskID.isZero) (.new "task ID must not be empty"))
  Effect.lift (ensure (input.mutations ≠ [] ∧ input.mutations.length ≤ maximumEditBatchMutations)
    (.new "edit batch size is outside supported bounds"))
  Effect.lift (ensure service.hasRecorder (.new "edit event recorder is required"))
  let binding ← Effect.lift (service.verifyTaskWorktree input.taskID)
  let pf ← preflight sha256 binding 0 ⟨[], 0, 0⟩ input.mutations
  Effect.lift (ensure (input.largeDeleteApproved ∨
    pf.deleteFiles < broadDeleteFileCount ∧ pf.deleteBytes < largeDeleteBytes) errApprovalRequired)
  pure (binding, pf.originals)

/-- `Service.ApplyEditBatch`. The errors are those `errors.Join` joins: the one that stopped the
batch, then those of the rollback. -/
def applyEditBatch (service : Service) (input : ApplyEditBatchInput) :
    Effect World (List Failure) EditBatchResult := do
  let checked ← (checkBatch sha256 service input).recover fun e => Effect.fail [e]
  (mutateAndRecord sha256 checked.1 input checked.2).recover fun e => do
    let errors ← restoreSnapshots checked.1 checked.2
    Effect.fail (e :: errors)

end Digest

end Codeflux.Gitwork
