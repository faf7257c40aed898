import Codeflux.Library.OpenEnum
import Codeflux.Domain.Identity
import Codeflux.Go.Bytes
import Codeflux.Go.Path

/-!
# Tool requests

A tool request names one tool of the catalog, its ordered arguments, the directory it runs in and
the effects it declares. Names, effects and authority classes are strings of the source, so a
request may carry undeclared ones.
-/

namespace Codeflux.Executor

open Library Go Domain

/-- Functions of the host's libraries that the model leaves open; `%q` quotes a byte sequence. -/
structure Host where
  (sha256 toLower : String → String)
  quote : Bytes → String

/-- The version of the protocol. -/
def toolSchemaVersion : Int := 1

/-! ### Tools, authorities and effects -/

/-- The versioned internal tools. -/
inductive ToolName
  | readFile | listDirectory | searchText | searchSymbol | applyEdit | applyPatch | inspectDiff
  | runCommand | gitStatus | gitHistory | test | build | format | staticAnalysis | pluginRPC
deriving DecidableEq

instance : Declared ToolName where
  all := [.readFile, .listDirectory, .searchText, .searchSymbol, .applyEdit, .applyPatch,
    .inspectDiff, .runCommand, .gitStatus, .gitHistory, .test, .build, .format, .staticAnalysis,
    .pluginRPC]
  text
    | .readFile => "read-file"
    | .listDirectory => "list-directory"
    | .searchText => "search-text"
    | .searchSymbol => "search-symbol"
    | .applyEdit => "apply-edit"
    | .applyPatch => "apply-patch"
    | .inspectDiff => "inspect-diff"
    | .runCommand => "run-command"
    | .gitStatus => "git-status"
    | .gitHistory => "git-history"
    | .test => "test"
    | .build => "build"
    | .format => "format"
    | .staticAnalysis => "static-analysis"
    | .pluginRPC => "plugin-rpc"

/-- The authority an effect requires. -/
inductive AuthorityClass
  | automaticRead | taskWrite | network | dependencyInstall | externalWrite | credential
  | destructive | privileged | externalCommunication
deriving DecidableEq

instance : Declared AuthorityClass where
  all := [.automaticRead, .taskWrite, .network, .dependencyInstall, .externalWrite, .credential,
    .destructive, .privileged, .externalCommunication]
  text
    | .automaticRead => "automatic-read"
    | .taskWrite => "task-write"
    | .network => "network"
    | .dependencyInstall => "dependency-install"
    | .externalWrite => "external-write"
    | .credential => "credential"
    | .destructive => "destructive"
    | .privileged => "privileged"
    | .externalCommunication => "external-communication"

/-- The declared effects of a tool. -/
inductive SideEffect
  | repositoryRead | taskWorktreeWrite | network | dependencyInstall | externalWrite
  | credentialAccess | destructive | privileged | externalCommunication | subprocess
deriving DecidableEq

instance : Declared SideEffect where
  all := [.repositoryRead, .taskWorktreeWrite, .network, .dependencyInstall, .externalWrite,
    .credentialAccess, .destructive, .privileged, .externalCommunication, .subprocess]
  text
    | .repositoryRead => "repository-read"
    | .taskWorktreeWrite => "task-worktree-write"
    | .network => "network"
    | .dependencyInstall => "dependency-install"
    | .externalWrite => "external-write"
    | .credentialAccess => "credential-access"
    | .destructive => "destructive"
    | .privileged => "privileged"
    | .externalCommunication => "external-communication"
    | .subprocess => "subprocess"

/-- One tool of the catalog: the authority it needs and the effects it has by default. -/
structure ToolDescriptor where
  name : ToolName
  defaultAuthority : AuthorityClass
  effects : List SideEffect

/-- Every supported tool, in the order of the names. -/
def toolCatalog : List ToolDescriptor :=
  [⟨.applyEdit, .taskWrite, [.taskWorktreeWrite]⟩,
   ⟨.applyPatch, .taskWrite, [.taskWorktreeWrite]⟩,
   ⟨.build, .automaticRead, [.subprocess, .repositoryRead]⟩,
   ⟨.format, .taskWrite, [.subprocess, .taskWorktreeWrite]⟩,
   ⟨.gitHistory, .automaticRead, [.repositoryRead]⟩,
   ⟨.gitStatus, .automaticRead, [.repositoryRead]⟩,
   ⟨.inspectDiff, .automaticRead, [.repositoryRead]⟩,
   ⟨.listDirectory, .automaticRead, [.repositoryRead]⟩,
   ⟨.pluginRPC, .privileged, [.subprocess]⟩,
   ⟨.readFile, .automaticRead, [.repositoryRead]⟩,
   ⟨.runCommand, .privileged, [.subprocess]⟩,
   ⟨.searchSymbol, .automaticRead, [.repositoryRead]⟩,
   ⟨.searchText, .automaticRead, [.repositoryRead]⟩,
   ⟨.staticAnalysis, .automaticRead, [.subprocess, .repositoryRead]⟩,
   ⟨.test, .automaticRead, [.subprocess, .repositoryRead]⟩]

/-- The first descriptor of a tool in the catalog. -/
def toolDescriptor? (name : OpenEnum ToolName) : Option ToolDescriptor :=
  toolCatalog.find? fun descriptor => descriptor.name = name

theorem toolDescriptor?_isSome (name : ToolName) : (toolDescriptor? name).isSome = true := by
  cases name <;> decide

/-! ### Requests -/

/-- One argument, with its place among the arguments kept. -/
structure ToolArgument where
  (name value : String)
  sensitive : Bool := false

/-- The complete typed execution request. The timeout is in nanoseconds. -/
structure ToolRequest where
  schemaVersion : Int := toolSchemaVersion
  id : String
  taskID : TaskID
  runID : RunID
  name : OpenEnum ToolName
  arguments : List ToolArgument := []
  workingDirectory : String
  timeout : Int
  claimedAuthority : OpenEnum AuthorityClass
  expectedSideEffects : List (OpenEnum SideEffect)
  (idempotencyKey requester : String)
  purposeUntrusted : String := ""

/-- A text that is neither empty nor longer than `limit` bytes. -/
def BoundedText (value : String) (limit : Nat) : Prop := value ≠ "" ∧ byteLength value ≤ limit

instance (value : String) (limit : Nat) : Decidable (BoundedText value limit) :=
  inferInstanceAs (Decidable (_ ∧ _))

/-- Is the tool in the catalog? -/
def validToolName (name : OpenEnum ToolName) : Bool := (toolDescriptor? name).isSome

/-- Check an argument. -/
def validateToolArgument (argument : ToolArgument) : Result Unit :=
  ensure (BoundedText argument.name 255 ∧ byteLength argument.value ≤ 32 * 2 ^ 10)
    (.new "tool argument is invalid")

/-- Check a request. -/
def validateToolRequest (request : ToolRequest) : Result Unit := do
  ensure (request.schemaVersion = toolSchemaVersion) (.new "tool schema version is unsupported")
  ensure (BoundedText request.id 255) (.new "tool request ID is invalid")
  ensure (request.taskID.isZero = false) (.new "tool task ID is required")
  ensure (request.runID.isZero = false) (.new "tool run ID is required")
  ensure (validToolName request.name) (.new "tool name is unsupported")
  ensure (BoundedText request.workingDirectory 4096) (.new "tool working directory is invalid")
  ensure (10 ^ 9 ≤ request.timeout ∧ request.timeout ≤ 30 * 60 * 10 ^ 9)
    (.new "tool timeout is outside supported bounds")
  ensure (BoundedText request.idempotencyKey 255) (.new "tool idempotency key is invalid")
  ensure (BoundedText request.requester 255) (.new "tool requester is invalid")
  ensure (request.claimedAuthority.isValid) (.new "tool authority class is unknown")
  ensure (request.expectedSideEffects ≠ [] ∧ request.expectedSideEffects.length ≤ 16)
    (.new "tool side effects are invalid")
  request.arguments.forM validateToolArgument
  request.expectedSideEffects.forM fun effect =>
    ensure effect.isValid (.new "tool side effect is unknown")

/-- What the checks of a request establish. -/
structure ValidToolRequest (request : ToolRequest) : Prop where
  schemaVersion : request.schemaVersion = toolSchemaVersion
  id : BoundedText request.id 255
  taskID : request.taskID.isZero = false
  runID : request.runID.isZero = false
  name : request.name.isValid = true
  workingDirectory : BoundedText request.workingDirectory 4096
  timeout : 10 ^ 9 ≤ request.timeout ∧ request.timeout ≤ 30 * 60 * 10 ^ 9
  idempotencyKey : BoundedText request.idempotencyKey 255
  requester : BoundedText request.requester 255
  claimedAuthority : request.claimedAuthority.isValid = true
  someEffects : request.expectedSideEffects ≠ [] ∧ request.expectedSideEffects.length ≤ 16
  arguments : ∀ argument ∈ request.arguments,
    BoundedText argument.name 255 ∧ byteLength argument.value ≤ 32 * 2 ^ 10
  effects : ∀ effect ∈ request.expectedSideEffects, effect.isValid = true

@[simp] theorem validToolName_eq (name : OpenEnum ToolName) :
    validToolName name = name.isValid := by
  cases name with
  | declared name => exact toolDescriptor?_isSome name
  | undeclared raw h =>
    rw [validToolName, toolDescriptor?, Option.isSome_eq_false_iff.2]
    · rfl
    · rw [Option.isNone_iff_eq_none, List.find?_eq_none]
      intro descriptor _
      simp

theorem validateToolRequest_ok_iff {request : ToolRequest} {u : Unit} :
    validateToolRequest request = .ok u ↔ ValidToolRequest request := by
  simp only [validateToolRequest, validateToolArgument, run_ok_iff, forM_ok_iff, validToolName_eq,
    exists_const]
  constructor
  · rintro ⟨h₁, h₂, h₃, h₄, h₅, h₆, h₇, h₈, h₉, h₁₀, h₁₁, h₁₂, h₁₃⟩
    exact ⟨h₁, h₂, h₃, h₄, h₅, h₆, h₇, h₈, h₉, h₁₀, h₁₁, h₁₂, h₁₃⟩
  · intro h
    exact ⟨h.schemaVersion, h.id, h.taskID, h.runID, h.name, h.workingDirectory, h.timeout,
      h.idempotencyKey, h.requester, h.claimedAuthority, h.someEffects, h.arguments, h.effects⟩

/-- How much of one argument value a summary shows, in bytes. -/
def maximumSummarizedArgumentBytes : Nat := 160

section Summary

variable (host : Host)

/-- An argument value for display, shortened when it is large. -/
def summarizeArgumentValue (value : String) : String :=
  if byteLength value ≤ maximumSummarizedArgumentBytes then host.quote (bytes value)
  else
    host.quote ((bytes value).take maximumSummarizedArgumentBytes) ++ "… (" ++
      toString (byteLength value) ++ " bytes, sha256 " ++
      String.ofList ((host.sha256 value).toList.take 12) ++ ")"

/-- The purpose on one line, at most 256 bytes of it. -/
def shownPurpose (purpose : String) : Bytes :=
  (bytes (String.ofList (purpose.toList.map fun c => if c = '\r' ∨ c = '\n' then ' ' else c))).take
    256

/-- The display text of a request. It changes no execution field. -/
def userReadableToolSummary (request : ToolRequest) : String :=
  let arguments := request.arguments.map fun argument =>
    argument.name ++ "=" ++
      summarizeArgumentValue host (if argument.sensitive then "[REDACTED]" else argument.value)
  let directory :=
    clean (String.ofList (request.workingDirectory.toList.map fun c => if c = '\\' then '/' else c))
  request.name.toText ++ " in " ++ directory ++ " with [" ++ String.intercalate ", " arguments ++
    "]; stated purpose (untrusted): " ++ host.quote (shownPurpose request.purposeUntrusted)

end Summary

end Codeflux.Executor
