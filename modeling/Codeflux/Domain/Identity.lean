import Codeflux.Domain.Failure

/-!
# Stable identities

An identity is a type prefix and a UUID of version 7 in canonical lowercase form. The source keeps
the text in an unexported field that only the parser fills, so a value is either zero or canonical.
-/

namespace Codeflux.Domain

open Library Go

/-- The kinds of identity. -/
inductive IDKind
  | workspace | session | thread | message | task | run | event | checkpoint | approval
  | graphRevision | validation | budget | project | repository | graph | node | edge | evidence
  | episode | memoryArtifact | memoryArtifactRevision | modelRequest

/-- The type prefix of an identity's text. -/
def IDKind.tag : IDKind → String
  | .workspace => "wsp"
  | .session => "ses"
  | .thread => "thr"
  | .message => "msg"
  | .task => "tsk"
  | .run => "run"
  | .event => "evt"
  | .checkpoint => "ckp"
  | .approval => "apr"
  | .graphRevision => "grv"
  | .validation => "val"
  | .budget => "bdg"
  | .project => "prj"
  | .repository => "repo"
  | .graph => "grf"
  | .node => "nod"
  | .edge => "edg"
  | .evidence => "evd"
  | .episode => "epi"
  | .memoryArtifact => "mem"
  | .memoryArtifactRevision => "mrv"
  | .modelRequest => "mrq"

/-- The kind's name in error texts. -/
def IDKind.label : IDKind → String
  | .workspace => "workspace"
  | .session => "session"
  | .thread => "thread"
  | .message => "message"
  | .task => "task"
  | .run => "run"
  | .event => "event"
  | .checkpoint => "checkpoint"
  | .approval => "approval"
  | .graphRevision => "graph revision"
  | .validation => "validation"
  | .budget => "budget"
  | .project => "project"
  | .repository => "repository"
  | .graph => "graph"
  | .node => "node"
  | .edge => "edge"
  | .evidence => "evidence"
  | .episode => "episode"
  | .memoryArtifact => "memory artifact"
  | .memoryArtifactRevision => "memory artifact revision"
  | .modelRequest => "model request"

/-- Is it a lower-case hexadecimal digit? -/
def isLowerHex (character : Char) : Bool :=
  ('0' ≤ character && character ≤ '9') || ('a' ≤ character && character ≤ 'f')

/-- The payload's characters in turn: separators at four places, hexadecimal digits elsewhere. -/
def checkUUIDCharacter (index : Nat) (character : Char) : Except String Unit :=
  if index ∈ [8, 13, 18, 23] then
    ensure (character = '-') "UUIDv7 payload has misplaced separators"
  else
    ensure (isLowerHex character) "UUIDv7 payload must use canonical lowercase hexadecimal"

/-- Check a UUID of version 7. -/
def validateUUIDv7 (value : String) : Except String Unit := do
  ensure (byteLength value = 36) "UUIDv7 payload must contain 36 characters"
  value.toList.zipIdx.forM fun entry => checkUUIDCharacter entry.2 entry.1
  ensure (value.toList[14]? = some '7') "UUID payload is not version 7"
  ensure (value.toList[19]? ∈ ['8', '9', 'a', 'b'].map some)
    "UUIDv7 payload has an invalid RFC 9562 variant"

/-- The checks of `parseTypedID` on the raw text. -/
def checkTypedID (kind : IDKind) (raw : String) : Result Unit := do
  ensure (raw ≠ "") (.identity kind.label "" "value must not be empty")
  match trimPrefix? (kind.tag ++ "_") raw with
  | none => .error (.identity kind.label raw "wrong type prefix")
  | some payload => (validateUUIDv7 payload).mapError (.identity kind.label raw)

/-- An identity of one kind: zero, or canonical text. -/
structure TypedID (kind : IDKind) where
  value : String
  canonical : value = "" ∨ checkTypedID kind value = .ok ()
deriving DecidableEq

-- A name for what every membership test would otherwise prove anew.
instance {kind : IDKind} : LawfulBEq (TypedID kind) := inferInstance

namespace TypedID

variable {kind : IDKind}

/-- The zero value, before any identity is assigned. -/
def zero : TypedID kind := ⟨"", .inl rfl⟩

/-- Is it the zero value? -/
def isZero (id : TypedID kind) : Bool := id.value == ""

@[ext] theorem ext {a b : TypedID kind} (h : a.value = b.value) : a = b := by
  cases a
  cases b
  cases h
  rfl

end TypedID

/-- Parse an identity of one kind. -/
def parseTypedID (kind : IDKind) (raw : String) : Result (TypedID kind) :=
  match h : checkTypedID kind raw with
  | .ok () => .ok ⟨raw, .inr h⟩
  | .error e => .error e

theorem parseTypedID_value {kind : IDKind} (id : TypedID kind) (h : id.isZero = false) :
    parseTypedID kind id.value = .ok id := by
  have hne : id.value ≠ "" := by
    intro hz
    simp [TypedID.isZero, hz] at h
  have hok := id.canonical.resolve_left hne
  unfold parseTypedID
  split
  · rfl
  · next e he =>
    rw [hok] at he
    cases he

/-- A workspace. -/
abbrev WorkspaceID := TypedID .workspace
/-- A session. -/
abbrev SessionID := TypedID .session
/-- A thread. -/
abbrev ThreadID := TypedID .thread
/-- A message. -/
abbrev MessageID := TypedID .message
/-- A task. -/
abbrev TaskID := TypedID .task
/-- A run of a task. -/
abbrev RunID := TypedID .run
/-- An event. -/
abbrev EventID := TypedID .event
/-- A checkpoint. -/
abbrev CheckpointID := TypedID .checkpoint
/-- An approval. -/
abbrev ApprovalID := TypedID .approval
/-- A graph revision. -/
abbrev GraphRevisionID := TypedID .graphRevision
/-- A validation. -/
abbrev ValidationID := TypedID .validation
/-- A budget. -/
abbrev BudgetID := TypedID .budget
/-- A project. -/
abbrev ProjectID := TypedID .project
/-- A repository. -/
abbrev RepositoryID := TypedID .repository
/-- A graph. -/
abbrev GraphID := TypedID .graph
/-- A graph node. -/
abbrev NodeID := TypedID .node
/-- A graph edge. -/
abbrev EdgeID := TypedID .edge
/-- A piece of evidence. -/
abbrev EvidenceID := TypedID .evidence
/-- An episode. -/
abbrev EpisodeID := TypedID .episode
/-- A memory artifact. -/
abbrev MemoryArtifactID := TypedID .memoryArtifact
/-- A revision of one. -/
abbrev MemoryArtifactRevisionID := TypedID .memoryArtifactRevision
/-- A model request. -/
abbrev ModelRequestID := TypedID .modelRequest

end Codeflux.Domain
