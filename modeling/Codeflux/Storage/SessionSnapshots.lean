import Codeflux.Events.Snapshot
import Codeflux.Go.ByteText
import Codeflux.Storage.SessionJournal

/-!
# Stored session snapshots and the replay from them

A session snapshot is stored as a JSON document, and in columns that repeat some of its fields. A
replay starts with the highest stored snapshot, which is decoded from the document and compared with
the columns. The document has the creation time with its nanoseconds, and the column has it in
microseconds. The encoding replaces what is not valid UTF-8.
-/

namespace Codeflux.Events.SessionSnapshot

open Library Domain Go

variable {ID ID' : IDKind → Type}

/-- The snapshot with its texts as `encoding/json` has them. -/
def coerced (s : SessionSnapshot Bytes ID) : SessionSnapshot Bytes ID :=
  { s with
    checkpoint := s.checkpoint.map fun c => { c with planStep := coerceUTF8 c.planStep }
    validation := s.validation.map fun v =>
      { v with redactedSummary := coerceUTF8 v.redactedSummary } }

/-- The texts of the snapshot are valid UTF-8. -/
def ValidTexts (s : SessionSnapshot Bytes) : Prop :=
  (∀ c ∈ s.checkpoint, validUTF8 c.planStep = true) ∧
    ∀ v ∈ s.validation, validUTF8 v.redactedSummary = true

theorem coerced_eq_self_iff {s : SessionSnapshot Bytes} : s.coerced = s ↔ s.ValidTexts := by
  obtain ⟨_, _, _, _, _, _, _ | ⟨_, _, step⟩, _, _ | ⟨_, _, summary, _, _, _⟩, _, _, _, _, _⟩ := s
  all_goals simp [coerced, ValidTexts, coerceUTF8_eq_self_iff]

/-- The snapshot with its identities encoded or decoded, in the order of the fields. -/
def mapIdentities (f : ∀ kind, ID kind → Result (ID' kind)) (s : SessionSnapshot Bytes ID) :
    Result (SessionSnapshot Bytes ID') := do
  let sessionID ← f _ s.sessionID
  let threadID ← f _ s.threadID
  let taskID ← s.taskID.mapM (f _)
  let checkpoint ← s.checkpoint.mapM fun c => do
    return { c with checkpointID := ← f _ c.checkpointID }
  let validation ← s.validation.mapM fun v => do
    return { v with validationID := ← f _ v.validationID }
  return { s with sessionID, threadID, taskID, checkpoint, validation }

theorem mapM_map_of {α β α' β' : Type} {f : α → Result β} (g : β' → Result α') (e : β → β')
    (e' : α → α') (h : ∀ a b, f a = .ok b → g (e b) = .ok (e' a)) {o : Option α} {o' : Option β}
    (ho : o.mapM f = .ok o') : (o'.map e).mapM g = .ok (o.map e') := by
  cases o with
  | none =>
    cases ho
    rfl
  | some a =>
    rw [Option.mapM_some, map_ok_iff] at ho
    obtain ⟨b, hb, rfl⟩ := ho
    rw [Option.map_some, Option.mapM_some, h a b hb]
    rfl

/-- What undoes the encoding of each identity undoes the encoding of all, whatever became of the
texts. -/
theorem mapIdentities_coerced {f : ∀ kind, ID kind → Result (ID' kind)}
    {g : ∀ kind, ID' kind → Result (ID kind)}
    (h : ∀ kind id raw, f kind id = .ok raw → g kind raw = .ok id) {s : SessionSnapshot Bytes ID}
    {d : SessionSnapshot Bytes ID'} (hs : s.mapIdentities f = .ok d) :
    d.coerced.mapIdentities g = .ok s.coerced ∧ d.createdAt = s.createdAt := by
  simp only [mapIdentities, run_ok_iff] at hs
  obtain ⟨sessionID, hsession, threadID, hthread, taskID, htask, checkpoint, hcheckpoint,
    validation, hvalidation, rfl⟩ := hs
  have htask' := mapM_map_of (g _) id id (h _) htask
  have hcheckpoint' := mapM_map_of
    (fun c => do return { c with checkpointID := ← g _ c.checkpointID })
    (fun c => { c with planStep := coerceUTF8 c.planStep })
    (fun c => { c with planStep := coerceUTF8 c.planStep }) (fun a b hab => by
      simp only [run_ok_iff] at hab
      obtain ⟨id, hid, rfl⟩ := hab
      simp only [h _ _ _ hid, ok_bind]
      rfl) hcheckpoint
  have hvalidation' := mapM_map_of
    (fun v => do return { v with validationID := ← g _ v.validationID })
    (fun v => { v with redactedSummary := coerceUTF8 v.redactedSummary })
    (fun v => { v with redactedSummary := coerceUTF8 v.redactedSummary }) (fun a b hab => by
      simp only [run_ok_iff] at hab
      obtain ⟨id, hid, rfl⟩ := hab
      simp only [h _ _ _ hid, ok_bind]
      rfl) hvalidation
  simp only [Option.map_id_fun, id] at htask'
  simp only [mapIdentities, coerced, h _ _ _ hsession, h _ _ _ hthread, htask', hcheckpoint',
    hvalidation', ok_bind]
  exact ⟨rfl, trivial⟩

end Codeflux.Events.SessionSnapshot

namespace Codeflux.Storage

open Library Go Domain Events SessionStore List

/-- The sentinel of stored data that fails its check. -/
def errCorrupt : Failure := .new "database corrupt"

/-- The years that the JSON text of a time can have: 0 to 9999. -/
def FourDigitYear (t : Timestamp) : Prop :=
  -62167219200 * 10 ^ 9 ≤ t.unixNanos ∧ t.unixNanos < 253402300800 * 10 ^ 9

theorem FourDigitYear.fitsMicros {t : Timestamp} (h : FourDigitYear t) : t.FitsMicros := by
  obtain ⟨hlow, hhigh⟩ := h
  constructor <;> omega

/-- A snapshot as the host has it: its texts are byte sequences. -/
abbrev ByteSnapshot := SessionSnapshot Bytes

/-- A snapshot with the texts of its identities, as `encoding/json` reads and writes it. -/
abbrev SnapshotDocument := SessionSnapshot Bytes fun _ => String

/-- `encoding/json` on snapshots. A text comes back with a replacement rune for each byte that is
part of no rune; a time of another year is not encoded. -/
structure SnapshotJSON where
  encode : SnapshotDocument → Result String
  decode : String → Result SnapshotDocument
  decode_encode : ∀ {d text}, encode d = .ok text → decode text = .ok d.coerced
  year_of_encode : ∀ {d text}, encode d = .ok text → FourDigitYear d.createdAt

/-- `MarshalJSON` of an identity. `UnmarshalJSON` is `parseTypedID`. -/
def marshalIdentity (kind : IDKind) (id : TypedID kind) : Result String := do
  let _ ← parseTypedID kind id.value
  return id.value

namespace SnapshotJSON

variable {json : SnapshotJSON} {s t : ByteSnapshot} {text : String}

/-- `json.Marshal` of a snapshot. -/
def marshal (json : SnapshotJSON) (s : ByteSnapshot) : Result String := do
  json.encode (← s.mapIdentities marshalIdentity)

/-- `json.Unmarshal` to a snapshot. -/
def unmarshal (json : SnapshotJSON) (text : String) : Result ByteSnapshot := do
  (← json.decode text).mapIdentities parseTypedID

theorem parseTypedID_of_marshalIdentity (kind : IDKind) (id : TypedID kind) (raw : String)
    (h : marshalIdentity kind id = .ok raw) : parseTypedID kind raw = .ok id := by
  simp only [marshalIdentity, run_ok_iff] at h
  obtain ⟨parsed, hparsed, rfl⟩ := h
  rw [hparsed]
  unfold parseTypedID at hparsed
  split at hparsed <;> cases hparsed
  exact congrArg Except.ok (TypedID.ext rfl)

theorem unmarshal_marshal (h : json.marshal s = .ok text) :
    json.unmarshal text = .ok s.coerced ∧ FourDigitYear s.createdAt := by
  rw [marshal, bind_ok_iff] at h
  obtain ⟨d, hd, htext⟩ := h
  obtain ⟨hback, htime⟩ := SessionSnapshot.mapIdentities_coerced parseTypedID_of_marshalIdentity hd
  rw [unmarshal, json.decode_encode htext, ok_bind, hback]
  exact ⟨rfl, htime ▸ json.year_of_encode htext⟩

/-- Snapshots with one document differ in what the encoding replaces. -/
theorem coerced_eq_of_marshal (hs : json.marshal s = .ok text) (ht : json.marshal t = .ok text) :
    s.coerced = t.coerced :=
  Except.ok.inj ((unmarshal_marshal hs).1.symm.trans (unmarshal_marshal ht).1)

end SnapshotJSON

/-! ### The tables -/

/-- A row of `session_snapshots`. -/
structure SessionSnapshotRow where
  sessionID : SessionID
  throughSequence : UInt64
  threadID : ThreadID
  taskID : Option TaskID
  taskState : Option (OpenEnum TaskState)
  taskRevision : UInt64
  snapshotVersion : UInt32
  stateJSON : String
  createdMicros : Int

/-- The state column is null exactly when the task column is. -/
def nullableTaskState (taskID : Option TaskID) (state : OpenEnum TaskState) :
    Option (OpenEnum TaskState) :=
  taskID.map fun _ => state

/-- The row of a snapshot with the given document. -/
def SessionSnapshotRow.ofSnapshot (s : ByteSnapshot) (encoded : String) : SessionSnapshotRow :=
  { s with
    taskState := nullableTaskState s.taskID s.taskState
    stateJSON := encoded
    createdMicros := s.createdAt.unixMicro }

/-- The constraints of `session_snapshots`. -/
def sessionSnapshotSchema : Schema SessionSnapshotRow where
  check row :=
    fitsColumn row.throughSequence && fitsColumn row.taskRevision && 0 < row.snapshotVersion &&
    0 ≤ row.createdMicros
  conflict a b := a.sessionID == b.sessionID && a.throughSequence == b.throughSequence
  conflict_comm a b := by rw [BEq.comm (a := a.sessionID), BEq.comm (a := a.throughSequence)]

/-- The journal with its snapshots. The compaction column of a session that has no snapshot is
zero. -/
structure SnapshotStore where
  journal : SessionStore
  compacted : SessionID → UInt64
  snapshots : Table sessionSnapshotSchema

/-- What `ReplaySession` returns. -/
structure SessionReplay where
  snapshot : Option ByteSnapshot
  events : List SessionEvent
  boundary : UInt64
deriving DecidableEq

/-- Does the row hold the snapshot of this session at this sequence? -/
def SessionSnapshotRow.isAt (sessionID : SessionID) (sequence : UInt64)
    (row : SessionSnapshotRow) : Bool :=
  row.sessionID == sessionID && row.throughSequence == sequence

/-- Do the nullable columns repeat the task of the snapshot? -/
def sameNullableSnapshotTask (s : ByteSnapshot) (taskID : Option TaskID)
    (taskState : Option (OpenEnum TaskState)) : Bool :=
  match s.taskID with
  | none => taskID.isNone && taskState.isNone
  | some id => taskID == some id && taskState == some s.taskState

namespace SnapshotStore

/-- The store before any session is created. -/
def empty : SnapshotStore := ⟨.empty, fun _ => 0, .empty⟩

/-- The guards of an insert: the session has a row, which has committed the snapshot's sequence and
is of its thread. -/
def guardSnapshot (s : ByteSnapshot) (store : SnapshotStore) : Result Unit :=
  match store.journal.sessions.rows.find? (·.id == s.sessionID) with
  | none =>
    .error (.typed errConstraint "store session snapshot" (.new "FOREIGN KEY constraint failed"))
  | some row => do
    ensure (s.throughSequence ≤ row.currentSequence) (.typed errConstraint "store session snapshot"
      (.new "session snapshot exceeds committed history"))
    ensure (s.threadID = row.threadID) (.typed errConstraint "store session snapshot"
      (.new "session snapshot thread differs from its session"))

/-- `INSERT … ON CONFLICT(session_id, through_sequence) DO NOTHING`. -/
def insertSnapshot (row : SessionSnapshotRow) (snapshots : Table sessionSnapshotSchema) :
    Result (Table sessionSnapshotSchema) :=
  if snapshots.rows.any (·.isAt row.sessionID row.throughSequence) then .ok snapshots
  else repositoryWriteError "store session snapshot" (snapshots.insert row)

/-- The row whose compaction column a snapshot advances. -/
def compacts (s : ByteSnapshot) (row : SessionRow) : Bool :=
  row.id == s.sessionID && s.throughSequence ≤ row.currentSequence

/-- The compaction column after a snapshot. -/
def advanceCompacted (s : ByteSnapshot) (compacted : SessionID → UInt64) (id : SessionID) :
    UInt64 :=
  if id = s.sessionID ∧ compacted id < s.throughSequence then s.throughSequence else compacted id

/-- `StoreSessionSnapshot`, in one transaction. -/
def storeSessionSnapshot (json : SnapshotJSON) (s : ByteSnapshot) (store : SnapshotStore) :
    Result SnapshotStore := do
  s.validate
  let encoded ← (json.marshal s).mapError (.wrap "marshal session snapshot")
  store.guardSnapshot s
  let snapshots ← insertSnapshot (.ofSnapshot s encoded) store.snapshots
  match snapshots.rows.find? (·.isAt s.sessionID s.throughSequence) with
  | none => .error (.typed errNotFound "read stored session snapshot" errNoRows)
  | some existing =>
    ensure (existing.stateJSON = encoded) (.typed errConflict "store session snapshot"
      (.new "snapshot sequence belongs to different state"))
    ensure ((store.journal.sessions.rows.filter (compacts s)).length = 1)
      (.typed errNotFound "advance session snapshot boundary"
        (.new "session does not contain snapshot sequence"))
    return { store with snapshots, compacted := advanceCompacted s store.compacted }

/-- The stored snapshot of a session with the highest sequence up to `through`: `ORDER BY
through_sequence DESC LIMIT 1`. -/
def latestRow (store : SnapshotStore) (sessionID : SessionID) (through : UInt64) :
    Option SessionSnapshotRow :=
  ((store.snapshots.rows.filter fun row =>
    row.sessionID == sessionID && row.throughSequence ≤ through).insertionSort
      fun a b => b.throughSequence ≤ a.throughSequence).head?

/-- Do the columns of a row repeat the snapshot that its document was decoded to? -/
def SameColumns (sessionID : SessionID) (row : SessionSnapshotRow) (s : ByteSnapshot) : Prop :=
  s.sessionID = sessionID ∧ s.throughSequence = row.throughSequence ∧ s.threadID = row.threadID ∧
    s.taskRevision = row.taskRevision ∧ s.snapshotVersion = row.snapshotVersion ∧
    s.createdAt = ofUnixMicro row.createdMicros ∧
    sameNullableSnapshotTask s row.taskID row.taskState = true

instance (sessionID : SessionID) (row : SessionSnapshotRow) (s : ByteSnapshot) :
    Decidable (SameColumns sessionID row s) :=
  inferInstanceAs (Decidable (_ ∧ _))

/-- What a replay reports when the document and the columns differ. -/
def errSnapshotColumns : Failure :=
  .typed errCorrupt "verify session snapshot columns"
    (.new "snapshot JSON differs from indexed columns")

/-- The highest snapshot up to `through`, decoded and compared with its columns. -/
def loadSessionSnapshot (json : SnapshotJSON) (store : SnapshotStore) (sessionID : SessionID)
    (through : UInt64) : Result ByteSnapshot :=
  match store.latestRow sessionID through with
  | none => .error (.typed errCorrupt "load compacted session snapshot" errNoRows)
  | some row => do
    let s ← (json.unmarshal row.stateJSON).mapError (.wrap "decode session snapshot")
    s.validate
    ensure (SameColumns sessionID row s) errSnapshotColumns
    return s

/-- The events of a replay, which end at its boundary. -/
def replaySessionEventsTransaction (store : SnapshotStore) (sessionID : SessionID)
    (after through : UInt64) (limit : Nat) : List SessionEvent :=
  let rows := (store.journal.history sessionID).filter fun event =>
    after < event.sequence && event.sequence ≤ through
  (rows.insertionSort (·.sequence ≤ ·.sequence)).take limit

/-- `ReplaySession`. -/
def replaySession (json : SnapshotJSON) (store : SnapshotStore) (sessionID : SessionID)
    (afterSequence : UInt64) (limit : Int) : Result SessionReplay := do
  ensure (sessionID.isZero = false) (.new "session ID must not be empty")
  let limit := if limit = 0 then 256 else limit
  ensure (1 ≤ limit ∧ limit ≤ 1000) (.new "session replay limit must be between 1 and 1000")
  match store.journal.sessions.rows.find? (·.id == sessionID) with
  | none => .error (.typed errNotFound "read session replay boundary" errNoRows)
  | some row =>
    let boundary := row.currentSequence
    ensure (afterSequence ≤ boundary) (.typed errStaleRevision "replay session"
      (.new "requested sequence exceeds committed history"))
    if afterSequence < store.compacted sessionID then
      let s ← loadSessionSnapshot json store sessionID (store.compacted sessionID)
      return {
        snapshot := some s
        events := store.replaySessionEventsTransaction sessionID s.throughSequence boundary
          limit.toNat
        boundary }
    else
      return {
        snapshot := none
        events := store.replaySessionEventsTransaction sessionID afterSequence boundary limit.toNat
        boundary }

/-! ### Storing a snapshot -/

variable {json : SnapshotJSON} {s : ByteSnapshot} {store store' : SnapshotStore}

variable {row : SessionSnapshotRow} {id : SessionID} {through : UInt64}

theorem insertSnapshot_ok {snapshots snapshots' : Table sessionSnapshotSchema}
    (h : insertSnapshot row snapshots = .ok snapshots') :
    ((∃ other ∈ snapshots.rows, other.isAt row.sessionID row.throughSequence = true) ∧
        snapshots' = snapshots) ∨
      snapshots'.rows = snapshots.rows ++ [row] := by
  unfold insertSnapshot at h
  split_ifs at h with hany
  · exact .inl ⟨by simpa using hany, by cases h; rfl⟩
  · exact .inr (Table.insert_ok_iff.1 (repositoryWriteError_ok_iff.1 h)).2

/-- What a snapshot that was stored left in the store: a row of its own, which may have been there
before, and the compaction column. -/
structure StoredSnapshot (json : SnapshotJSON) (s : ByteSnapshot) (store store' : SnapshotStore)
    (encoded : String) (row : SessionRow) : Prop where
  valid : s.validate = .ok ()
  marshal : json.marshal s = .ok encoded
  row_mem : row ∈ store.journal.sessions.rows
  row_id : row.id = s.sessionID
  committed : s.throughSequence ≤ row.currentSequence
  journal : store'.journal = store.journal
  compacted : store'.compacted = advanceCompacted s store.compacted
  rows : (∃ other ∈ store.snapshots.rows, other.isAt s.sessionID s.throughSequence = true ∧
        other.stateJSON = encoded) ∧ store'.snapshots = store.snapshots ∨
      store'.snapshots.rows = store.snapshots.rows ++ [.ofSnapshot s encoded]

theorem storeSessionSnapshot_ok (h : store.storeSessionSnapshot json s = .ok store') :
    ∃ encoded row, StoredSnapshot json s store store' encoded row := by
  simp only [storeSessionSnapshot, bind_ok_iff, mapError_ok_iff] at h
  obtain ⟨⟨⟩, hvalid, encoded, hmarshal, ⟨⟩, hguard, snapshots, hinsert, h⟩ := h
  split at h
  · cases h
  next existing hexisting =>
  simp only [run_ok_iff, exists_const] at h
  obtain ⟨hsame, -, rfl⟩ := h
  unfold guardSnapshot at hguard
  split at hguard
  · cases hguard
  next row hrow =>
  simp only [run_ok_iff, exists_const] at hguard
  refine ⟨encoded, row, hvalid, hmarshal, mem_of_find?_eq_some hrow,
    by simpa using find?_some hrow, hguard.1, rfl, rfl, ?_⟩
  rcases insertSnapshot_ok hinsert with ⟨-, rfl⟩ | hrows
  · exact .inl ⟨⟨existing, mem_of_find?_eq_some hexisting, find?_some hexisting, hsame⟩,
      rfl⟩
  · exact .inr hrows

/-! ### Loading a snapshot -/

theorem sameNullableSnapshotTask_ofSnapshot (s : ByteSnapshot) :
    sameNullableSnapshotTask s s.taskID (nullableTaskState s.taskID s.taskState) = true := by
  unfold sameNullableSnapshotTask nullableTaskState
  cases s.taskID with
  | none => rfl
  | some id => simp

/-- The columns of a snapshot's own row repeat what its document is decoded to, but for the part of
the time below a microsecond. -/
theorem sameColumns_ofSnapshot_iff (encoded : String) (hvalid : s.validate = .ok ())
    (hyear : FourDigitYear s.createdAt) :
    SameColumns s.sessionID (.ofSnapshot s encoded) s.coerced ↔
      s.createdAt.MicrosecondPrecision := by
  have hutc := (SessionSnapshot.validate_ok_iff.1 hvalid).1.utc
  have htask := sameNullableSnapshotTask_ofSnapshot s.coerced
  refine Iff.trans (b := s.createdAt = ofUnixMicro s.createdAt.unixMicro)
    ⟨fun h => h.2.2.2.2.2.1, fun h => ⟨rfl, rfl, rfl, rfl, rfl, h, htask⟩⟩ ?_
  constructor
  · intro h
    rw [h]
    simp [Timestamp.MicrosecondPrecision, ofUnixMicro]
  · intro hprecise
    exact ((ofUnixMicro_unixMicro_iff hutc hprecise).2 hyear.fitsMicros).symm

/-- The head of the rows in descending order is a row of the session from which no other one is
higher. -/
theorem latestRow_eq_some (h : store.latestRow id through = some row) :
    (row ∈ store.snapshots.rows ∧ row.sessionID = id ∧ row.throughSequence ≤ through) ∧
      ∀ other ∈ store.snapshots.rows, other.sessionID = id → other.throughSequence ≤ through →
        other.throughSequence ≤ row.throughSequence := by
  obtain ⟨rest, hsort⟩ := head?_eq_some_iff.1 h
  have hmem : ∀ other, other ∈ row :: rest ↔ other ∈ store.snapshots.rows ∧
      other.sessionID = id ∧ other.throughSequence ≤ through := by
    simp [← hsort, mem_insertionSort]
  have hsorted : (row :: rest).Pairwise fun a b => b.throughSequence ≤ a.throughSequence :=
    hsort ▸ pairwise_insertionSort _ _
  refine ⟨(hmem row).1 mem_cons_self, fun other hother hid hthrough => ?_⟩
  rcases mem_cons.1 ((hmem other).2 ⟨hother, hid, hthrough⟩) with rfl | hin
  · exact UInt64.le_refl _
  · exact rel_of_pairwise_cons hsorted hin

theorem latestRow_isSome (hrow : row ∈ store.snapshots.rows) (hid : row.sessionID = id)
    (hthrough : row.throughSequence ≤ through) : ∃ top, store.latestRow id through = some top := by
  refine Option.isSome_iff_exists.1 (isSome_head?.2 (ne_nil_of_mem
    ((mem_insertionSort _).2 (mem_filter.2 ⟨hrow, ?_⟩))))
  simp [hid, hthrough]

/-- The events that a replay returns are the segment of the history after its start. -/
theorem replaySessionEventsTransaction_eq (hstore : store.journal.Contiguous) {row : SessionRow}
    (hrow : row ∈ store.journal.sessions.rows) (after : UInt64) (limit : Nat) :
    store.replaySessionEventsTransaction row.id after row.currentSequence limit =
      ((store.journal.history row.id).drop after.toNat).take limit := by
  obtain ⟨hnumbered, hlength⟩ := hstore.numbered_history hrow
  have hfilter : ((store.journal.history row.id).filter fun event =>
      after < event.sequence && event.sequence ≤ row.currentSequence) =
        (store.journal.history row.id).drop after.toNat := by
    rw [← hstore.history_after hrow]
    refine filter_congr fun event hevent => ?_
    have hbound := (hnumbered.bounds hevent).2
    have : event.sequence ≤ row.currentSequence := UInt64.le_iff_toNat_le.2 (by omega)
    simp [this]
  have hsorted : ((store.journal.history row.id).drop after.toNat).Pairwise
      (·.sequence ≤ ·.sequence) := by
    refine (hnumbered.pairwise_lt.imp fun {a b} h => ?_).drop
    exact UInt64.le_iff_toNat_le.2 h.le
  simp [replaySessionEventsTransaction, hfilter, hsorted.insertionSort_eq]

end SnapshotStore

/-! ### Runs -/

/-- The writes of a run. -/
inductive SnapshotOperation
  | createSession (id : SessionID) (threadID : ThreadID)
  | appendSessionEvent (now : Timestamp) (input : NewSessionEvent)
  | storeSessionSnapshot (s : ByteSnapshot)

namespace SnapshotOperation

/-- The effect of one write. -/
def apply (json : SnapshotJSON) (store : SnapshotStore) : SnapshotOperation → Result SnapshotStore
  | .createSession id threadID => do
    let journal ← store.journal.createSession id threadID
    return { store with journal }
  | .appendSessionEvent now input => do
    let (journal, _) ← store.journal.appendSessionEvent now input
    return { store with journal }
  | .storeSessionSnapshot s => store.storeSessionSnapshot json s

/-- The snapshot that an operation stores. -/
def snapshots : SnapshotOperation → List ByteSnapshot
  | .createSession _ _ => []
  | .appendSessionEvent _ _ => []
  | .storeSessionSnapshot s => [s]

end SnapshotOperation

/-- A store, with the snapshots for which `StoreSessionSnapshot` returned no error. -/
structure SnapshotRun where
  store : SnapshotStore
  accepted : List ByteSnapshot

namespace SnapshotRun

open SnapshotStore

/-- One write. One that fails changes nothing. -/
def step (json : SnapshotJSON) (r : SnapshotRun) (operation : SnapshotOperation) : SnapshotRun :=
  match operation.apply json r.store with
  | .ok store => ⟨store, r.accepted ++ operation.snapshots⟩
  | .error _ => r

/-- A list of writes, from the empty store. -/
def run (json : SnapshotJSON) (operations : List SnapshotOperation) : SnapshotRun :=
  operations.foldl (step json) ⟨.empty, []⟩

variable {json : SnapshotJSON} {r : SnapshotRun} {s top : ByteSnapshot}

/-- The tables are those of the accepted snapshots: each has its row, no other row exists, and the
compaction column of a session is the highest accepted sequence. -/
structure Sound (json : SnapshotJSON) (r : SnapshotRun) : Prop where
  contiguous : r.store.journal.Contiguous
  valid : ∀ s ∈ r.accepted, s.validate = .ok ()
  committed : ∀ s ∈ r.accepted, ∃ row ∈ r.store.journal.sessions.rows,
    row.id = s.sessionID ∧ s.throughSequence ≤ row.currentSequence
  recorded : ∀ s ∈ r.accepted, ∃ encoded, json.marshal s = .ok encoded ∧
    SessionSnapshotRow.ofSnapshot s encoded ∈ r.store.snapshots.rows
  sourced : ∀ row ∈ r.store.snapshots.rows, ∃ s ∈ r.accepted, ∃ encoded,
    json.marshal s = .ok encoded ∧ row = SessionSnapshotRow.ofSnapshot s encoded
  bounded : ∀ s ∈ r.accepted, s.throughSequence ≤ r.store.compacted s.sessionID
  attained : ∀ id, r.store.compacted id ≠ 0 →
    ∃ s ∈ r.accepted, s.sessionID = id ∧ s.throughSequence = r.store.compacted id

theorem Sound.empty : Sound json ⟨.empty, []⟩ where
  contiguous := empty_contiguous
  valid := by simp
  committed := by simp
  recorded := by simp
  sourced := by simp [SnapshotStore.empty]
  bounded := by simp
  attained := by simp [SnapshotStore.empty]

/-- A change of the journal in which no session loses events keeps the tables sound. -/
theorem Sound.of_journal (hr : Sound json r) {journal : SessionStore}
    (hcontiguous : journal.Contiguous)
    (hgrow : ∀ row ∈ r.store.journal.sessions.rows, ∃ row' ∈ journal.sessions.rows,
      row'.id = row.id ∧ row.currentSequence ≤ row'.currentSequence) :
    Sound json ⟨{ r.store with journal }, r.accepted⟩ where
  __ := hr
  contiguous := hcontiguous
  committed := by
    intro s hs
    obtain ⟨row, hrow, hid, hthrough⟩ := hr.committed s hs
    obtain ⟨row', hrow', hid', hgrown⟩ := hgrow row hrow
    exact ⟨row', hrow', hid'.trans hid, UInt64.le_trans hthrough hgrown⟩

/-- Snapshots with one document have one row: no column has a text that the encoding replaces. -/
theorem ofSnapshot_eq_of_marshal {encoded : String} (hs : json.marshal s = .ok encoded)
    (htop : json.marshal top = .ok encoded) :
    SessionSnapshotRow.ofSnapshot s encoded = .ofSnapshot top encoded := by
  change SessionSnapshotRow.ofSnapshot s.coerced encoded = .ofSnapshot top.coerced encoded
  rw [SnapshotJSON.coerced_eq_of_marshal hs htop]

theorem le_advanceCompacted (s : ByteSnapshot) (compacted : SessionID → UInt64)
    (id : SessionID) : compacted id ≤ advanceCompacted s compacted id := by
  unfold advanceCompacted
  split_ifs with h
  · exact UInt64.le_of_lt h.2
  · exact UInt64.le_refl _

theorem through_le_advanceCompacted (s : ByteSnapshot) (compacted : SessionID → UInt64) :
    s.throughSequence ≤ advanceCompacted s compacted s.sessionID := by
  unfold advanceCompacted
  split_ifs with h
  · exact UInt64.le_refl _
  · exact UInt64.not_lt.1 fun hlt => h ⟨rfl, hlt⟩

theorem Sound.storeSessionSnapshot (hr : Sound json r) {store : SnapshotStore}
    (h : r.store.storeSessionSnapshot json s = .ok store) :
    Sound json ⟨store, r.accepted ++ [s]⟩ := by
  obtain ⟨encoded, row, hstored⟩ := storeSessionSnapshot_ok h
  have hrow : ∀ new, new ∈ store.snapshots.rows ↔
      new ∈ r.store.snapshots.rows ∨ new = .ofSnapshot s encoded := by
    intro new
    rcases hstored.rows with ⟨⟨other, hother, -, hjson⟩, hrows⟩ | hrows
    · -- a row that was there before with the same document is the row of the snapshot
      obtain ⟨s', -, encoded', hmarshal', rfl⟩ := hr.sourced other hother
      obtain rfl : encoded' = encoded := hjson
      rw [hrows, ofSnapshot_eq_of_marshal hstored.marshal hmarshal', or_iff_left_of_imp]
      rintro rfl
      exact hother
    · simp [hrows]
  refine ⟨?_, ?_, ?_, ?_, ?_, ?_, ?_⟩
  · rw [hstored.journal]
    exact hr.contiguous
  · rw [forall_mem_append, forall_mem_singleton]
    exact ⟨hr.valid, hstored.valid⟩
  · rw [forall_mem_append, forall_mem_singleton, hstored.journal]
    exact ⟨hr.committed, row, hstored.row_mem, hstored.row_id, hstored.committed⟩
  · rw [forall_mem_append, forall_mem_singleton]
    refine ⟨fun old hold => ?_, encoded, hstored.marshal, (hrow _).2 (.inr rfl)⟩
    obtain ⟨text, htext, hmem⟩ := hr.recorded old hold
    exact ⟨text, htext, (hrow _).2 (.inl hmem)⟩
  · intro new hnew
    rcases (hrow new).1 hnew with hold | rfl
    · obtain ⟨s', hs', text, htext, hrow⟩ := hr.sourced new hold
      exact ⟨s', mem_append_left _ hs', text, htext, hrow⟩
    · exact ⟨s, by simp, encoded, hstored.marshal, rfl⟩
  · rw [forall_mem_append, forall_mem_singleton, hstored.compacted]
    exact ⟨fun old hold => UInt64.le_trans (hr.bounded old hold) (le_advanceCompacted ..),
      through_le_advanceCompacted ..⟩
  · intro id hid
    rw [hstored.compacted] at hid ⊢
    unfold advanceCompacted at hid ⊢
    split_ifs at hid ⊢ with hadvance
    · exact ⟨s, by simp, hadvance.1.symm, rfl⟩
    · obtain ⟨s', hs', hsession, hthrough⟩ := hr.attained id hid
      exact ⟨s', mem_append_left _ hs', hsession, hthrough⟩

theorem Sound.step (hr : Sound json r) (operation : SnapshotOperation) :
    Sound json (r.step json operation) := by
  unfold SnapshotRun.step
  split
  next store happly =>
    cases operation with
    | createSession id threadID =>
      simp only [SnapshotOperation.apply, run_ok_iff] at happly
      obtain ⟨journal, hcreate, rfl⟩ := happly
      obtain ⟨-, hrows, -⟩ := createSession_ok hcreate
      rw [SnapshotOperation.snapshots, append_nil]
      refine hr.of_journal (createSession_contiguous hr.contiguous hcreate) ?_
      intro row hrow
      exact ⟨row, hrows ▸ mem_append_left _ hrow, rfl, UInt64.le_refl _⟩
    | appendSessionEvent now input =>
      simp only [SnapshotOperation.apply, run_ok_iff] at happly
      obtain ⟨⟨journal, event⟩, happend, rfl⟩ := happly
      obtain ⟨row, happended⟩ := appendSessionEvent_ok happend
      rw [SnapshotOperation.snapshots, append_nil]
      refine hr.of_journal (appendSessionEvent_contiguous hr.contiguous happend) ?_
      intro own hown
      refine ⟨advanceSequence input own, ?_, advanceSequence_id own,
        happended.le_advanceSequence hown⟩
      rw [happended.sessions]
      exact mem_map_of_mem hown
    | storeSessionSnapshot s => exact hr.storeSessionSnapshot happly
  next => exact hr

/-- **The tables of every run are sound.** -/
theorem run_sound (json : SnapshotJSON) (operations : List SnapshotOperation) :
    Sound json (run json operations) :=
  List.foldlRecOn operations _ Sound.empty fun _ hr operation _ => hr.step operation

/-! ### Replaying from below a snapshot -/

/-- The accepted snapshot of a session with the highest sequence. -/
structure Highest (r : SnapshotRun) (sessionID : SessionID) (top : ByteSnapshot) : Prop where
  accepted : top ∈ r.accepted
  session : top.sessionID = sessionID
  highest : ∀ s ∈ r.accepted, s.sessionID = sessionID → s.throughSequence ≤ top.throughSequence

/-- The number of events that a replay returns at most. -/
def pageSize (limit : Int) : Nat := if limit = 0 then 256 else limit.toNat

/-- A replay of its session returns the snapshot, and after it the first committed events, numbered
on from the snapshot without a gap. -/
def LoadsBack (json : SnapshotJSON) (r : SnapshotRun) (top : ByteSnapshot) (after : UInt64)
    (limit : Int) : Prop :=
  ∃ events boundary,
    r.store.replaySession json top.sessionID after limit = .ok ⟨some top, events, boundary⟩ ∧
    events = ((r.store.journal.history top.sessionID).drop top.throughSequence.toNat).take
      (pageSize limit) ∧
    Numbered (·.sequence.toNat) (top.throughSequence.toNat + 1) events

variable {id : SessionID}

section

variable (hr : Sound json r)

include hr

theorem Sound.highest_of_latestRow {row : SessionSnapshotRow}
    (h : r.store.latestRow id (r.store.compacted id) = some row) :
    ∃ top encoded, Highest r id top ∧ json.marshal top = .ok encoded ∧
      row = .ofSnapshot top encoded := by
  obtain ⟨⟨hmem, hid, -⟩, hmax⟩ := latestRow_eq_some h
  obtain ⟨top, htop, encoded, hmarshal, rfl⟩ := hr.sourced row hmem
  refine ⟨top, encoded, ⟨htop, hid, fun s hs hsession => ?_⟩, hmarshal, rfl⟩
  obtain ⟨text, -, hrow⟩ := hr.recorded s hs
  exact hmax _ hrow hsession (hsession ▸ hr.bounded s hs)

/-- Accepted snapshots with the highest sequence differ in what the encoding replaces. -/
theorem Sound.highest_coerced (hs : Highest r id s) (htop : Highest r id top) :
    s.coerced = top.coerced := by
  obtain ⟨encoded, hmarshal, hrow⟩ := hr.recorded s hs.accepted
  obtain ⟨encoded', hmarshal', hrow'⟩ := hr.recorded top htop.accepted
  have hthrough := UInt64.le_antisymm (htop.highest s hs.accepted hs.session)
    (hs.highest top htop.accepted htop.session)
  have hsame := Table.eq_of_conflict hrow hrow'
    (by simp [sessionSnapshotSchema, SessionSnapshotRow.ofSnapshot, hs.session, htop.session,
      hthrough])
  have hjson : encoded = encoded' := congrArg SessionSnapshotRow.stateJSON hsame
  exact SnapshotJSON.coerced_eq_of_marshal hmarshal (hjson ▸ hmarshal')

/-- The highest snapshot is loaded as its document has it, when that passes the checks and its time
has no part below a microsecond. -/
theorem Sound.loadSessionSnapshot_ok_iff (htop : Highest r id top) {x : ByteSnapshot} :
    r.store.loadSessionSnapshot json id (r.store.compacted id) = .ok x ↔
      top.coerced.validate = .ok () ∧ top.createdAt.MicrosecondPrecision ∧ top.coerced = x := by
  obtain ⟨text, -, hown⟩ := hr.recorded top htop.accepted
  obtain ⟨row, hlatest⟩ := latestRow_isSome hown htop.session
    (htop.session ▸ hr.bounded top htop.accepted)
  obtain ⟨top', encoded, htop', hmarshal, rfl⟩ := hr.highest_of_latestRow hlatest
  obtain ⟨hdecoded, hyear⟩ := SnapshotJSON.unmarshal_marshal hmarshal
  have hsame := hr.highest_coerced htop' htop
  have htime : top'.createdAt = top.createdAt := by
    change top'.coerced.createdAt = top.coerced.createdAt
    rw [hsame]
  have hcolumns := sameColumns_ofSnapshot_iff encoded (hr.valid top' htop'.accepted) hyear
  rw [hsame, htop'.session, htime] at hcolumns
  have hjson : (SessionSnapshotRow.ofSnapshot top' encoded).stateJSON = encoded := rfl
  simp only [loadSessionSnapshot, hlatest, hjson, hdecoded, Except.mapError, ok_bind, hsame,
    run_ok_iff, Unique.exists_iff, hcolumns]

theorem Sound.highest_exists (hs : s ∈ r.accepted) : ∃ top, Highest r s.sessionID top := by
  obtain ⟨text, -, hrow⟩ := hr.recorded s hs
  obtain ⟨row, hlatest⟩ := latestRow_isSome hrow rfl (hr.bounded s hs)
  obtain ⟨top, -, htop, -, -⟩ := hr.highest_of_latestRow hlatest
  exact ⟨top, htop⟩

/-- **Replay from below a snapshot.** What a replay returns that starts below an accepted snapshot
of its session. -/
theorem Sound.replaySession_eq (hs : s ∈ r.accepted) {after : UInt64}
    (hafter : after < s.throughSequence) (limit : Int) :
    ∃ boundary, r.store.replaySession json s.sessionID after limit =
      if 0 ≤ limit ∧ limit ≤ 1000 then
        (r.store.loadSessionSnapshot json s.sessionID (r.store.compacted s.sessionID)).map fun x =>
          ⟨some x, ((r.store.journal.history s.sessionID).drop x.throughSequence.toNat).take
            (pageSize limit), boundary⟩
      else .error (.new "session replay limit must be between 1 and 1000") := by
  obtain ⟨row, hrow, hid, hthrough⟩ := hr.committed s hs
  have hfind : r.store.journal.sessions.rows.find? (·.id == s.sessionID) = some row :=
    Table.find_eq_some hrow (by simpa using hid) fun other hother hotherID => by
      simp_all [sessionSchema]
  have hzero := (SessionSnapshot.validate_ok_iff.1 (hr.valid s hs)).1.sessionID
  have hcompacted : after < r.store.compacted s.sessionID :=
    UInt64.lt_of_lt_of_le hafter (hr.bounded s hs)
  have hboundary : after ≤ row.currentSequence :=
    UInt64.le_of_lt (UInt64.lt_of_lt_of_le hafter hthrough)
  refine ⟨row.currentSequence, ?_⟩
  have hpage : (if limit = 0 then 256 else limit).toNat = pageSize limit := by
    unfold pageSize
    split_ifs <;> rfl
  have hlimit : (1 ≤ (if limit = 0 then 256 else limit) ∧ (if limit = 0 then 256 else limit) ≤ 1000)
      ↔ (0 ≤ limit ∧ limit ≤ 1000) := by
    split_ifs <;> omega
  rw [replaySession, ensure_of hzero, ok_bind]
  by_cases hrange : 0 ≤ limit ∧ limit ≤ 1000
  · simp only [ensure_of (hlimit.2 hrange), ok_bind, hfind, ensure_of hboundary, if_pos hcompacted,
      if_pos hrange, hpage]
    cases r.store.loadSessionSnapshot json s.sessionID (r.store.compacted s.sessionID) with
    | error e => rfl
    | ok x =>
      simp only [← hid, ← replaySessionEventsTransaction_eq hr.contiguous hrow]
      rfl
  · simp [ensure_of_not (mt hlimit.1 hrange), if_neg hrange]

end

/-- **Stored snapshots load back.** In every run and for every accepted snapshot, a replay from
below it returns the accepted snapshot of its session with the highest sequence and the events that
follow, exactly when the limit is in its range, the time of that snapshot has no part below a
microsecond, and its texts are valid UTF-8. -/
theorem loadsBack_iff (json : SnapshotJSON) (operations : List SnapshotOperation)
    (s : ByteSnapshot) (hs : s ∈ (run json operations).accepted) (after : UInt64)
    (hafter : after < s.throughSequence) (limit : Int) :
    (∃ top, Highest (run json operations) s.sessionID top) ∧
      ∀ top, Highest (run json operations) s.sessionID top →
        (LoadsBack json (run json operations) top after limit ↔
          (0 ≤ limit ∧ limit ≤ 1000) ∧ top.createdAt.MicrosecondPrecision ∧ top.ValidTexts) := by
  have hr := run_sound json operations
  refine ⟨hr.highest_exists hs, fun top htop => ?_⟩
  obtain ⟨boundary, hreplay⟩ := hr.replaySession_eq hs hafter limit
  rw [LoadsBack, htop.session, hreplay, ← SessionSnapshot.coerced_eq_self_iff]
  constructor
  · rintro ⟨events, boundary', hok, -, -⟩
    split_ifs at hok with hlimit
    obtain ⟨x, hload, hx⟩ := map_ok_iff.1 hok
    obtain ⟨-, hprecise, rfl⟩ := (hr.loadSessionSnapshot_ok_iff htop).1 hload
    exact ⟨hlimit, hprecise, Option.some.inj (congrArg SessionReplay.snapshot hx)⟩
  · rintro ⟨hlimit, hprecise, htexts⟩
    have hload := (hr.loadSessionSnapshot_ok_iff htop).2
      ⟨htexts.symm ▸ hr.valid top htop.accepted, hprecise, htexts⟩
    refine ⟨_, boundary, by rw [if_pos hlimit, hload]; rfl, rfl, ?_⟩
    obtain ⟨row, hrow, hid, hthrough⟩ := hr.committed top htop.accepted
    rw [htop.session] at hid
    obtain ⟨hnumbered, hlength⟩ := hr.contiguous.numbered_history hrow
    rw [hid] at hnumbered hlength
    rw [Nat.add_comm]
    refine (hnumbered.drop _ ?_).take _
    rw [hlength]
    exact UInt64.le_iff_toNat_le.1 hthrough

/-- A snapshot after the first event of the sample session. -/
def sampleSnapshot (nanos : Int) : ByteSnapshot :=
  { sampleBase with
    throughSequence := 1, createdAt := ⟨nanos, true⟩, checkpoint := none, validation := none }

/-- Its document. -/
def sampleDocument (nanos : Int) : SnapshotDocument :=
  { sampleSnapshot nanos with
    sessionID := sampleSessionID.value, threadID := sampleThreadID.value
    taskID := none, checkpoint := none, validation := none }

/-- The encoding of that document alone. -/
def soleJSON (nanos : Int) (text : String) (hyear : FourDigitYear ⟨nanos, true⟩) :
    SnapshotJSON where
  encode d := if d = sampleDocument nanos then .ok text else .error (.new "unsupported value")
  decode read :=
    if read = text then .ok (sampleDocument nanos) else .error (.new "unexpected end of JSON input")
  decode_encode {d read} h := by
    split_ifs at h with hd
    cases h
    rw [if_pos rfl, hd]
    rfl
  year_of_encode {d read} h := by
    split_ifs at h with hd
    rwa [hd]

/-- A session is created, its thread is renamed, and a snapshot is stored. -/
def sampleOperations (nanos : Int) : List SnapshotOperation := [
  .createSession sampleSessionID sampleThreadID,
  .appendSessionEvent ⟨1000, true⟩ sampleRename,
  .storeSessionSnapshot (sampleSnapshot nanos)]

/-- The text of that document, given its time. -/
def sampleText (createdAt : String) : String :=
  "\x7b\"session_id\":\"ses_0190a5b0-0000-7000-8000-000000000011\"," ++
    "\"thread_id\":\"thr_0190a5b0-0000-7000-8000-000000000012\",\"through_sequence\":1," ++
    "\"task_revision\":0,\"checkpoint_revision\":0,\"validation_revision\":0," ++
    "\"change_acceptance_revision\":0,\"snapshot_version\":1," ++
    "\"created_at\":\"" ++ createdAt ++ "\"\x7d"

/-- The encoding of a snapshot of a whole microsecond. -/
def wholeJSON : SnapshotJSON :=
  soleJSON 2000 (sampleText "1970-01-01T00:00:00.000002Z") ⟨by decide, by decide⟩

/-- The encoding of a snapshot between two microseconds. -/
def betweenJSON : SnapshotJSON :=
  soleJSON 2001 (sampleText "1970-01-01T00:00:00.000002001Z") ⟨by decide, by decide⟩

theorem loadsBack_of_wholeMicrosecond :
    sampleSnapshot 2000 ∈ (run wholeJSON (sampleOperations 2000)).accepted ∧
      LoadsBack wholeJSON (run wholeJSON (sampleOperations 2000)) (sampleSnapshot 2000) 0 10 := by
  have haccepted : (run wholeJSON (sampleOperations 2000)).accepted = [sampleSnapshot 2000] := by
    decide +kernel
  have hmem := haccepted ▸ mem_singleton_self (sampleSnapshot 2000)
  obtain ⟨⟨top, htop⟩, hiff⟩ :=
    loadsBack_iff wholeJSON (sampleOperations 2000) (sampleSnapshot 2000) hmem 0 (by decide) 10
  obtain rfl := mem_singleton.1 (haccepted ▸ htop.accepted)
  have htexts : (sampleSnapshot 2000).ValidTexts := by
    simp [sampleSnapshot, SessionSnapshot.ValidTexts]
  exact ⟨hmem, (hiff _ htop).2 ⟨by decide, by decide, htexts⟩⟩

/-- A snapshot that is stored with a time of 2001 nanoseconds cannot be loaded: the replay from the
start of its session fails. -/
theorem not_loadsBack_between_microseconds :
    sampleSnapshot 2001 ∈ (run betweenJSON (sampleOperations 2001)).accepted ∧
      (run betweenJSON (sampleOperations 2001)).store.replaySession betweenJSON sampleSessionID 0 10
        = .error errSnapshotColumns ∧
      ¬LoadsBack betweenJSON (run betweenJSON (sampleOperations 2001)) (sampleSnapshot 2001) 0
        10 := by
  refine ⟨by decide +kernel, (and_iff_left_of_imp fun hreplay => ?_).2 (by decide +kernel)⟩
  rintro ⟨events, boundary, hok, -, -⟩
  cases hreplay.symm.trans hok

end SnapshotRun

end Codeflux.Storage
