import Codeflux.Events.Hub
import Codeflux.Library.Numbered
import Codeflux.Storage.Database

/-!
# The session event journal

Appending allocates the next sequence of the session and inserts the event in the same transaction.
A stored event has its time in microseconds, so the event that is replayed can differ from the one
that was appended below that precision.
-/

namespace Codeflux.Storage

open Library Go Domain Events List

/-- A row of `sessions`, with the columns that the journal reads. -/
structure SessionRow where
  id : SessionID
  threadID : ThreadID
  currentSequence : UInt64
deriving DecidableEq

/-- The constraints of `sessions`. -/
def sessionSchema : Schema SessionRow where
  check row := lengthBetween 40 64 row.id.value && fitsColumn row.currentSequence
  conflict a b := a.id == b.id || a.threadID == b.threadID
  conflict_comm a b := by rw [BEq.comm (a := a.id), BEq.comm (a := a.threadID)]

/-- The constraints of `session_events`. -/
def sessionEventSchema : Schema SessionEvent where
  check event :=
    0 < event.sequence && fitsColumn event.sequence && 0 ≤ event.timestamp.unixMicro &&
    lengthBetween 1 64 event.kind.toText && fitsColumn event.revision && 0 < event.payloadVersion
  conflict a b := a.sessionID == b.sessionID && a.sequence == b.sequence
  conflict_comm a b := by rw [BEq.comm (a := a.sessionID), BEq.comm (a := a.sequence)]

/-- The tables of the journal. -/
structure SessionStore where
  sessions : Table sessionSchema
  events : Table sessionEventSchema

/-- The event as its row has it: the time is a count of microseconds. -/
def journaled (event : SessionEvent) : SessionEvent :=
  { event with timestamp := ofUnixMicro event.timestamp.unixMicro }

namespace SessionStore

/-- The store before any session is created. -/
def empty : SessionStore := ⟨Table.empty, Table.empty⟩

/-- A new session. That its thread exists is not checked: threads are left out. -/
def createSession (id : SessionID) (threadID : ThreadID) (store : SessionStore) :
    Result SessionStore := do
  ensure (id.isZero = false) (.new "session ID must not be empty")
  ensure (threadID.isZero = false) (.new "session thread ID must not be empty")
  let sessions ← repositoryWriteError "create session" <|
    store.sessions.insert { id, threadID, currentSequence := 0 }
  return { store with sessions }

/-- The row that an append updates: the session has to belong to the event's thread. -/
def allocates (input : NewSessionEvent) (row : SessionRow) : Bool :=
  row.id == input.sessionID && row.threadID == input.threadID

/-- The allocation of a sequence, row by row. -/
def advanceSequence (input : NewSessionEvent) (row : SessionRow) : SessionRow :=
  if allocates input row then { row with currentSequence := row.currentSequence + 1 } else row

/-- The transaction that appends an event. It returns the event as it will be published. -/
def appendSessionEvent (now : Timestamp) (input : NewSessionEvent) (store : SessionStore) :
    Result (SessionStore × SessionEvent) := do
  let _ ← (input.build 1 now).mapError (.wrap "validate new session event")
  let sessions ← repositoryWriteError "allocate session event sequence" <|
    store.sessions.update (advanceSequence input)
  match sessions.rows.find? (allocates input) with
  | none => .error (.typed errNotFound "allocate session event sequence" errNoRows)
  | some row =>
    let event ← (input.build row.currentSequence now).mapError (.wrap "build session event")
    let events ← repositoryWriteError "append session event" <|
      store.events.insert (journaled event)
    return (⟨sessions, events⟩, event)

section

variable (store : SessionStore)

/-- The events of a session, in the order they were appended. -/
def history (sessionID : SessionID) : List SessionEvent :=
  store.events.rows.filter (·.sessionID == sessionID)

/-- A page of events after a sequence. -/
def replaySessionEvents (sessionID : SessionID) (afterSequence : UInt64)
    (limit : Nat) : Result (List SessionEvent) := do
  ensure (sessionID.isZero = false) (.new "session ID must not be empty")
  let limit := if limit = 0 then 256 else limit
  ensure (1 ≤ limit ∧ limit ≤ 1000) (.new "session replay limit must be between 1 and 1000")
  let rows := (store.history sessionID).filter (afterSequence < ·.sequence)
  return (rows.insertionSort (·.sequence ≤ ·.sequence)).take limit

/-- The sequence of the last event. -/
def currentSessionSequence (sessionID : SessionID) : Result UInt64 := do
  ensure (sessionID.isZero = false) (.new "session ID must not be empty")
  match store.sessions.rows.find? (·.id == sessionID) with
  | some row => return row.currentSequence
  | none => .error (.typed errNotFound "read current session sequence" errNoRows)

/-- The store as the hub's journal. -/
def journal : Journal where
  replayCommitted := store.replaySessionEvents
  committedSequence := store.currentSessionSequence

end

/-! ### Contiguous histories -/

/-- The events of every session are numbered from one, without a gap, up to the sequence in the
session's row. -/
structure Contiguous (store : SessionStore) : Prop where
  numbered : ∀ row ∈ store.sessions.rows,
    (store.history row.id).map (·.sequence.toNat) = List.range' 1 row.currentSequence.toNat
  linked : ∀ event ∈ store.events.rows, ∃ row ∈ store.sessions.rows, row.id = event.sessionID
  valid : ∀ event ∈ store.events.rows, event.Valid

theorem empty_contiguous : empty.Contiguous := ⟨by simp [empty], by simp [empty], by simp [empty]⟩

variable {store store' : SessionStore}

theorem createSession_ok {id : SessionID} {threadID : ThreadID}
    (h : store.createSession id threadID = .ok store') :
    store.sessions.Admits ⟨id, threadID, 0⟩ ∧
      store'.sessions.rows = store.sessions.rows ++ [⟨id, threadID, 0⟩] ∧
      store'.events = store.events := by
  simp only [createSession, run_ok_iff, repositoryWriteError_ok_iff, Table.insert_ok_iff] at h
  obtain ⟨-, -, -, -, sessions, ⟨hadmits, hrows⟩, rfl⟩ := h
  exact ⟨hadmits, hrows, rfl⟩

theorem createSession_contiguous {id : SessionID} {threadID : ThreadID} (hstore : store.Contiguous)
    (h : store.createSession id threadID = .ok store') : store'.Contiguous := by
  obtain ⟨⟨-, hnew⟩, hrows, hevents⟩ := createSession_ok h
  refine ⟨?_, ?_, ?_⟩
  · intro row hrow
    rw [history, hevents, ← history]
    rw [hrows, mem_append, mem_singleton] at hrow
    rcases hrow with hrow | rfl
    · exact hstore.numbered row hrow
    · -- no event can be of a session that has no row yet
      have hnone : store.history id = [] := by
        refine filter_eq_nil_iff.2 fun event hevent hid => ?_
        obtain ⟨row, hrow, hrowID⟩ := hstore.linked event hevent
        have := hnew row hrow
        simp only [sessionSchema, Bool.or_eq_false_iff, beq_eq_false_iff_ne] at this
        exact this.1 (hrowID.trans (beq_iff_eq.1 hid))
      simp [hnone]
  · intro event hevent
    rw [hevents] at hevent
    obtain ⟨row, hrow, hid⟩ := hstore.linked event hevent
    exact ⟨row, by rw [hrows]; exact mem_append_left _ hrow, hid⟩
  · rw [hevents]
    exact hstore.valid

/-! ### Appending -/

variable {input : NewSessionEvent} {now : Timestamp} {event : SessionEvent}

@[simp] theorem advanceSequence_id (row : SessionRow) :
    (advanceSequence input row).id = row.id := by
  unfold advanceSequence
  split <;> rfl

theorem allocates_advanceSequence (row : SessionRow) :
    allocates input (advanceSequence input row) = allocates input row := by
  unfold advanceSequence
  split <;> rfl

theorem allocates_iff {row : SessionRow} :
    allocates input row = true ↔ row.id = input.sessionID ∧ row.threadID = input.threadID := by
  simp [allocates]

/-- What a committed append did: it numbered the event after the last one of its session. -/
structure Appended (store : SessionStore) (input : NewSessionEvent) (now : Timestamp)
    (store' : SessionStore) (event : SessionEvent) (row : SessionRow) : Prop where
  row_mem : row ∈ store.sessions.rows
  allocates : allocates input row = true
  sequenced : input.sequenced (row.currentSequence + 1) now = event
  valid : event.Valid
  successor : (row.currentSequence + 1).toNat = row.currentSequence.toNat + 1
  sessions : store'.sessions.rows = store.sessions.rows.map (advanceSequence input)
  admits : store.events.Admits (journaled event)
  events : store'.events.rows = store.events.rows ++ [journaled event]

theorem appendSessionEvent_ok (h : store.appendSessionEvent now input = .ok (store', event)) :
    ∃ row, Appended store input now store' event row := by
  simp only [appendSessionEvent, bind_ok_iff, mapError_ok_iff, repositoryWriteError_ok_iff] at h
  obtain ⟨-, -, sessions, hsessions, h⟩ := h
  split at h
  · cases h
  next row' hfind =>
  simp only [run_ok_iff, mapError_ok_iff, repositoryWriteError_ok_iff, NewSessionEvent.build_ok_iff,
    Table.insert_ok_iff, Prod.mk.injEq] at h
  obtain ⟨built, ⟨hbuilt, hvalid⟩, events, ⟨hadmits, hevents⟩, rfl, rfl⟩ := h
  have hrows := Table.update_ok hsessions
  have hmem' : row' ∈ sessions.rows := mem_of_find?_eq_some hfind
  have hmem := hmem'
  rw [hrows, mem_map] at hmem
  obtain ⟨row, hrow, rfl⟩ := hmem
  have hallocates : allocates input row = true := by
    rw [← allocates_advanceSequence]
    exact find?_some hfind
  have hadvanced : advanceSequence input row =
      { row with currentSequence := row.currentSequence + 1 } := if_pos hallocates
  -- both sequences fit a column, so the addition does not wrap
  have hfits := store.sessions.checked row hrow
  simp only [sessionSchema, Bool.and_eq_true, fitsColumn_iff, maxInt64] at hfits
  refine ⟨row, hrow, hallocates, ?_, hvalid, ?_, hrows, hadmits, hevents⟩
  · rwa [hadvanced] at hbuilt
  · rw [UInt64.toNat_add, UInt64.toNat_one, Nat.mod_eq_of_lt (by omega)]

theorem Appended.sessionID {row : SessionRow} (h : Appended store input now store' event row) :
    event.sessionID = row.id := by
  rw [← h.sequenced]
  exact (allocates_iff.1 h.allocates).1.symm

theorem Appended.row_eq {row own : SessionRow} (h : Appended store input now store' event row)
    (hown : own ∈ store.sessions.rows) (hid : own.id = event.sessionID) : own = row :=
  Table.eq_of_conflict hown h.row_mem (by simp [sessionSchema, hid, h.sessionID])

theorem Appended.le_advanceSequence {row own : SessionRow}
    (h : Appended store input now store' event row) (hown : own ∈ store.sessions.rows) :
    own.currentSequence ≤ (advanceSequence input own).currentSequence := by
  unfold advanceSequence
  split
  · next hallocates =>
    have hid : own.id = event.sessionID :=
      (allocates_iff.1 hallocates).1.trans (by rw [← h.sequenced]; rfl)
    rw [h.row_eq hown hid, UInt64.le_iff_toNat_le, h.successor]
    exact Nat.le_succ _
  · exact UInt64.le_refl _

theorem journaled_valid (hevent : event.Valid) (hmicros : 0 ≤ event.timestamp.unixMicro) :
    (journaled event).Valid where
  __ := hevent
  timestamp := by
    simp only [journaled, ofUnixMicro, Timestamp.isZero, beq_eq_false_iff_ne, ne_eq]
    omega
  utc := rfl

variable {sessionID : SessionID}

theorem history_append (h : store'.events.rows = store.events.rows ++ [event]) :
    store'.history sessionID =
      store.history sessionID ++ if event.sessionID = sessionID then [event] else [] := by
  rw [history, history, h, filter_append]
  by_cases hid : event.sessionID = sessionID <;> simp [hid]

theorem appendSessionEvent_contiguous (hstore : store.Contiguous)
    (h : store.appendSessionEvent now input = .ok (store', event)) : store'.Contiguous := by
  obtain ⟨row, happended⟩ := appendSessionEvent_ok h
  refine ⟨?_, ?_, ?_⟩
  · intro row' hrow'
    rw [happended.sessions, mem_map] at hrow'
    obtain ⟨other, hother, rfl⟩ := hrow'
    rw [history_append happended.events, advanceSequence_id, map_append,
      hstore.numbered other hother]
    by_cases hallocates : allocates input other = true
    · have hsame : other = row := Table.eq_of_conflict hother happended.row_mem <| by
        simp [sessionSchema, (allocates_iff.1 hallocates).1,
          (allocates_iff.1 happended.allocates).1]
      subst hsame
      have hsequence : event.sequence = other.currentSequence + 1 := by
        rw [← happended.sequenced]
        rfl
      have hid : (journaled event).sessionID = other.id := happended.sessionID
      rw [if_pos hid, advanceSequence, if_pos hallocates, happended.successor,
        List.range'_concat]
      simp [journaled, hsequence, happended.successor, Nat.add_comm]
    · have hother_ne : (journaled event).sessionID ≠ other.id := by
        intro hid
        exact hallocates (happended.row_eq hother hid.symm ▸ happended.allocates)
      rw [if_neg hother_ne, advanceSequence, if_neg hallocates, map_nil, append_nil]
  · intro stored hstored
    rw [happended.events, mem_append, mem_singleton] at hstored
    have hlink : ∃ other ∈ store.sessions.rows, other.id = stored.sessionID := by
      rcases hstored with hstored | rfl
      · exact hstore.linked stored hstored
      · exact ⟨row, happended.row_mem, happended.sessionID.symm⟩
    obtain ⟨other, hother, hid⟩ := hlink
    refine ⟨advanceSequence input other, ?_, by rw [advanceSequence_id, hid]⟩
    rw [happended.sessions]
    exact mem_map_of_mem hother
  · intro stored hstored
    rw [happended.events, mem_append, mem_singleton] at hstored
    rcases hstored with hstored | rfl
    · exact hstore.valid stored hstored
    · have hcheck := happended.admits.1
      simp only [sessionEventSchema, Bool.and_eq_true, decide_eq_true_eq] at hcheck
      have hmicros : 0 ≤ (journaled event).timestamp.unixMicro := hcheck.1.1.1.2
      rw [journaled, unixMicro_ofUnixMicro_unixMicro] at hmicros
      exact journaled_valid happended.valid hmicros

/-- The store after a list of appends. One that fails leaves the store as it is. -/
def appendAll (now : Timestamp) (store : SessionStore) (inputs : List NewSessionEvent) :
    SessionStore :=
  inputs.foldl (fun store input =>
    settled store ((store.appendSessionEvent now input).map Prod.fst)) store

/-- **Every journal is contiguous**, whatever is appended to it. -/
theorem appendAll_contiguous (now : Timestamp) (inputs : List NewSessionEvent)
    (hstore : store.Contiguous) : (appendAll now store inputs).Contiguous := by
  induction inputs generalizing store with
  | nil => exact hstore
  | cons input inputs ih =>
    refine ih ?_
    show (settled store ((store.appendSessionEvent now input).map Prod.fst)).Contiguous
    cases happend : store.appendSessionEvent now input with
    | error failure => exact hstore
    | ok result =>
      obtain ⟨store', event⟩ := result
      exact appendSessionEvent_contiguous hstore happend

variable {row : SessionRow}

theorem Contiguous.numbered_history (hstore : store.Contiguous) (hrow : row ∈ store.sessions.rows) :
    Numbered (·.sequence.toNat) 1 (store.history row.id) ∧
      (store.history row.id).length = row.currentSequence.toNat := by
  have hmap := hstore.numbered row hrow
  have hlength : (store.history row.id).length = row.currentSequence.toNat := by
    simpa using congrArg List.length hmap
  exact ⟨numbered_iff_map.2 (by rw [hmap, hlength]), hlength⟩

theorem currentSessionSequence_ok_iff {sequence : UInt64} :
    store.currentSessionSequence sessionID = .ok sequence ↔
      sessionID.isZero = false ∧
        ∃ row ∈ store.sessions.rows, row.id = sessionID ∧ row.currentSequence = sequence := by
  simp only [currentSessionSequence, run_ok_iff, exists_const]
  refine and_congr_right fun _ => ?_
  cases hfind : store.sessions.rows.find? (·.id == sessionID) with
  | none =>
    simp only [reduceCtorEq, false_iff, not_exists, not_and]
    intro row hrow hid
    simpa [hid] using find?_eq_none.1 hfind row hrow
  | some found =>
    have hmem := mem_of_find?_eq_some hfind
    have hfound : found.id = sessionID := by simpa using find?_some hfind
    simp only [pure_ok_iff]
    constructor
    · intro h
      exact ⟨found, hmem, hfound, h⟩
    · rintro ⟨row, hrow, hid, h⟩
      have : found = row := Table.eq_of_conflict hmem hrow (by simp [sessionSchema, hfound, hid])
      rw [this, h]

/-- The events after a sequence are the tail of a contiguous history. -/
theorem Contiguous.history_after (hstore : store.Contiguous) (hrow : row ∈ store.sessions.rows)
    (after : UInt64) :
    (store.history row.id).filter (after < ·.sequence) =
      (store.history row.id).drop after.toNat := by
  have := (hstore.numbered_history hrow).1.filter_lt after.toNat
  simpa only [Nat.add_sub_cancel, ← UInt64.lt_iff_toNat_lt] using this

/-- **Pages.** A page of a contiguous history is the segment after the sequence. -/
theorem replaySessionEvents_eq (hstore : store.Contiguous) (hrow : row ∈ store.sessions.rows)
    (hid : row.id.isZero = false) (after : UInt64) {limit : Nat} (hlimit : 1 ≤ limit) :
    store.replaySessionEvents row.id after limit =
      if limit ≤ 1000 then .ok (((store.history row.id).drop after.toNat).take limit)
      else .error (.new "session replay limit must be between 1 and 1000") := by
  obtain ⟨hnumbered, -⟩ := hstore.numbered_history hrow
  have hsorted : ((store.history row.id).drop after.toNat).Pairwise (·.sequence ≤ ·.sequence) := by
    refine (hnumbered.pairwise_lt.imp fun {a b} h => ?_).drop
    exact UInt64.le_iff_toNat_le.2 h.le
  rw [replaySessionEvents, ensure_of hid, ok_bind, if_neg (by omega), hstore.history_after hrow]
  simp only [hsorted.insertionSort_eq]
  by_cases hmax : limit ≤ 1000
  · rw [if_pos hmax, ensure_of ⟨hlimit, hmax⟩, ok_bind]
    rfl
  · rw [if_neg hmax, ensure_of_not (fun h => hmax h.2), error_bind]

end SessionStore

end Codeflux.Storage
