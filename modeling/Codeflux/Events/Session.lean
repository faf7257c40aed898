import Codeflux.Events.Payload
import Codeflux.Go.Time

/-!
# Session events

One ordered fact of a session: an envelope with its sequence, identities, time and entity revision,
and a payload of one kind. The journal assigns sequence and time.
-/

namespace Codeflux.Events

open Library Domain Go

/-- An ordered, versioned session fact. -/
structure SessionEvent where
  sequence : UInt64
  sessionID : SessionID
  threadID : ThreadID
  taskID : Option TaskID
  timestamp : Timestamp
  kind : OpenEnum Kind
  revision : UInt64
  (causationID correlationID : Option EventID)
  payloadVersion : UInt32
  payload : Payload
deriving DecidableEq

/-- An event before the journal assigns its sequence and its time. -/
structure NewSessionEvent where
  sessionID : SessionID
  threadID : ThreadID
  taskID : Option TaskID
  kind : OpenEnum Kind
  revision : UInt64
  (causationID correlationID : Option EventID)
  payloadVersion : UInt32
  payload : Payload

/-- What back-pressure may do to an event. -/
inductive DeliveryClass
  | ephemeralCoalescible | material
deriving DecidableEq

namespace SessionEvent

/-- The envelope's own checks, before those on the payload. -/
def validateEnvelope (event : SessionEvent) : Result Unit := do
  ensure (event.sequence ≠ 0) (.new "session event sequence must be positive")
  ensure (event.sessionID.isZero = false) (.new "session event session ID must not be empty")
  ensure (event.threadID.isZero = false) (.new "session event thread ID must not be empty")
  ensure (event.taskID.all (!·.isZero)) (.new "session event task ID must not be empty")
  ensure (event.timestamp.isZero = false) (.new "session event timestamp must not be zero")
  ensure event.timestamp.utc (.new "session event timestamp must be UTC")
  ensure (event.payloadVersion = 1) (.new "session event payload version is unsupported")
  ensure (event.causationID.all (!·.isZero))
    (.new "session event causation ID must not be empty")
  ensure (event.correlationID.all (!·.isZero))
    (.new "session event correlation ID must not be empty")
  ensure (event.payload.count = 1)
    (.new "session event must contain exactly one typed payload")

/-- Check an event. -/
def validate (event : SessionEvent) : Result Unit := do
  event.validateEnvelope
  (validatePayload event.payload event.kind).mapError
    (.wrap ("validate " ++ event.kind.toText ++ " payload"))

/-- May the event be coalesced? -/
def deliveryClass (event : SessionEvent) : DeliveryClass :=
  match event.kind with
  | .declared .messageDelta | .declared .toolProgress => .ephemeralCoalescible
  | _ => .material

/-- May the event be coalesced? -/
def isEphemeral (event : SessionEvent) : Bool :=
  event.deliveryClass == .ephemeralCoalescible

theorem material_iff {event : SessionEvent} :
    event.deliveryClass = .material ↔ event.isEphemeral = false := by
  unfold isEphemeral
  cases event.deliveryClass <;> decide

/-- What a valid event satisfies. -/
structure Valid (event : SessionEvent) : Prop where
  sequence : event.sequence ≠ 0
  sessionID : event.sessionID.isZero = false
  threadID : event.threadID.isZero = false
  taskID : ∀ id ∈ event.taskID, id.isZero = false
  timestamp : event.timestamp.isZero = false
  utc : event.timestamp.utc = true
  payloadVersion : event.payloadVersion = 1
  causationID : ∀ id ∈ event.causationID, id.isZero = false
  correlationID : ∀ id ∈ event.correlationID, id.isZero = false
  count : event.payload.count = 1
  payload : validatePayload event.payload event.kind = .ok ()

theorem all_nonzero_iff {kind : IDKind} {id : Option (TypedID kind)} :
    id.all (!·.isZero) = true ↔ ∀ v ∈ id, v.isZero = false := by
  cases id <;> simp

theorem validate_ok_iff {event : SessionEvent} {u : Unit} :
    event.validate = .ok u ↔ event.Valid := by
  simp only [validate, validateEnvelope, run_ok_iff, mapError_ok_iff, all_nonzero_iff, exists_const]
  constructor
  · rintro ⟨⟨h1, h2, h3, h4, h5, h6, h7, h8, h9, h10⟩, h11⟩
    exact ⟨h1, h2, h3, h4, h5, h6, h7, h8, h9, h10, h11⟩
  · rintro ⟨h1, h2, h3, h4, h5, h6, h7, h8, h9, h10, h11⟩
    exact ⟨⟨h1, h2, h3, h4, h5, h6, h7, h8, h9, h10⟩, h11⟩

end SessionEvent

namespace NewSessionEvent

/-- The event with the sequence and time the journal assigns, not yet checked. -/
def sequenced (event : NewSessionEvent) (sequence : UInt64) (timestamp : Timestamp) :
    SessionEvent :=
  { event with sequence, timestamp }

/-- The event, checked. -/
def build (event : NewSessionEvent) (sequence : UInt64) (timestamp : Timestamp) :
    Result SessionEvent := do
  (event.sequenced sequence timestamp).validate
  return event.sequenced sequence timestamp

theorem build_ok_iff {event : NewSessionEvent} {sequence : UInt64} {timestamp : Timestamp}
    {built : SessionEvent} :
    event.build sequence timestamp = .ok built ↔
      event.sequenced sequence timestamp = built ∧ built.Valid := by
  simp only [build, run_ok_iff, SessionEvent.validate_ok_iff, exists_const]
  constructor
  · rintro ⟨hvalid, rfl⟩
    exact ⟨rfl, hvalid⟩
  · rintro ⟨rfl, hvalid⟩
    exact ⟨hvalid, rfl⟩

end NewSessionEvent

/-- Two updates of the same message, or of the same tool execution. -/
def sameEphemeralStream (first second : SessionEvent) : Bool :=
  first.kind == second.kind &&
    match first.kind with
    | .declared .messageDelta =>
      match first.payload.messageDelta, second.payload.messageDelta with
      | some a, some b => a.messageID == b.messageID
      | _, _ => false
    | .declared .toolProgress =>
      match first.payload.tool, second.payload.tool with
      | some a, some b => a.executionID == b.executionID
      | _, _ => false
    | _ => false

theorem isEphemeral_of_sameEphemeralStream {first second : SessionEvent}
    (h : sameEphemeralStream first second = true) : first.isEphemeral = true := by
  unfold sameEphemeralStream at h
  split at h
  · next hkind => simp [SessionEvent.isEphemeral, SessionEvent.deliveryClass, hkind]
  · next hkind => simp [SessionEvent.isEphemeral, SessionEvent.deliveryClass, hkind]
  · simp at h

/-- A session. -/
def sampleSessionID : SessionID :=
  ⟨"ses_0190a5b0-0000-7000-8000-000000000011", .inr (by decide)⟩

/-- Its thread. -/
def sampleThreadID : ThreadID :=
  ⟨"thr_0190a5b0-0000-7000-8000-000000000012", .inr (by decide)⟩

/-- A thread is renamed. -/
def sampleRename : NewSessionEvent where
  sessionID := sampleSessionID
  threadID := sampleThreadID
  taskID := none
  kind := .declared .threadRenamed
  revision := 1
  causationID := none
  correlationID := none
  payloadVersion := 1
  payload := { threadRenamed := some ⟨"Draft", "Release notes"⟩ }

/-- A message grows. -/
def sampleDelta : NewSessionEvent :=
  { sampleRename with
    kind := .declared .messageDelta
    payload := { messageDelta := some ⟨⟨"msg_0190a5b0-0000-7000-8000-000000000013",
      .inr (by decide)⟩, "more"⟩ } }

end Codeflux.Events
