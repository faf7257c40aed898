import Codeflux.Transport.SessionService
import Codeflux.SessionClient.Decode

/-!
# The session client

The browser asks for the events after the last one it has applied, demands that they come without a
gap, and counts as live once the server has marked the end of the replay at exactly that point.
-/

namespace Codeflux.SessionClient

open Library Domain Events Transport

/-- An event is missing. -/
def errSessionEventSequenceGap : Failure := .new "session event sequence gap"
/-- An event of another session. -/
def errSessionEventIdentityMismatch : Failure := .new "session event identity mismatch"
/-- The application refused an event. -/
def errSessionEventApplicationFailed : Failure := .new "session event application failed"
/-- The mark is at another place. -/
def errInvalidReplayBoundary : Failure := .new "invalid session replay boundary"

/-- The connection-certainty state. -/
inductive State
  | idle | connecting | replaying | live | reconnecting | gap | stopped | failed
deriving DecidableEq

/-- A failure category that can be presented. -/
inductive FailureKind
  | none | authentication | incompatible | protocol | application | unavailable

/-- What the client shows. -/
structure Status where
  state : State
  lastSequence : UInt64
  reconnectCount : Nat
  controlsAllowed : Bool
  failure : FailureKind

namespace Status

/-- The status after an event. -/
def advance (status : Status) (sequence : UInt64) : Status :=
  { status with lastSequence := sequence, controlsAllowed := status.state == .live }

/-- The status after the mark. -/
def markLive (status : Status) : Status :=
  { status with state := .live, controlsAllowed := true, failure := .none }

/-- The status in another state. -/
def transition (status : Status) (state : State) (failure : FailureKind) (reconnectCount : Nat) :
    Status :=
  { status with state, reconnectCount, controlsAllowed := state == .live, failure }

end Status

/-- The configuration of a client and its status. The error of `apply` is its text. -/
structure Client where
  sessionID : StableIdentity
  apply : WireEvent → Except String Unit
  status : Status

/-- How the loop over a stream is left. -/
inductive Ending
  /-- It waits for a message. -/
  | waiting
  | failed (failure : Failure)
deriving DecidableEq

/-- The outcome of a stream. -/
structure Received where
  status : Status
  madeProgress : Bool
  ending : Ending

namespace Client

variable (client : Client)

/-- The loop over the messages of a stream. -/
def receive (streamEnd : StreamEnd) : List SubscribeSessionResponse → Status → Bool → Received
  | [], status, madeProgress =>
    match streamEnd with
    | .waiting => ⟨status, madeProgress, .waiting⟩
    | .returned none => ⟨status, madeProgress, .failed eof⟩
    | .returned (some failure) => ⟨status, madeProgress, .failed failure⟩
  | response :: rest, status, madeProgress =>
    match response.replayBoundary with
    | some boundary =>
      if response.event.isSome ∨ status.state ≠ .replaying ∨
          boundary.throughSequence ≠ status.lastSequence then
        ⟨status, madeProgress, .failed errInvalidReplayBoundary⟩
      else receive streamEnd rest status.markLive madeProgress
    | none =>
      match response.event with
      | none => ⟨status, madeProgress, .failed errInvalidSessionEvent⟩
      | some event =>
        if event.sequence = 0 then
          ⟨status, madeProgress, .failed errInvalidSessionEvent⟩
        else if event.sessionID ≠ some client.sessionID then
          ⟨status, madeProgress, .failed errSessionEventIdentityMismatch⟩
        else if event.sequence ≤ status.lastSequence then
          receive streamEnd rest status madeProgress
        else if event.sequence ≠ status.lastSequence + 1 then
          ⟨status.transition .gap .protocol status.reconnectCount, madeProgress,
            .failed errSessionEventSequenceGap⟩
        else
          match client.apply event with
          | .error reason =>
            ⟨status, madeProgress, .failed (.detail errSessionEventApplicationFailed reason)⟩
          | .ok () => receive streamEnd rest (status.advance event.sequence) true

/-- One connection: the request, the state while its stream is replayed, and the stream. -/
def attempt (hub : Hub) (journal : Journal) (passes failures : Nat) : Option Received :=
  let request : SubscribeSessionRequest :=
    { sessionID := client.sessionID, afterSequence := client.status.lastSequence }
  (subscribeSession hub journal passes request).map fun served =>
    client.receive served.ending served.responses
      (client.status.transition .replaying .none failures) false

end Client

end Codeflux.SessionClient
