import Codeflux.Transport.Encode
import Codeflux.Events.Hub

/-!
# The session service

The server joins the hub, sends the events of its subscription as wire messages, and marks the end
of the replay after the event at the boundary, or first when the client is at the boundary already.
-/

namespace Codeflux.Transport

open Library Domain Events

/-- What a handler does after the messages it has sent. -/
inductive StreamEnd
  /-- It waits for an event. -/
  | waiting
  /-- It has returned, with an error or without. -/
  | returned (failure : Option Failure)

/-- The messages of a stream, and how it goes on. -/
structure Served where
  responses : List SubscribeSessionResponse
  ending : StreamEnd

/-- The end of the replay, which is marked once. -/
def sendReplayBoundary (replayBoundary : UInt64) (replayComplete : Bool) :
    List SubscribeSessionResponse :=
  if replayComplete then [] else [{ replayBoundary := some ⟨replayBoundary⟩ }]

theorem length_queue_next {sub rest : Subscription} {event : SessionEvent}
    (h : sub.next = (rest, .event event)) : rest.queue.length < sub.queue.length := by
  cases hqueue : sub.queue with
  | nil => exact absurd (congrArg Prod.snd h) ((Subscription.next_of_nil hqueue).2 event)
  | cons first tail =>
    rw [Subscription.next_of_cons hqueue, Prod.mk.injEq] at h
    rw [← h.1]
    exact Nat.lt_succ_self _

/-- The loop over the subscription, until it waits or returns. -/
def serveEvents (replayBoundary : UInt64) (replayComplete : Bool) (sub : Subscription) : Served :=
  match _h : sub.next with
  | (_, .waiting) => ⟨[], .waiting⟩
  | (_, .failed failure) =>
    ⟨[], .returned (if Failure.Is eof failure then none else some failure)⟩
  | (rest, .event event) =>
    match sessionEventToProto event with
    | .error failure => ⟨[], .returned failure⟩
    | .ok converted =>
      let atBoundary := event.sequence == replayBoundary
      let mark := if atBoundary then sendReplayBoundary replayBoundary replayComplete else []
      let served := serveEvents replayBoundary (replayComplete || atBoundary) rest
      ⟨{ event := some converted } :: (mark ++ served.responses), served.ending⟩
termination_by sub.queue.length
decreasing_by exact length_queue_next _h

/-- The stream of a subscription. -/
def streamSubscription (afterSequence : UInt64) (sub : Subscription) : Served :=
  let atBoundary := afterSequence == sub.liveBoundary
  let mark := if atBoundary then sendReplayBoundary sub.liveBoundary false else []
  let served := serveEvents sub.liveBoundary atBoundary sub
  ⟨mark ++ served.responses, served.ending⟩

/-- The handler of `SubscribeSession`. The number of passes is that of the hub's replay. -/
def subscribeSession (hub : Hub) (journal : Journal) (passes : Nat)
    (request : SubscribeSessionRequest) : Option Served :=
  match sessionIDFromProto request.sessionID with
  | .error failure =>
    some ⟨[], .returned (Failure.request "session_id" "has an invalid typed identity: " failure)⟩
  | .ok sessionID =>
    let query : SubscriptionQuery :=
      { sessionID, threadID := none, taskID := none, afterSequence := request.afterSequence }
    match hub.subscribe journal passes query with
    | none => none
    | some (_, .error failure) => some ⟨[], .returned failure⟩
    | some (hub, .ok id) =>
      (hub.subscriptions.find? (·.id = id)).map (streamSubscription request.afterSequence)

variable {boundary : UInt64} {complete : Bool} {sub : Subscription}

theorem serveEvents_nil (hqueue : sub.queue = []) (hopen : sub.closed = false) :
    serveEvents boundary complete sub = ⟨[], .waiting⟩ := by
  have hnext : sub.next = (sub, .waiting) := by
    rw [Subscription.next, hqueue, Subscription.terminalError_eq_none_iff.2 hopen]
  rw [serveEvents]
  split
  · rfl
  · next failure heq =>
    rw [hnext] at heq
    cases heq
  · next rest event heq =>
    rw [hnext] at heq
    cases heq

theorem serveEvents_cons {event : SessionEvent} {rest : List SessionEvent} {converted : WireEvent}
    (hqueue : sub.queue = event :: rest) (hconverted : sessionEventToProto event = .ok converted) :
    serveEvents boundary complete sub =
      let served := serveEvents boundary (complete || event.sequence == boundary)
        { sub with queue := rest }
      ⟨{ event := some converted } ::
        ((if event.sequence == boundary then sendReplayBoundary boundary complete else []) ++
          served.responses), served.ending⟩ := by
  have hnext := Subscription.next_of_cons hqueue
  rw [serveEvents]
  split
  · next heq =>
    rw [hnext] at heq
    cases heq
  · next failure heq =>
    rw [hnext] at heq
    cases heq
  · next other first heq =>
    rw [hnext] at heq
    cases heq
    simp [hconverted]

section Handler

variable {hub : Hub} {journal : Journal} {passes : Nat} {sessionID : SessionID}
  {afterSequence : UInt64}

/-- The request of a client for a session. -/
def streamRequest (sessionID : SessionID) (afterSequence : UInt64) : SubscribeSessionRequest where
  sessionID := some { kind := .session, value := sessionID.value }
  afterSequence

/-- The query that the handler makes of it. -/
def streamQuery (sessionID : SessionID) (afterSequence : UInt64) : SubscriptionQuery where
  sessionID
  threadID := none
  taskID := none
  afterSequence

theorem subscribeSession_of_error {hub' : Hub} {failure : Failure} (hid : sessionID.isZero = false)
    (hsubscribe : hub.subscribe journal passes (streamQuery sessionID afterSequence) =
      some (hub', .error failure)) :
    subscribeSession hub journal passes (streamRequest sessionID afterSequence) =
      some ⟨[], .returned failure⟩ := by
  rw [streamQuery] at hsubscribe
  simp [subscribeSession, streamRequest, sessionIDFromProto, identityFromProto_ok hid, hsubscribe]

theorem subscribeSession_of_ok (hid : sessionID.isZero = false)
    (hids : ∀ old ∈ hub.subscriptions, old.id ≠ sub.id)
    (hsubscribe : hub.subscribe journal passes (streamQuery sessionID afterSequence) =
      some (hub.register sub, .ok sub.id)) :
    subscribeSession hub journal passes (streamRequest sessionID afterSequence) =
      some (streamSubscription afterSequence { sub with registered := true }) := by
  have hfind : (hub.register sub).subscriptions.find? (·.id = sub.id) =
      some { sub with registered := true } := by
    rw [Hub.register, List.find?_append, List.find?_eq_none.2 (by simpa using hids)]
    simp
  rw [streamQuery] at hsubscribe
  simp [subscribeSession, streamRequest, sessionIDFromProto, identityFromProto_ok hid, hsubscribe,
    hfind]

end Handler

end Codeflux.Transport
