import Codeflux.Events.Replay
import Codeflux.SessionClient.Client
import Codeflux.SessionClient.RoundTrip

/-!
# Replay, end to end

On a contiguous history, and while nothing is published, a connection should bring the client to the
boundary or be refused because the client needs a snapshot first. A full queue makes room by
dropping an event that may be coalesced, and then the client sees a gap.
-/

namespace Codeflux.SessionClient

open Library Domain Events Storage Transport List Nat
open SessionStore

/-- The client is live at the boundary, or has to fetch a snapshot. -/
def Received.Settled (received : Received) (boundary : UInt64) : Prop :=
  (received.ending = .waiting ∧ received.status.state = .live ∧
    received.status.lastSequence = boundary) ∨
  received.ending = .failed errSnapshotRequired

/-- The events to replay fit a page and the queue; or the material events alone do not fit the
queue, which the hub refuses. -/
def ReplayFits (capacity : Nat) (events : List SessionEvent) : Prop :=
  min capacity events.length ≤ 1000 ∧
    (events.length ≤ capacity ∨
      capacity < (events.filter fun event => event.deliveryClass = .material).length)

instance (capacity : Nat) (events : List SessionEvent) : Decidable (ReplayFits capacity events) :=
  inferInstanceAs (Decidable (_ ∧ _))

/-! ### The stream of a queue -/

section Stream

variable {boundary : UInt64} {complete : Bool} {sub : Subscription}

theorem countP_sendReplayBoundary :
    (sendReplayBoundary boundary complete).countP (·.event.isSome) = 0 := by
  unfold sendReplayBoundary
  split <;> rfl

variable {queue : List SessionEvent}

theorem serveEvents_events (hqueue : sub.queue = queue) (hopen : sub.closed = false)
    (hvalid : ∀ event ∈ queue, event.Valid) :
    (serveEvents boundary complete sub).ending = .waiting ∧
      (serveEvents boundary complete sub).responses.countP (·.event.isSome) = queue.length := by
  induction queue generalizing complete sub with
  | nil =>
    rw [serveEvents_nil hqueue hopen]
    exact ⟨rfl, rfl⟩
  | cons event rest ih =>
    have hevent := hvalid event mem_cons_self
    obtain ⟨kind, hkind⟩ := exists_kind hevent
    obtain ⟨message, hmessage, -⟩ := sessionEventToProto_sent hevent hkind
    rw [serveEvents_cons hqueue hmessage]
    have hrest := @ih (complete || event.sequence == boundary) { sub with queue := rest } rfl hopen
      fun e he => hvalid e (mem_cons_of_mem event he)
    refine ⟨hrest.1, ?_⟩
    have hmark : (if event.sequence == boundary then sendReplayBoundary boundary complete
        else []).countP (·.event.isSome) = 0 := by
      split
      · exact countP_sendReplayBoundary
      · rfl
    rw [countP_cons_of_pos rfl, countP_append, hmark, hrest.2, length_cons,
      zero_add]

theorem streamSubscription_events (cursor : UInt64) (hqueue : sub.queue = queue)
    (hopen : sub.closed = false) (hvalid : ∀ event ∈ queue, event.Valid) :
    (streamSubscription cursor sub).ending = .waiting ∧
      (streamSubscription cursor sub).responses.countP (·.event.isSome) = queue.length := by
  obtain ⟨hending, hcount⟩ := @serveEvents_events sub.liveBoundary (cursor == sub.liveBoundary) sub
    queue hqueue hopen hvalid
  refine ⟨hending, ?_⟩
  rw [streamSubscription, countP_append, hcount]
  split
  · rw [countP_sendReplayBoundary, zero_add]
  · exact zero_add _

end Stream

theorem toNat_of_successor {a b : UInt64} (hb : b = a + 1) (hlt : a < b) :
    b.toNat = a.toNat + 1 := by
  have hmod : b.toNat = (a.toNat + 1) % 2 ^ 64 := by rw [hb, UInt64.toNat_add]; rfl
  rw [UInt64.lt_iff_toNat_lt] at hlt
  omega

namespace Client

variable {client : Client} {response : SubscribeSessionResponse}
  {responses : List SubscribeSessionResponse} {streamEnd : StreamEnd} {status : Status}
  {madeProgress : Bool}

/-- What one message can do: it ends the loop, or the loop goes on, one sequence further at most. -/
theorem receive_cons :
    (∃ status' failure, client.receive streamEnd (response :: responses) status madeProgress =
        ⟨status', madeProgress, .failed failure⟩ ∧
      status'.lastSequence = status.lastSequence ∧ failure ≠ errSnapshotRequired) ∨
    ∃ status' madeProgress', client.receive streamEnd (response :: responses) status madeProgress =
        client.receive streamEnd responses status' madeProgress' ∧
      (status'.lastSequence = status.lastSequence ∨
        response.event.isSome = true ∧
          status'.lastSequence.toNat = status.lastSequence.toNat + 1) := by
  rw [receive]
  split
  · split
    · exact .inl ⟨_, _, rfl, rfl, by decide⟩
    · exact .inr ⟨_, _, rfl, .inl rfl⟩
  · split
    · exact .inl ⟨_, _, rfl, rfl, by decide⟩
    · next event hevent =>
      split_ifs with hzero hsession hold hgap
      · exact .inl ⟨_, _, rfl, rfl, by decide⟩
      · exact .inl ⟨_, _, rfl, rfl, by decide⟩
      · exact .inr ⟨_, _, rfl, .inl rfl⟩
      · exact .inl ⟨_, _, rfl, rfl, by decide⟩
      · split
        · exact .inl ⟨_, _, rfl, rfl, nofun⟩
        · refine .inr ⟨_, _, rfl, .inr ⟨by rw [hevent]; rfl, ?_⟩⟩
          have hlt := UInt64.not_le.1 hold
          rw [not_not] at hgap
          exact toNat_of_successor hgap hlt

theorem receive_bounded :
    (client.receive .waiting responses status madeProgress).status.lastSequence.toNat ≤
        status.lastSequence.toNat + responses.countP (·.event.isSome) ∧
      (client.receive .waiting responses status madeProgress).ending ≠
        .failed errSnapshotRequired := by
  induction responses generalizing status madeProgress with
  | nil => exact ⟨by rw [receive]; exact le_add_right _ _, by rw [receive]; exact nofun⟩
  | cons response rest ih =>
    rcases receive_cons with ⟨status', failure, heq, hlast, hne⟩ |
      ⟨status', madeProgress', heq, hlast⟩
    · rw [heq, hlast]
      exact ⟨le_add_right _ _, fun h => hne (by cases h; rfl)⟩
    · rw [heq]
      obtain ⟨hle, hne⟩ := @ih status' madeProgress'
      refine ⟨?_, hne⟩
      rw [countP_cons]
      rcases hlast with hlast | ⟨hevent, hlast⟩
      · rw [hlast] at hle
        omega
      · rw [if_pos hevent]
        omega

theorem receive_event {event : WireEvent} (happly : ∀ event, client.apply event = .ok ())
    (hsession : event.sessionID = some client.sessionID)
    (hsequence : event.sequence.toNat = status.lastSequence.toNat + 1) :
    client.receive streamEnd ({ event := some event } :: responses) status madeProgress =
      client.receive streamEnd responses (status.advance event.sequence) true := by
  have hsuccessor : event.sequence = status.lastSequence + 1 := by
    apply UInt64.toNat_inj.1
    rw [UInt64.toNat_add, UInt64.toNat_one, ← hsequence, mod_eq_of_lt (UInt64.toNat_lt _)]
  have hzero : event.sequence ≠ 0 := by
    rw [Ne, ← UInt64.toNat_inj, hsequence]
    exact succ_ne_zero _
  have hlate : ¬event.sequence ≤ status.lastSequence := by
    rw [UInt64.le_iff_toNat_le]
    omega
  rw [receive]
  simp [hzero, hsession, hlate, ← hsuccessor, happly]

theorem receive_boundary (hstate : status.state = .replaying) :
    client.receive streamEnd ({ replayBoundary := some ⟨status.lastSequence⟩ } :: responses) status
        madeProgress =
      client.receive streamEnd responses status.markLive madeProgress := by
  rw [receive]
  simp [hstate]

section Stream

variable {queue : List SessionEvent} {sessionID : SessionID} {sub : Subscription}
  (happly : ∀ event, client.apply event = .ok ())
  (hclient : client.sessionID = { kind := .session, value := sessionID.value })
  (hqueue : sub.queue = queue) (hopen : sub.closed = false)
  (hvalid : ∀ event ∈ queue, event.Valid ∧ event.sessionID = sessionID)
  (hnumbered : Numbered (·.sequence.toNat) (status.lastSequence.toNat + 1) queue)

include happly hclient hqueue hopen hvalid hnumbered

/-- **Consecutive events.** A stream of consecutive events from the client's cursor up to the
boundary makes the client live at the boundary. -/
theorem receive_numbered {boundary : UInt64}
    (hboundary : boundary.toNat = status.lastSequence.toNat + queue.length)
    (hstate : status.state = if queue = [] then .live else .replaying) :
    (client.receive .waiting (serveEvents boundary queue.isEmpty sub).responses status
      madeProgress).Settled boundary := by
  induction queue generalizing sub status madeProgress with
  | nil =>
    rw [serveEvents_nil hqueue hopen, receive]
    exact .inl ⟨rfl, hstate, UInt64.toNat_inj.1 hboundary.symm⟩
  | cons event rest ih =>
    obtain ⟨hevent, hsession⟩ := hvalid event mem_cons_self
    obtain ⟨kind, hkind⟩ := exists_kind hevent
    obtain ⟨message, hmessage, hsent⟩ := sessionEventToProto_sent hevent hkind
    have hsequence : message.sequence.toNat = status.lastSequence.toNat + 1 := by
      rw [hsent.sequence]
      exact hnumbered.1
    rw [serveEvents_cons hqueue hmessage]
    rw [receive_event happly (by rw [hsent.sessionID, hsession, hclient]) hsequence,
      hsent.sequence]
    rw [hsent.sequence] at hsequence
    rw [length_cons] at hboundary
    have hreplaying : (status.advance event.sequence).state = .replaying := hstate
    have hrest := fun e he => hvalid e (mem_cons_of_mem event he)
    have htail : Numbered (·.sequence.toNat) (event.sequence.toNat + 1) rest := by
      rw [hsequence]
      exact hnumbered.2
    cases rest with
    | nil =>
      -- the last event is followed by the mark
      obtain rfl : event.sequence = boundary := UInt64.toNat_inj.1 (hsequence.trans hboundary.symm)
      rw [beq_self_eq_true]
      show (client.receive .waiting
        ({ replayBoundary := some ⟨(status.advance event.sequence).lastSequence⟩ } :: _) _
        _).Settled _
      rw [receive_boundary hreplaying]
      exact ih rfl hopen hrest htail rfl rfl
    | cons next rest =>
      have hne : (event.sequence == boundary) = false := by
        rw [beq_eq_false_iff_ne, Ne, ← UInt64.toNat_inj, hsequence, hboundary, length_cons]
        omega
      rw [hne]
      refine ih rfl hopen hrest htail ?_ hreplaying
      show boundary.toNat = event.sequence.toNat + _
      omega

/-- A stream whose queue leads from the client's cursor to the boundary makes the client live. -/
theorem receive_stream
    (hboundary : sub.liveBoundary.toNat = status.lastSequence.toNat + queue.length)
    (hstate : status.state = .replaying) :
    (client.receive .waiting (streamSubscription status.lastSequence sub).responses status
      madeProgress).Settled sub.liveBoundary := by
  rw [streamSubscription]
  cases queue with
  | nil =>
    -- the client is at the boundary, and the mark comes first
    have hcursor : status.lastSequence = sub.liveBoundary := UInt64.toNat_inj.1 hboundary.symm
    rw [← hcursor, beq_self_eq_true]
    show (client.receive .waiting ({ replayBoundary := some ⟨status.lastSequence⟩ } :: _) _
      _).Settled _
    rw [receive_boundary hstate]
    exact @receive_numbered _ status.markLive _ _ _ _ happly hclient hqueue hopen hvalid hnumbered _
      rfl rfl
  | cons event rest =>
    have hne : (status.lastSequence == sub.liveBoundary) = false := by
      rw [beq_eq_false_iff_ne, Ne, ← UInt64.toNat_inj, hboundary, length_cons]
      omega
    rw [hne]
    exact receive_numbered happly hclient hqueue hopen hvalid hnumbered hboundary hstate

end Stream

end Client

/-! ### One connection -/

/-- A client of a session of a contiguous journal, whose cursor is not ahead of the journal and
whose application of events succeeds, and an open hub. -/
structure Connectable (store : SessionStore) (hub : Hub) (row : SessionRow) (client : Client) :
    Prop where
  contiguous : store.Contiguous
  capacity : 1 ≤ hub.capacity
  isOpen : hub.closed = false
  ids_le : ∀ sub ∈ hub.subscriptions, sub.id ≤ hub.nextID
  row_mem : row ∈ store.sessions.rows
  id_nonzero : row.id.isZero = false
  sessionID : client.sessionID = { kind := .session, value := row.id.value }
  apply : ∀ event, client.apply event = .ok ()
  cursor_le : client.status.lastSequence ≤ row.currentSequence

section Attempt

variable {store : SessionStore} {hub : Hub} {row : SessionRow} {client : Client}

/-- The events that a client has yet to see. -/
def unseen (store : SessionStore) (row : SessionRow) (client : Client) : List SessionEvent :=
  (store.history row.id).drop client.status.lastSequence.toNat

/-- Enough passes for the replay of a connection. -/
def attemptPasses (store : SessionStore) (row : SessionRow) (client : Client) : Nat :=
  replayPasses store (streamQuery row.id client.status.lastSequence)

/-- The status of a client while its stream is replayed. -/
def replayingStatus (client : Client) (failures : Nat) : Status :=
  client.status.transition .replaying .none failures

namespace Connectable

variable {queue : List SessionEvent} (h : Connectable store hub row client)

include h

theorem unseen_numbered :
    Numbered (·.sequence.toNat) (client.status.lastSequence.toNat + 1) (unseen store row client) ∧
      row.currentSequence.toNat =
        client.status.lastSequence.toNat + (unseen store row client).length ∧
      ∀ event ∈ unseen store row client, event.Valid ∧ event.sessionID = row.id := by
  obtain ⟨hnumbered, hlength⟩ := h.contiguous.numbered_history h.row_mem
  have hcursor := UInt64.le_iff_toNat_le.1 h.cursor_le
  refine ⟨?_, ?_, fun event hevent => ?_⟩
  · rw [add_comm]
    exact hnumbered.drop _ (by omega)
  · rw [unseen, length_drop, hlength]
    omega
  · have hmem := mem_of_mem_drop hevent
    rw [history, mem_filter, beq_iff_eq] at hmem
    exact ⟨h.contiguous.valid event hmem.1, hmem.2⟩

theorem subscribe_eq :
    hub.subscribe store.journal (attemptPasses store row client)
        (streamQuery row.id client.status.lastSequence) =
      some (hub.joined (
        if min hub.capacity (unseen store row client).length ≤ 1000 then
          (hub.opened (streamQuery row.id client.status.lastSequence) row.currentSequence).replayed
            (eventPolicy.offerAll hub.capacity [] (unseen store row client))
        else .error errReplayLimit)) := by
  have hquery : hub.checkQuery store.journal (streamQuery row.id client.status.lastSequence) =
      .ok row.currentSequence :=
    Hub.checkQuery_ok_iff.2
      ⟨h.id_nonzero, rfl, rfl, h.isOpen, ⟨row, h.row_mem, rfl, rfl⟩, h.cursor_le⟩
  -- a stream has no scope, so that every event of the session is offered
  have hscope : (backlog store (streamQuery row.id client.status.lastSequence)).filter
      (hub.opened (streamQuery row.id client.status.lastSequence)
        row.currentSequence).matchesEvent = unseen store row client :=
    filter_eq_self.2 fun _ _ => rfl
  have hlength : (unseen store row client).length =
      row.currentSequence.toNat - client.status.lastSequence.toNat := by
    have := h.unseen_numbered.2.1
    omega
  have hsubscribe := Hub.subscribe_of_checkQuery h.contiguous h.capacity hquery
  rw [hscope] at hsubscribe
  rwa [hlength]

theorem request_eq :
    ({ sessionID := client.sessionID, afterSequence := client.status.lastSequence } :
      SubscribeSessionRequest) = streamRequest row.id client.status.lastSequence := by
  rw [h.sessionID]
  rfl

theorem attempt_of_error (failures : Nat) {hub' : Hub} {failure : Failure}
    (hsubscribe : hub.subscribe store.journal (attemptPasses store row client)
      (streamQuery row.id client.status.lastSequence) = some (hub', .error failure)) :
    client.attempt hub store.journal (attemptPasses store row client) failures =
      some ⟨replayingStatus client failures, false, .failed failure⟩ := by
  rw [Client.attempt, h.request_eq, subscribeSession_of_error h.id_nonzero hsubscribe]
  rfl

theorem attempt_of_ok (failures : Nat)
    (hlimit : min hub.capacity (unseen store row client).length ≤ 1000)
    (hoffer : eventPolicy.offerAll hub.capacity [] (unseen store row client) = some queue) :
    ∃ sub : Subscription, sub.queue = queue ∧ sub.closed = false ∧
      sub.liveBoundary = row.currentSequence ∧
      client.attempt hub store.journal (attemptPasses store row client) failures =
        some (client.receive (streamSubscription client.status.lastSequence sub).ending
          (streamSubscription client.status.lastSequence sub).responses
          (replayingStatus client failures) false) := by
  have hsubscribe := h.subscribe_eq
  rw [if_pos hlimit, hoffer] at hsubscribe
  have hids : ∀ old ∈ hub.subscriptions, old.id ≠ hub.nextID + 1 := fun old hold => by
    have := h.ids_le old hold
    omega
  refine ⟨{ hub.opened (streamQuery row.id client.status.lastSequence) row.currentSequence with
    queue, registered := true }, rfl, rfl, rfl, ?_⟩
  rw [Client.attempt, h.request_eq, subscribeSession_of_ok h.id_nonzero hids hsubscribe]
  rfl

/-- A replay that fits makes the client live. -/
theorem settled_of_room (failures : Nat)
    (hlimit : min hub.capacity (unseen store row client).length ≤ 1000)
    (hroom : (unseen store row client).length ≤ hub.capacity) :
    ∃ received, client.attempt hub store.journal (attemptPasses store row client) failures =
        some received ∧ received.Settled row.currentSequence := by
  obtain ⟨hnumbered, hlength, hvalid⟩ := h.unseen_numbered
  have hoffer : eventPolicy.offerAll hub.capacity [] (unseen store row client) =
      some (unseen store row client) :=
    eventPolicy.offerAll_of_room (by simpa using hroom)
  obtain ⟨sub, hqueue, hopen, hboundary, hattempt⟩ := h.attempt_of_ok failures hlimit hoffer
  obtain ⟨hending, -⟩ := streamSubscription_events client.status.lastSequence hqueue hopen
    fun event hevent => (hvalid event hevent).1
  refine ⟨_, hattempt, ?_⟩
  rw [hending, ← hboundary]
  rw [← hboundary] at hlength
  show (client.receive .waiting (streamSubscription
    (replayingStatus client failures).lastSequence sub).responses _ _).Settled _
  exact Client.receive_stream h.apply h.sessionID hqueue hopen hvalid hnumbered hlength rfl

/-- A replay that does not fit, and is not refused, does not bring the client to the boundary. -/
theorem not_settled_of_coalesced (failures : Nat)
    (hlimit : min hub.capacity (unseen store row client).length ≤ 1000)
    (hoffer : eventPolicy.offerAll hub.capacity [] (unseen store row client) = some queue)
    (hlong : hub.capacity < (unseen store row client).length) :
    ∀ received, client.attempt hub store.journal (attemptPasses store row client) failures =
        some received → ¬received.Settled row.currentSequence := by
  obtain ⟨-, hlength, hvalid⟩ := h.unseen_numbered
  obtain ⟨sub, hqueue, hopen, hboundary, hattempt⟩ := h.attempt_of_ok failures hlimit hoffer
  obtain ⟨hsublist, -, hspec⟩ := eventPolicy.offerAll_spec hoffer
  have hqueue_length := hspec (zero_le _)
  obtain ⟨hending, hcount⟩ := streamSubscription_events client.status.lastSequence hqueue hopen
    fun event hevent => (hvalid event (hsublist.subset hevent)).1
  intro received hreceived
  obtain rfl := Option.some_inj.1 (hattempt.symm.trans hreceived)
  rw [hending]
  obtain ⟨hle, hne⟩ := @Client.receive_bounded client
    (streamSubscription client.status.lastSequence sub).responses (replayingStatus client failures)
    false
  rintro (⟨-, -, hlast⟩ | hrefused)
  · have hcursor : (replayingStatus client failures).lastSequence =
      client.status.lastSequence := rfl
    rw [hlast, hcursor] at hle
    omega
  · exact hne hrefused

end Connectable

end Attempt

/-- **Replay, end to end.** A connection of a client makes it live at the boundary, or is refused
because the client needs a snapshot, exactly when its replay fits. -/
theorem replay_settles_iff {store : SessionStore} {hub : Hub} {row : SessionRow} {client : Client}
    (h : Connectable store hub row client) (failures : Nat) :
    (∃ received, client.attempt hub store.journal (attemptPasses store row client) failures =
        some received ∧ received.Settled row.currentSequence) ↔
      ReplayFits hub.capacity (unseen store row client) := by
  have hsubscribe := h.subscribe_eq
  by_cases hlimit : min hub.capacity (unseen store row client).length ≤ 1000
  · rw [if_pos hlimit] at hsubscribe
    have hkept : eventPolicy.kept (unseen store row client) =
        (unseen store row client).filter fun event => event.deliveryClass = .material :=
      filter_congr fun event _ => by
        rw [Bool.eq_iff_iff, decide_eq_true_eq, SessionEvent.material_iff, Bool.not_eq_true']
        rfl
    have hsome : (eventPolicy.offerAll hub.capacity [] (unseen store row client)).isSome = true ↔
        (eventPolicy.kept ([] ++ unseen store row client)).length ≤ hub.capacity :=
      eventPolicy.offerAll_isSome_iff (zero_le _)
    rw [nil_append, hkept] at hsome
    cases hoffer : eventPolicy.offerAll hub.capacity [] (unseen store row client) with
    | none =>
      -- the material events do not fit, and the hub refuses
      rw [hoffer] at hsubscribe hsome
      refine iff_of_true ⟨_, h.attempt_of_error failures hsubscribe, .inr rfl⟩ ⟨hlimit, .inr ?_⟩
      exact Nat.lt_of_not_le fun hle => Bool.false_ne_true (hsome.2 hle)
    | some queue =>
      have hmaterial := hsome.1 (by rw [hoffer]; rfl)
      by_cases hroom : (unseen store row client).length ≤ hub.capacity
      · exact iff_of_true (h.settled_of_room failures hlimit hroom) ⟨hlimit, .inl hroom⟩
      · refine iff_of_false ?_ ?_
        · rintro ⟨received, hreceived, hsettled⟩
          exact h.not_settled_of_coalesced failures hlimit hoffer (Nat.lt_of_not_le hroom) received
            hreceived hsettled
        · rintro ⟨-, hfits | hrefused⟩
          · exact hroom hfits
          · exact Nat.not_le_of_lt hrefused hmaterial
  · rw [if_neg hlimit] at hsubscribe
    refine iff_of_false ?_ fun hfits => hlimit hfits.1
    rintro ⟨received, hreceived, hsettled⟩
    obtain rfl := Option.some_inj.1 ((h.attempt_of_error failures hsubscribe).symm.trans hreceived)
    have hne : errReplayLimit ≠ errSnapshotRequired := by decide
    exact hsettled.elim nofun fun hrefused => hne (Ending.failed.inj hrefused)

/-- A session with the given history. -/
def sampleStore (inputs : List NewSessionEvent) : SessionStore :=
  appendAll ⟨1000, true⟩
    (settled .empty (SessionStore.empty.createSession sampleSessionID sampleThreadID)) inputs

/-- The session at a sequence. -/
def sampleRow (sequence : UInt64) : SessionRow := ⟨sampleSessionID, sampleThreadID, sequence⟩

/-- A client that has seen nothing yet. -/
def sampleClient : Client where
  sessionID := { kind := .session, value := sampleSessionID.value }
  apply _ := .ok ()
  status := ⟨.connecting, 0, 0, false, .none⟩

theorem sampleStore_contiguous (inputs : List NewSessionEvent) :
    (sampleStore inputs).Contiguous := by
  refine appendAll_contiguous _ _ ?_
  rcases settled_cases SessionStore.empty
    (SessionStore.empty.createSession sampleSessionID sampleThreadID) with hsame | hok
  · rw [hsame]
    exact empty_contiguous
  · exact createSession_contiguous empty_contiguous hok

theorem replay_settles_sample :
    ∃ received, sampleClient.attempt { capacity := 2 }
        (sampleStore [sampleDelta, sampleRename]).journal
        (attemptPasses (sampleStore [sampleDelta, sampleRename]) (sampleRow 2) sampleClient) 0 =
      some received ∧ received.Settled 2 := by
  have hconnectable : Connectable (sampleStore [sampleDelta, sampleRename]) { capacity := 2 }
      (sampleRow 2) sampleClient := {
    contiguous := sampleStore_contiguous _
    capacity := by decide
    isOpen := rfl
    ids_le := by simp
    row_mem := by decide
    id_nonzero := by decide
    sessionID := rfl
    apply := fun _ => rfl
    cursor_le := by decide }
  exact (replay_settles_iff hconnectable 0).2 (by decide)

/-- Two updates of a message and a renaming, for a queue of two: the first update is dropped, the
client sees a gap, and it stays where it was. -/
theorem coalesced_replay_gap :
    let store := sampleStore [sampleDelta, sampleDelta, sampleRename]
    (sampleClient.attempt { capacity := 2 } store.journal
        (attemptPasses store (sampleRow 3) sampleClient) 0).map
      (fun received => (received.ending, received.madeProgress, received.status.lastSequence)) =
      some (.failed errSessionEventSequenceGap, false, 0) := by
  decide +kernel

end Codeflux.SessionClient
