import Codeflux.Library.CoalescingQueue
import Codeflux.Events.Session

/-!
# The session event hub

A subscription starts with the committed events after its cursor, up to a boundary read under the
hub's lock, and then takes the events that publishers hand to the hub after committing them. Once it
is closed the hub forgets it, while its reader can still drain the queue. The hub of the model
therefore keeps every subscription, with a mark for those in the map `hub.subscribers` of the
source.
-/

namespace Codeflux.Events

open Library Domain List

/-- The queue is full. -/
def errSlowSubscriber : Failure := .new "session subscriber is too slow"
/-- The cursor is too old. -/
def errSnapshotRequired : Failure := .new "session snapshot is required"
/-- The hub is closed. -/
def errHubClosed : Failure := .new "session event hub is closed"

/-- The end of a stream that was closed without a reason: `io.EOF`. -/
def eof : Failure := .new "EOF"

/-- Committed durable history. -/
structure Journal where
  /-- The events of a session after a sequence, at most as many as the limit says. -/
  replayCommitted : SessionID → UInt64 → Nat → Result (List SessionEvent)
  committedSequence : SessionID → Result UInt64

/-- One session stream, with an optional scope of a thread or a task. -/
structure SubscriptionQuery where
  sessionID : SessionID
  threadID : Option ThreadID
  taskID : Option TaskID
  afterSequence : UInt64

/-- Which session events a full queue may coalesce. -/
def eventPolicy : QueuePolicy SessionEvent where
  ephemeral := SessionEvent.isEphemeral
  sameStream := sameEphemeralStream
  ephemeral_of_sameStream := isEphemeral_of_sameEphemeralStream

/-! ### Subscriptions -/

/-- A bounded event cursor. -/
structure Subscription where
  id : Nat
  query : SubscriptionQuery
  (liveBoundary liveAfter : UInt64)
  capacity : Nat
  queue : List SessionEvent := []
  closed : Bool := false
  closeErr : Option Failure := none
  /-- Is the subscription in `hub.subscribers`? -/
  registered : Bool := false

/-- What a reader of a subscription gets. -/
inductive NextResult
  | event (event : SessionEvent)
  | failed (failure : Failure)
  /-- The queue is empty and the subscription open: the reader waits. -/
  | waiting

/-- What a publication did to one subscription. -/
structure Receipt where
  delivered : Bool := false
  coalesced : Bool := false
  disconnected : Bool := false

namespace Subscription

variable (sub : Subscription) (event : SessionEvent)

/-- Is the event in the scope of the query? The session is compared apart from this. -/
def matchesEvent : Bool :=
  sub.query.threadID.all (event.threadID == ·) &&
    sub.query.taskID.all fun taskID => event.taskID == some taskID

/-- The subscription after an event was offered to its queue, with whether the event counts as
delivered and whether something was coalesced. -/
def enqueueLocked : Subscription × Bool × Bool :=
  if sub.closed then (sub, false, false)
  else
    let offered := eventPolicy.offer sub.capacity sub.queue event
    ({ sub with queue := offered.1 }, offered.2)

/-- Close a subscription, once. -/
def closeLocked (reason : Option Failure) : Subscription :=
  if sub.closed then sub else { sub with closed := true, closeErr := reason }

/-- The error that ends the subscription, once it is closed. -/
def terminalError : Option Failure :=
  if sub.closed then some (sub.closeErr.getD eof) else none

/-- One reading of the queue. -/
def next : Subscription × NextResult :=
  match sub.queue with
  | event :: rest => ({ sub with queue := rest }, .event event)
  | [] =>
    match sub.terminalError with
    | some failure => (sub, .failed failure)
    | none => (sub, .waiting)

/-- Does a publication of the event concern the subscription? -/
def accepts : Bool :=
  sub.registered && sub.query.sessionID == event.sessionID && sub.liveAfter < event.sequence &&
    sub.matchesEvent event

/-- The body of the loop over the subscribers in `PublishCommitted`. -/
def publish : Subscription × Receipt :=
  if sub.accepts event then
    match sub.enqueueLocked event with
    | (sub, true, coalesced) =>
      ({ sub with liveAfter := event.sequence }, { delivered := true, coalesced })
    | (sub, false, coalesced) =>
      if event.deliveryClass = .material then
        ({ sub.closeLocked errSlowSubscriber with registered := false },
          { coalesced, disconnected := true })
      else (sub, { coalesced })
  else (sub, {})

/-- The effect of `close` on the subscription: closed, and removed from the hub if it was open. -/
def close (reason : Option Failure) : Subscription :=
  if sub.closed then sub else { sub.closeLocked reason with registered := false }

variable {sub : Subscription} {event : SessionEvent}

theorem enqueueLocked_of_open (h : sub.closed = false) :
    sub.enqueueLocked event =
      ({ sub with queue := (eventPolicy.offer sub.capacity sub.queue event).1 },
        (eventPolicy.offer sub.capacity sub.queue event).2) := by
  rw [enqueueLocked, h]
  rfl

theorem enqueueLocked_id : (sub.enqueueLocked event).1.id = sub.id := by
  unfold enqueueLocked
  split <;> rfl

/-- A subscription that leaves the hub keeps its queue and its place in the stream. -/
theorem closeLocked_eq (reason : Option Failure) :
    { sub.closeLocked reason with registered := false } =
      { sub with
        closed := true, closeErr := (sub.closeLocked reason).closeErr, registered := false } := by
  unfold closeLocked
  split
  · next hclosed => rw [← hclosed]
  · rfl

theorem publish_id : (sub.publish event).1.id = sub.id := by
  have hid : (sub.enqueueLocked event).1.id = sub.id := enqueueLocked_id
  fun_cases publish sub event with
  | case1 _ offered _ hoffered | case3 _ offered _ hoffered => rwa [hoffered] at hid
  | case2 _ offered _ hoffered =>
    rw [hoffered] at hid
    rwa [closeLocked_eq]
  | case4 => rfl

theorem next_of_cons {rest : List SessionEvent} (h : sub.queue = event :: rest) :
    sub.next = ({ sub with queue := rest }, .event event) := by
  rw [next, h]

theorem next_of_nil (h : sub.queue = []) :
    sub.next.1 = sub ∧ ∀ event, sub.next.2 ≠ .event event := by
  rw [next, h]
  cases sub.terminalError <;> simp

theorem close_id (reason : Option Failure) : (sub.close reason).id = sub.id := by
  unfold close
  split
  · rfl
  · rw [closeLocked_eq]

theorem terminalError_eq_none_iff : sub.terminalError = none ↔ sub.closed = false := by
  unfold terminalError
  cases sub.closed <;> simp

theorem accepts_iff :
    sub.accepts event = true ↔ sub.registered = true ∧ sub.query.sessionID = event.sessionID ∧
      sub.liveAfter < event.sequence ∧ sub.matchesEvent event = true := by
  simp [accepts, and_assoc]

/-- **What a publication can do to a subscription.** It passes by, it is offered to the queue and
moves the high-water mark, or it is refused as material and the subscription is closed. -/
theorem publish_cases (event : SessionEvent) (hopen : sub.registered = true → sub.closed = false) :
    (sub.accepts event = false ∧ (sub.publish event).1 = sub) ∨
    (sub.accepts event = true ∧ (eventPolicy.offer sub.capacity sub.queue event).2.1 = true ∧
      (sub.publish event).1 =
        { sub with
          queue := (eventPolicy.offer sub.capacity sub.queue event).1
          liveAfter := event.sequence }) ∨
    (sub.accepts event = true ∧ (eventPolicy.offer sub.capacity sub.queue event).2.1 = false ∧
      (sub.publish event).1 =
        { sub with closed := true, closeErr := some errSlowSubscriber, registered := false }) := by
  unfold publish
  by_cases haccepts : sub.accepts event = true
  · have hclosed := hopen (accepts_iff.1 haccepts).1
    rw [if_pos haccepts, enqueueLocked_of_open hclosed]
    cases hoffer : eventPolicy.offer sub.capacity sub.queue event with
    | mk queue outcome =>
      obtain ⟨delivered, coalesced⟩ := outcome
      cases delivered with
      | true => exact .inr (.inl ⟨haccepts, rfl, rfl⟩)
      | false =>
        obtain ⟨hsame, hkept, -⟩ := eventPolicy.offer_refused (congrArg (·.2.1) hoffer)
        rw [hoffer] at hsame
        have hmaterial : event.deliveryClass = .material := by
          have : event.isEphemeral = false := hkept
          cases hclass : event.deliveryClass with
          | material => rfl
          | ephemeralCoalescible => simp [SessionEvent.isEphemeral, hclass] at this
        refine .inr (.inr ⟨haccepts, rfl, ?_⟩)
        simp only at hsame
        simp only [hmaterial, if_true, closeLocked, hclosed, hsame]
        rfl
  · rw [if_neg haccepts]
    exact .inl ⟨by simpa using haccepts, rfl⟩

end Subscription

/-! ### Replay -/

/-- One page of committed events, offered to the queue of a new subscription. -/
def replayPage (boundary : UInt64) :
    List SessionEvent → UInt64 → Subscription → Result (UInt64 × Subscription)
  | [], after, sub => .ok (after, sub)
  | event :: rest, after, sub =>
    if boundary < event.sequence then .ok (after, sub)
    else if sub.matchesEvent event then
      match sub.enqueueLocked event with
      | (sub, true, _) => replayPage boundary rest event.sequence sub
      | (_, false, _) => .error errSnapshotRequired
    else replayPage boundary rest event.sequence sub

/-- The loop that replays committed history up to the boundary, in at most the given number of
passes. -/
def replay (journal : Journal) (capacity : Nat) (boundary : UInt64) :
    Nat → UInt64 → Subscription → Option (Result Subscription)
  | 0, after, sub => if after < boundary then none else some (.ok sub)
  | passes + 1, after, sub =>
    if after < boundary then
      match journal.replayCommitted sub.query.sessionID after
        (min capacity (boundary - after).toNat) with
      | .error failure => some (.error failure)
      | .ok [] => some (.error (.new "committed session history contains a sequence gap"))
      | .ok (event :: page) =>
        match replayPage boundary (event :: page) after sub with
        | .error failure => some (.error failure)
        | .ok (after, sub) => replay journal capacity boundary passes after sub
    else some (.ok sub)

/-! ### The hub -/

/-- Cumulative counters, and the current number of subscribers. -/
structure Metrics where
  active : UInt64 := 0
  published : UInt64 := 0
  delivered : UInt64 := 0
  ephemeralCoalesced : UInt64 := 0
  forcedDisconnects : UInt64 := 0

/-- The counters after one subscription has seen a publication. -/
def Metrics.record (metrics : Metrics) (receipt : Receipt) : Metrics where
  active := metrics.active - receipt.disconnected.toUInt64
  published := metrics.published
  delivered := metrics.delivered + receipt.delivered.toUInt64
  ephemeralCoalesced := metrics.ephemeralCoalesced + receipt.coalesced.toUInt64
  forcedDisconnects := metrics.forcedDisconnects + receipt.disconnected.toUInt64

/-- The hub, with every subscription it has handed out. -/
structure Hub where
  capacity : Nat
  /-- A `uint64` in the source; it does not wrap in a run of fewer than `2 ^ 64` steps, as
  `HubRun.runAll_sound` shows. -/
  nextID : Nat := 0
  subscriptions : List Subscription := []
  closed : Bool := false
  global : Metrics := {}
  bySession : SessionID → Metrics := fun _ => {}

/-- A hub without subscriptions. -/
def newHub (capacity : Int) : Result Hub := do
  ensure (1 ≤ capacity ∧ capacity ≤ 65536)
    (.new "subscriber capacity must be between 1 and 65536")
  return { capacity := capacity.toNat }

namespace Hub

/-- The checks of a query, and the boundary it joins the stream at. -/
def checkQuery (journal : Journal) (query : SubscriptionQuery) (hub : Hub) : Result UInt64 := do
  ensure (query.sessionID.isZero = false) (.new "subscription session ID must not be empty")
  ensure (query.threadID.all (!·.isZero)) (.new "subscription thread ID must not be empty")
  ensure (query.taskID.all (!·.isZero)) (.new "subscription task ID must not be empty")
  ensure (hub.closed = false) errHubClosed
  let boundary ← journal.committedSequence query.sessionID
  ensure (query.afterSequence ≤ boundary)
    (.new "subscription sequence is ahead of committed history")
  return boundary

/-- A subscription before its replay. -/
def opened (hub : Hub) (query : SubscriptionQuery) (boundary : UInt64) : Subscription where
  id := hub.nextID + 1
  query
  liveBoundary := boundary
  liveAfter := boundary
  capacity := hub.capacity

/-- The hub with one more subscriber. -/
def register (hub : Hub) (sub : Subscription) : Hub :=
  let count (metrics : Metrics) : Metrics := { metrics with active := metrics.active + 1 }
  { hub with
    nextID := sub.id
    subscriptions := hub.subscriptions ++ [{ sub with registered := true }]
    global := count hub.global
    bySession :=
      Function.update hub.bySession sub.query.sessionID
        (count (hub.bySession sub.query.sessionID)) }

/-- A new subscription. The answer is the identifier under which its reader knows it; `none` means
that the replay needs more passes. -/
def subscribe (journal : Journal) (passes : Nat) (query : SubscriptionQuery) (hub : Hub) :
    Option (Hub × Result Nat) :=
  match hub.checkQuery journal query with
  | .error failure => some (hub, .error failure)
  | .ok boundary =>
    match replay journal hub.capacity boundary passes query.afterSequence
      (hub.opened query boundary) with
    | none => none
    | some (.error failure) => some ({ hub with nextID := hub.nextID + 1 }, .error failure)
    | some (.ok sub) => some (hub.register sub, .ok sub.id)

/-- The loop over the subscribers. Its order does not matter: each subscription is changed alone,
and the counters add up. -/
def deliver (event : SessionEvent) (hub : Hub) : Hub :=
  let count (metrics : Metrics) : Metrics :=
    (hub.subscriptions.map fun sub => (sub.publish event).2).foldl Metrics.record
      { metrics with published := metrics.published + 1 }
  { hub with
    subscriptions := hub.subscriptions.map fun sub => (sub.publish event).1
    global := count hub.global
    bySession :=
      Function.update hub.bySession event.sessionID (count (hub.bySession event.sessionID)) }

/-- Hand a committed event to the hub. -/
def publishCommitted (event : SessionEvent) (hub : Hub) : Result Hub := do
  event.validate
  ensure (hub.closed = false) errHubClosed
  return hub.deliver event

/-- Change the subscription that a reader knows under an identifier. -/
def modify (id : Nat) (f : Subscription → Subscription) (hub : Hub) : Hub :=
  { hub with subscriptions := hub.subscriptions.map fun sub => if sub.id = id then f sub else sub }

/-- A reader closes its subscription, or its context ends. -/
def closeSubscription (id : Nat) (reason : Option Failure) (hub : Hub) : Hub :=
  match hub.subscriptions.find? fun sub => sub.id = id && !sub.closed with
  | none => hub
  | some sub =>
    let count (metrics : Metrics) : Metrics := { metrics with active := metrics.active - 1 }
    { hub.modify id (·.close reason) with
      global := count hub.global
      bySession := Function.update hub.bySession sub.query.sessionID
        (count (hub.bySession sub.query.sessionID)) }

/-- Shutdown: every registered subscription is closed, and its session has one less active. -/
def close (hub : Hub) : Hub :=
  if hub.closed then hub
  else
    { hub with
      closed := true
      subscriptions := hub.subscriptions.map fun sub =>
        if sub.registered then { sub.closeLocked errHubClosed with registered := false } else sub
      global := { hub.global with active := 0 }
      bySession := (hub.subscriptions.filter (·.registered)).foldl (fun bySession sub =>
          let metrics := bySession sub.query.sessionID
          Function.update bySession sub.query.sessionID
            (if 0 < metrics.active then { metrics with active := metrics.active - 1 }
              else metrics))
        hub.bySession }

/-- A reader asks for its next event. -/
def next (id : Nat) (hub : Hub) : Hub × Option NextResult :=
  match hub.subscriptions.find? fun sub => sub.id = id with
  | none => (hub, none)
  | some sub => (hub.modify id (·.next.1), some sub.next.2)

/-- The subscriptions of a hub, seen through a step that maps them and leaves the rest alone. -/
structure Maps (hub hub' : Hub) (f : Subscription → Subscription) : Prop where
  subscriptions : hub'.subscriptions = hub.subscriptions.map f
  id_eq : ∀ sub, (f sub).id = sub.id
  capacity : hub'.capacity = hub.capacity
  nextID : hub'.nextID = hub.nextID

theorem Maps.refl (hub : Hub) : hub.Maps hub fun sub => sub :=
  ⟨(map_id' _).symm, fun _ => rfl, rfl, rfl⟩

variable {hub hub' : Hub} {f : Subscription → Subscription}

theorem Maps.ids_eq (h : hub.Maps hub' f) :
    hub'.subscriptions.map (·.id) = hub.subscriptions.map (·.id) := by
  rw [h.subscriptions, map_map]
  exact map_congr_left fun sub _ => h.id_eq sub

theorem Maps.forall {P : Subscription → Prop} (h : hub.Maps hub' f)
    (hall : ∀ sub ∈ hub.subscriptions, P (f sub)) : ∀ sub ∈ hub'.subscriptions, P sub := by
  rw [h.subscriptions]
  exact forall_mem_map.2 hall

theorem modify_maps (id : Nat) (hf : ∀ sub, (f sub).id = sub.id)
    (hub : Hub) : hub.Maps (hub.modify id f) fun sub => if sub.id = id then f sub else sub where
  subscriptions := rfl
  id_eq sub := by
    split
    · exact hf sub
    · rfl
  capacity := rfl
  nextID := rfl

/-- **What a reading can do**: nothing, or it takes the first event of the reader's queue. -/
theorem next_cases (hids : (hub.subscriptions.map (·.id)).Nodup) (id : Nat) :
    (∃ answer, hub.next id = (hub, answer) ∧ ∀ event, answer ≠ some (.event event)) ∨
    ∃ found ∈ hub.subscriptions, ∃ event rest, found.id = id ∧
      (∀ sub ∈ hub.subscriptions, sub.id = id → sub.queue = event :: rest) ∧
      hub.next id = (hub.modify id ({ · with queue := rest }), some (.event event)) := by
  unfold next
  cases hfind : hub.subscriptions.find? fun sub => sub.id = id with
  | none => exact .inl ⟨none, rfl, by simp⟩
  | some found =>
    have hfound := mem_of_find?_eq_some hfind
    have hid : found.id = id := by simpa using find?_some hfind
    have honly : ∀ sub ∈ hub.subscriptions, sub.id = id → sub = found := fun sub hsub heq =>
      inj_on_of_nodup_map hids hsub hfound (heq.trans hid.symm)
    have hmodify (g) (hg : found.next.1 = g found) :
        hub.modify id (·.next.1) = hub.modify id g := by
      refine congrArg ({ hub with subscriptions := · }) (map_congr_left fun sub hsub => ?_)
      split
      · next heq => exact honly sub hsub heq ▸ hg
      · rfl
    cases hqueue : found.queue with
    | nil =>
      obtain ⟨hsame, hnone⟩ := Subscription.next_of_nil hqueue
      refine .inl ⟨_, Prod.ext ((hmodify (fun sub => sub) hsame).trans ?_) rfl, fun event heq =>
        hnone event (Option.some.inj heq)⟩
      simp [modify]
    | cons event rest =>
      have hnext := Subscription.next_of_cons hqueue
      refine .inr ⟨found, hfound, event, rest, hid, fun sub hsub heq => ?_, ?_⟩
      · rw [honly sub hsub heq, hqueue]
      · exact Prod.ext (hmodify _ (congrArg Prod.fst hnext)) (congrArg (some ·.2) hnext)

theorem closeSubscription_maps (id : Nat) (reason : Option Failure) (hub : Hub) :
    hub.Maps (hub.closeSubscription id reason) fun sub =>
      if sub.id = id then sub.close reason else sub := by
  have hmaps := modify_maps id (fun _ => Subscription.close_id reason) hub
  unfold closeSubscription
  cases hfind : hub.subscriptions.find? fun sub => sub.id = id && !sub.closed with
  | none =>
    refine ⟨((map_congr_left fun sub hsub => ?_).trans (map_id' _)).symm, hmaps.id_eq, rfl, rfl⟩
    have hclosed := find?_eq_none.1 hfind sub hsub
    split
    · next heq => simp_all [Subscription.close]
    · rfl
  | some found => exact ⟨hmaps.subscriptions, hmaps.id_eq, rfl, rfl⟩

theorem deliver_maps (event : SessionEvent) (hub : Hub) :
    hub.Maps (hub.deliver event) fun sub => (sub.publish event).1 :=
  ⟨rfl, fun _ => Subscription.publish_id, rfl, rfl⟩

theorem publishCommitted_of_valid {event : SessionEvent} (hvalid : event.Valid) :
    hub.publishCommitted event =
      if hub.closed then .error errHubClosed else .ok (hub.deliver event) := by
  have hvalidate : event.validate = .ok () := SessionEvent.validate_ok_iff.2 hvalid
  rw [publishCommitted, hvalidate, ok_bind]
  cases hub.closed <;> rfl

end Hub

end Codeflux.Events
