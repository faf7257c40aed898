import Codeflux.Events.World
import Mathlib.Algebra.BigOperators.Group.Finset.Basic
import Mathlib.Data.UInt

/-!
# The queues and counters of the hub over whole runs

A hub with its readers, over any interleaving of subscriptions, publications, readings and closings.
Replay and publication fill the same queue, so what is known of a queue is stated with a mark that
nothing queued or returned exceeds: the cursor of the replay while it runs, then `liveAfter`.
-/

namespace Codeflux.Events

open Library Domain List Function Nat

/-- The hub, and what the reader of each subscription has been given. -/
structure HubRun where
  hub : Hub
  returned : Nat → List SessionEvent

/-- A step of a reader, a publisher or the coordinator. A context that ends closes its subscription
with the error of the context. -/
inductive HubAction
  | subscribe (journal : Journal) (passes : Nat) (query : SubscriptionQuery)
  | publish (event : SessionEvent)
  | next (id : Nat)
  | closeSubscription (id : Nat) (reason : Option Failure)
  | closeHub

namespace HubRun

/-- A hub that nobody has joined. -/
def initial (hub : Hub) : HubRun where
  hub
  returned _ := []

/-- One reading of a subscription. -/
def next (run : HubRun) (id : Nat) : HubRun :=
  match run.hub.next id with
  | (hub, some (.event event)) =>
    { hub, returned := Function.update run.returned id (run.returned id ++ [event]) }
  | (hub, _) => { run with hub }

/-- One step. An attempt to subscribe that needs more passes is still under the lock of the hub, and
has changed nothing. -/
def step (run : HubRun) : HubAction → HubRun
  | .subscribe journal passes query =>
    match run.hub.subscribe journal passes query with
    | some (hub, _) => { run with hub }
    | none => run
  | .publish event => { run with hub := settled run.hub (run.hub.publishCommitted event) }
  | .next id => run.next id
  | .closeSubscription id reason => { run with hub := run.hub.closeSubscription id reason }
  | .closeHub => { run with hub := run.hub.close }

/-- The state after a list of steps. -/
def runAll (run : HubRun) (actions : List HubAction) : HubRun := actions.foldl step run

end HubRun

/-- Every answer to a replay lists events of the session that was asked for, later than the sequence
that was asked after, in ascending order. -/
def Journal.Replays (journal : Journal) : Prop :=
  ∀ sessionID after limit page, journal.replayCommitted sessionID after limit = .ok page →
    page.Pairwise (·.sequence < ·.sequence) ∧
    ∀ event ∈ page, event.sessionID = sessionID ∧ after < event.sequence

/-- A step that meets a journal meets one that replays. -/
def HubAction.Faithful : HubAction → Prop
  | .subscribe journal _ _ => journal.Replays
  | _ => True

/-- The sessions of the registered subscriptions, one entry for each subscription. -/
def Hub.activeSessions (hub : Hub) : List SessionID :=
  (hub.subscriptions.filter (·.registered)).map (·.query.sessionID)

namespace HubRun

/-- **Orderly queues and counters.** Each queue is strictly ascending, no longer than the capacity,
in the scope of its query and above everything its reader was given; exactly the open subscriptions
are registered; and the hub counts them right, in all and over the sessions. -/
structure Orderly (run : HubRun) : Prop where
  ascending : ∀ sub ∈ run.hub.subscriptions, sub.queue.Pairwise (·.sequence < ·.sequence)
  bounded : ∀ sub ∈ run.hub.subscriptions, sub.queue.length ≤ run.hub.capacity
  inScope : ∀ sub ∈ run.hub.subscriptions, ∀ event ∈ sub.queue,
    event.sessionID = sub.query.sessionID ∧ sub.matchesEvent event = true
  later : ∀ sub ∈ run.hub.subscriptions, ∀ given ∈ run.returned sub.id, ∀ event ∈ sub.queue,
    given.sequence < event.sequence
  registered_iff : ∀ sub ∈ run.hub.subscriptions, sub.registered = true ↔ sub.closed = false
  active_eq : run.hub.global.active =
    UInt64.ofNat (run.hub.subscriptions.filter (·.registered)).length
  active_sum : ∀ sessions : Finset SessionID,
    (∀ sessionID, (run.hub.bySession sessionID).active ≠ 0 → sessionID ∈ sessions) →
    run.hub.global.active = ∑ sessionID ∈ sessions, (run.hub.bySession sessionID).active

/-- A queued material event is still queued after the step, or the step returned it. Closing a
subscription does not empty its queue. -/
def KeepsMaterial (run run' : HubRun) : Prop :=
  ∀ sub ∈ run.hub.subscriptions, ∀ event ∈ sub.queue, event.deliveryClass = .material →
    ∃ sub' ∈ run'.hub.subscriptions, sub'.id = sub.id ∧
      (event ∈ sub'.queue ∨ run'.returned sub.id = run.returned sub.id ++ [event])

end HubRun

/-! ### One queue -/

namespace Subscription

/-- What is known of a queue, with what its reader was given and a mark that nothing exceeds. -/
structure Orderly (sub : Subscription) (returned : List SessionEvent) (mark : UInt64) : Prop where
  ascending : (returned ++ sub.queue).Pairwise (·.sequence < ·.sequence)
  below : ∀ event ∈ returned ++ sub.queue, event.sequence ≤ mark
  bounded : sub.queue.length ≤ sub.capacity
  inScope : ∀ event ∈ sub.queue,
    event.sessionID = sub.query.sessionID ∧ sub.matchesEvent event = true

variable {sub : Subscription} {event : SessionEvent} {returned : List SessionEvent}
  {mark mark' : UInt64}

theorem Orderly.raise (h : sub.Orderly returned mark) (hle : mark ≤ mark') :
    sub.Orderly returned mark' where
  __ := h
  below event hevent := UInt64.le_trans (h.below event hevent) hle

theorem offer_length_le (hbound : sub.queue.length ≤ sub.capacity) :
    (eventPolicy.offer sub.capacity sub.queue event).1.length ≤ sub.capacity := by
  cases hdelivered : (eventPolicy.offer sub.capacity sub.queue event).2.1 with
  | true =>
    rw [eventPolicy.offer_length hbound hdelivered]
    exact min_le_left _ _
  | false =>
    rwa [(eventPolicy.offer_refused hdelivered).1]

/-- An event of the scope that is above the mark is queued in order, and is the new mark. -/
theorem Orderly.offer (h : sub.Orderly returned mark) (hlater : mark < event.sequence)
    (hsession : event.sessionID = sub.query.sessionID) (hscope : sub.matchesEvent event = true) :
    ({ sub with queue := (eventPolicy.offer sub.capacity sub.queue event).1 }).Orderly returned
      event.sequence := by
  have hqueue := eventPolicy.offer_sublist sub.capacity sub.queue event
  have hsublist := (List.Sublist.refl returned).append hqueue
  rw [← append_assoc] at hsublist
  exact {
    ascending := by
      refine List.Pairwise.sublist hsublist (pairwise_append.2 ⟨h.ascending,
        pairwise_singleton _ _, fun d hd e he => ?_⟩)
      rw [mem_singleton.1 he]
      exact UInt64.lt_of_le_of_lt (h.below d hd) hlater
    below := fun d hd => by
      rcases mem_append.1 (hsublist.subset hd) with hold | hnew
      · exact UInt64.le_trans (h.below d hold) (UInt64.le_of_lt hlater)
      · rw [mem_singleton.1 hnew]
        exact UInt64.le_refl _
    bounded := offer_length_le h.bounded
    inScope := fun d hd => by
      rcases mem_append.1 (hqueue.subset hd) with hold | hnew
      · exact h.inScope d hold
      · rw [mem_singleton.1 hnew]
        exact ⟨hsession, hscope⟩ }

/-- What a step does to a subscription and its reader. -/
structure Moves (sub sub' : Subscription) (returned returned' : List SessionEvent) : Prop where
  id : sub'.id = sub.id
  capacity : sub'.capacity = sub.capacity
  registered : sub'.registered = !sub'.closed
  orderly : sub.Orderly returned sub.liveAfter → sub'.Orderly returned' sub'.liveAfter
  kept : ∀ event ∈ sub.queue, event.deliveryClass = .material →
    event ∈ sub'.queue ∨ returned' = returned ++ [event]

theorem closed_moves (reason : Option Failure) :
    sub.Moves { sub.closeLocked reason with registered := false } returned returned := by
  rw [closeLocked_eq]
  exact ⟨rfl, rfl, rfl, fun h => { h with }, fun queued hqueued _ => .inl hqueued⟩

variable (hregistered : sub.registered = !sub.closed)
include hregistered

theorem Moves.refl : sub.Moves sub returned returned :=
  ⟨rfl, rfl, hregistered, fun h => h, fun _ hevent _ => .inl hevent⟩

theorem publish_moves (event : SessionEvent) :
    sub.Moves (sub.publish event).1 returned returned := by
  have hopen : sub.registered = true → sub.closed = false := by
    rw [hregistered]
    simp
  rcases publish_cases event hopen with ⟨-, heq⟩ | ⟨haccepts, hoffer, heq⟩ | ⟨-, -, heq⟩
  · rw [heq]
    exact .refl hregistered
  · rw [heq]
    obtain ⟨-, hsession, hahead, hscope⟩ := accepts_iff.1 haccepts
    refine ⟨rfl, rfl, hregistered, fun h => ?_, fun queued hqueued hmaterial => .inl ?_⟩
    · exact { h.offer hahead hsession.symm hscope with }
    · exact eventPolicy.mem_offer hoffer (mem_append_left _ hqueued)
        (SessionEvent.material_iff.1 hmaterial)
  · rw [heq]
    exact ⟨rfl, rfl, rfl, fun h => { h with },
      fun queued hqueued _ => .inl hqueued⟩

theorem close_moves (reason : Option Failure) : sub.Moves (sub.close reason) returned returned := by
  unfold close
  split
  · exact .refl hregistered
  · exact closed_moves reason

theorem next_moves {rest : List SessionEvent} (hqueue : sub.queue = event :: rest) :
    sub.Moves { sub with queue := rest } returned (returned ++ [event]) := by
  refine ⟨rfl, rfl, hregistered, fun h => ?_, fun queued hqueued _ => ?_⟩
  · have hascending := h.ascending
    have hbelow := h.below
    have hbounded := h.bounded
    rw [hqueue, length_cons] at hbounded
    rw [hqueue, append_cons] at hascending hbelow
    refine ⟨hascending, hbelow, le_of_succ_le hbounded, fun d hd => h.inScope d ?_⟩
    rw [hqueue]
    exact mem_cons_of_mem _ hd
  · rw [hqueue, mem_cons] at hqueued
    rcases hqueued with rfl | hrest
    · exact .inr rfl
    · exact .inl hrest

end Subscription

variable {query : SubscriptionQuery}

section Replay

variable {journal : Journal} {boundary after after' : UInt64} {sub sub' : Subscription}

/-- A replay in progress: its cursor is the mark of the queue, and everything but the queue is as it
was when the subscription was opened. -/
structure Replaying (start : Subscription) (boundary after : UInt64) (sub : Subscription) :
    Prop where
  frame : sub = { start with queue := sub.queue }
  within : after ≤ boundary
  orderly : sub.Orderly [] after

variable {start : Subscription}

theorem replayPage_replaying {page : List SessionEvent} (hopen : start.closed = false)
    (h : Replaying start boundary after sub) (hpage : page.Pairwise (·.sequence < ·.sequence))
    (hlater : ∀ event ∈ page,
      event.sessionID = start.query.sessionID ∧ after < event.sequence)
    (hok : replayPage boundary page after sub = .ok (after', sub')) :
    Replaying start boundary after' sub' := by
  fun_induction replayPage boundary page after sub with
  | case1 | case2 =>
    cases hok
    exact h
  | case3 event rest after sub hwithin hscope queued _ hoffered ih =>
    obtain ⟨hfirst, hrest⟩ := pairwise_cons.1 hpage
    obtain ⟨⟨hsession, hahead⟩, htail⟩ := forall_mem_cons.1 hlater
    have hclosed : sub.closed = false := by rw [h.frame]; exact hopen
    have hquery : sub.query = start.query := by rw [h.frame]
    have hoffer := h.orderly.offer hahead (by rw [hquery]; exact hsession) hscope
    rw [Subscription.enqueueLocked_of_open hclosed] at hoffered
    obtain ⟨rfl, -⟩ := Prod.mk.inj hoffered
    have hframe : ∀ queue, ({ sub with queue } : Subscription) = { start with queue } :=
      fun queue => congrArg ({ · with queue }) h.frame
    exact ih ⟨hframe _, UInt64.not_lt.1 hwithin, hoffer⟩ hrest
      (fun e he => ⟨(htail e he).1, hfirst e he⟩) hok
  | case4 => cases hok
  | case5 event rest after sub hwithin _ ih =>
    obtain ⟨hfirst, hrest⟩ := pairwise_cons.1 hpage
    obtain ⟨⟨-, hahead⟩, htail⟩ := forall_mem_cons.1 hlater
    exact ih ⟨h.frame, UInt64.not_lt.1 hwithin, h.orderly.raise (UInt64.le_of_lt hahead)⟩ hrest
      (fun e he => ⟨(htail e he).1, hfirst e he⟩) hok

theorem replay_replaying {capacity passes : Nat} (hjournal : journal.Replays)
    (hopen : start.closed = false) (h : Replaying start boundary after sub)
    (hok : replay journal capacity boundary passes after sub = some (.ok sub')) :
    ∃ after', Replaying start boundary after' sub' := by
  fun_induction replay journal capacity boundary passes after sub with
  | case2 after sub | case7 _ after sub =>
    cases hok
    exact ⟨after, h⟩
  | case6 passes after sub _ event page hpage after' sub' hreplayed ih =>
    obtain ⟨hascending, hlater⟩ := hjournal _ _ _ _ hpage
    have hquery : sub.query = start.query := by rw [h.frame]
    exact ih (replayPage_replaying hopen h hascending (fun e he => hquery ▸ hlater e he) hreplayed)
      hok
  | _ => cases hok

/-- A replay over a journal that replays leaves an orderly queue up to the boundary. -/
theorem replay_orderly {hub : Hub} {passes : Nat}
    (hjournal : journal.Replays) (hafter : query.afterSequence ≤ boundary)
    (hok : replay journal hub.capacity boundary passes query.afterSequence
      (hub.opened query boundary) = some (.ok sub)) :
    sub = { hub.opened query boundary with queue := sub.queue } ∧ sub.Orderly [] boundary := by
  have hstart : Replaying (hub.opened query boundary) boundary query.afterSequence
      (hub.opened query boundary) :=
    ⟨rfl, hafter, List.Pairwise.nil, by simp [Hub.opened], zero_le _, by simp [Hub.opened]⟩
  obtain ⟨after', h⟩ := replay_replaying hjournal rfl hstart hok
  exact ⟨h.frame, h.orderly.raise h.within⟩

end Replay

/-! ### The counters -/

namespace Hub

/-- The counters of active subscribers, in all and for each session. -/
structure Counted (hub : Hub) : Prop where
  global : hub.global.active = UInt64.ofNat hub.activeSessions.length
  session : ∀ sessionID,
    (hub.bySession sessionID).active = UInt64.ofNat (hub.activeSessions.count sessionID)

variable {hub hub' : Hub}

theorem ofNat_sum {ι : Type*} (s : Finset ι) (f : ι → ℕ) :
    UInt64.ofNat (∑ i ∈ s, f i) = ∑ i ∈ s, UInt64.ofNat (f i) := by
  classical
  induction s using Finset.induction_on with
  | empty => rfl
  | insert i s hi ih => rw [Finset.sum_insert hi, Finset.sum_insert hi, UInt64.ofNat_add, ih]

theorem Counted.sum (h : hub.Counted) (sessions : Finset SessionID)
    (hall : ∀ sessionID, (hub.bySession sessionID).active ≠ 0 → sessionID ∈ sessions) :
    hub.global.active = ∑ sessionID ∈ sessions, (hub.bySession sessionID).active := by
  have hzero : ∀ sessionID, sessionID ∉ hub.activeSessions →
      (hub.bySession sessionID).active = 0 := fun sessionID hnone => by
    rw [h.session, count_eq_zero.2 hnone]
    rfl
  calc hub.global.active
      = UInt64.ofNat (∑ s ∈ hub.activeSessions.toFinset, hub.activeSessions.count s) := by
        rw [h.global, sum_toFinset_count_eq_length]
    _ = ∑ s ∈ hub.activeSessions.toFinset, (hub.bySession s).active := by
        rw [ofNat_sum]
        exact Finset.sum_congr rfl fun s _ => (h.session s).symm
    _ = ∑ s ∈ hub.activeSessions.toFinset ∪ sessions, (hub.bySession s).active :=
        Finset.sum_subset Finset.subset_union_left fun s _ hs =>
          hzero s (by simpa using hs)
    _ = ∑ s ∈ sessions, (hub.bySession s).active :=
        (Finset.sum_subset Finset.subset_union_right fun s _ hs =>
          by_contra fun hne => hs (hall s hne)).symm

/-- When subscriptions of one session leave, both counters drop by their number. -/
theorem Counted.leave (h : hub.Counted) {sessionID : SessionID} {leaving : Nat}
    (hperm : hub.activeSessions.Perm (List.replicate leaving sessionID ++ hub'.activeSessions))
    (hglobal : hub'.global.active = hub.global.active - UInt64.ofNat leaving)
    (hother : ∀ other, other ≠ sessionID →
      (hub'.bySession other).active = (hub.bySession other).active)
    (hsession : (hub'.bySession sessionID).active =
      (hub.bySession sessionID).active - UInt64.ofNat leaving) : hub'.Counted where
  global := by
    rw [hglobal, h.global, hperm.length_eq, length_append, length_replicate,
      UInt64.ofNat_add, UInt64.add_comm, UInt64.add_sub_cancel]
  session other := by
    have hcount := hperm.count_eq other
    rw [count_append, count_replicate] at hcount
    by_cases heq : other = sessionID
    · subst heq
      rw [beq_self_eq_true, if_pos rfl] at hcount
      rw [hsession, h.session, hcount, UInt64.ofNat_add, UInt64.add_comm, UInt64.add_sub_cancel]
    · rw [if_neg (by simpa using Ne.symm heq), zero_add] at hcount
      rw [hother other heq, h.session, hcount]

theorem Counted.register (h : hub.Counted) (sub : Subscription) : (hub.register sub).Counted := by
  have hsessions : (hub.register sub).activeSessions =
      hub.activeSessions ++ [sub.query.sessionID] := by
    simp [activeSessions, Hub.register]
  refine ⟨?_, fun sessionID => ?_⟩
  · rw [hsessions, length_append, length_singleton, UInt64.ofNat_add, ← h.global]
    rfl
  · rw [hsessions, count_append, UInt64.ofNat_add, ← h.session]
    by_cases heq : sessionID = sub.query.sessionID
    · subst heq
      simp [Hub.register]
    · have hne : ¬sub.query.sessionID = sessionID := Ne.symm heq
      simp [Hub.register, update_of_ne heq, hne]

/-- A publication leaves a subscription registered as it was, or disconnects it from the session of
the event. -/
theorem publish_leaves (sub : Subscription) (event : SessionEvent) :
    ((sub.publish event).2.disconnected = false ∧
      (sub.publish event).1.registered = sub.registered ∧
      (sub.publish event).1.query = sub.query) ∨
    ((sub.publish event).2.disconnected = true ∧ sub.registered = true ∧
      sub.query.sessionID = event.sessionID ∧ (sub.publish event).1.registered = false) := by
  have hsame : (sub.enqueueLocked event).1.registered = sub.registered ∧
      (sub.enqueueLocked event).1.query = sub.query := by
    unfold Subscription.enqueueLocked
    split <;> exact ⟨rfl, rfl⟩
  fun_cases Subscription.publish sub event with
  | case1 _ offered _ hoffered | case3 _ offered _ hoffered =>
    rw [hoffered] at hsame
    exact .inl ⟨rfl, hsame⟩
  | case2 haccepts =>
    obtain ⟨hregistered, hsession, -⟩ := Subscription.accepts_iff.1 haccepts
    exact .inr ⟨rfl, hregistered, hsession, rfl⟩
  | case4 => exact .inl ⟨rfl, rfl, rfl⟩

theorem record_active (receipts : List Receipt) (metrics : Metrics) :
    (receipts.foldl Metrics.record metrics).active =
      metrics.active - UInt64.ofNat (receipts.countP (·.disconnected)) := by
  induction receipts generalizing metrics with
  | nil => simp
  | cons receipt receipts ih =>
    rw [foldl_cons, ih, countP_cons, UInt64.ofNat_add, UInt64.add_comm,
      ← sub_sub]
    have hactive : (metrics.record receipt).active =
        metrics.active - receipt.disconnected.toUInt64 := rfl
    rw [hactive]
    cases receipt.disconnected <;> rfl

/-- The subscriptions that a publication disconnects are of the session of the event. -/
theorem deliver_activeSessions (event : SessionEvent) (hub : Hub) :
    hub.activeSessions.Perm
      (List.replicate
          ((hub.subscriptions.map fun sub => (sub.publish event).2).countP (·.disconnected))
          event.sessionID ++
        (hub.deliver event).activeSessions) := by
  unfold activeSessions deliver
  induction hub.subscriptions with
  | nil => rfl
  | cons sub subs ih =>
    simp only [map_cons, countP_cons, filter_cons]
    rcases publish_leaves sub event with ⟨hstays, hregistered, hquery⟩ |
      ⟨hleaves, hregistered, hsession, hgone⟩
    · rw [hstays, hregistered, if_neg Bool.false_ne_true, add_zero]
      by_cases hactive : sub.registered = true
      · rw [if_pos hactive, if_pos hactive, map_cons, map_cons, hquery]
        exact (ih.cons _).trans perm_middle.symm
      · rwa [if_neg hactive, if_neg hactive]
    · rw [hleaves, hregistered, hgone, if_pos rfl, if_pos rfl, if_neg Bool.false_ne_true,
        map_cons, hsession, replicate_succ]
      exact ih.cons _

theorem Counted.deliver (h : hub.Counted) (event : SessionEvent) : (hub.deliver event).Counted := by
  refine h.leave (deliver_activeSessions event hub) ?_ (fun other hne => ?_) ?_
  · exact record_active _ _
  · exact congrArg Metrics.active (update_of_ne hne _ _)
  · simp only [Hub.deliver, update_self]
    exact record_active _ _

theorem Counted.closeSubscription (h : hub.Counted) (hids : (hub.subscriptions.map (·.id)).Nodup)
    (hregistered : ∀ sub ∈ hub.subscriptions, sub.registered = !sub.closed) (id : Nat)
    (reason : Option Failure) : (hub.closeSubscription id reason).Counted := by
  unfold Hub.closeSubscription
  cases hfind : hub.subscriptions.find? fun sub => sub.id = id && !sub.closed with
  | none => exact h
  | some found =>
    have hmem := mem_of_find?_eq_some hfind
    have hfound : found.id = id ∧ found.closed = false := by simpa using find?_some hfind
    have hactive : found.registered = true := by rw [hregistered found hmem, hfound.2]; rfl
    obtain ⟨front, back, hsubs⟩ := append_of_mem hmem
    -- no other subscription has the identifier
    have hothers : ∀ sub ∈ front ++ back, sub.id ≠ id := fun sub hsub heq => by
      rw [hsubs, map_append, map_cons, nodup_middle, nodup_cons,
        ← map_append] at hids
      exact hids.1 (mem_map.2 ⟨sub, hsub, heq.trans hfound.1.symm⟩)
    have hsame : ∀ subs : List Subscription, (∀ sub ∈ subs, sub.id ≠ id) →
        (subs.map fun sub => if sub.id = id then sub.close reason else sub) = subs :=
      fun subs hsubs => (map_congr_left fun sub hsub => if_neg (hsubs sub hsub)).trans
        (map_id' subs)
    have hgone : (found.close reason).registered = false := by
      rw [Subscription.close, hfound.2]
      rfl
    refine @Counted.leave hub _ h found.query.sessionID 1 ?_ rfl
      (fun other hne => congrArg Metrics.active (update_of_ne hne _ _)) ?_
    · simp only [activeSessions, Hub.modify, hsubs, map_append, map_cons,
        hsame front fun sub hsub => hothers sub (mem_append_left _ hsub),
        hsame back fun sub hsub => hothers sub (mem_append_right _ hsub), if_pos hfound.1,
        filter_append, filter_cons_of_pos hactive, hgone, filter_cons,
        if_neg Bool.false_ne_true]
      exact perm_middle
    · simp only [update_self]
      rfl

theorem Counted.modify_queue (h : hub.Counted) (id : Nat) (queue : List SessionEvent) :
    (hub.modify id ({ · with queue })).Counted := by
  have hsub (sub : Subscription) : (if sub.id = id then { sub with queue } else sub).registered =
      sub.registered ∧ (if sub.id = id then { sub with queue } else sub).query = sub.query := by
    split <;> exact ⟨rfl, rfl⟩
  have hsame : (hub.modify id ({ · with queue })).activeSessions = hub.activeSessions := by
    simp only [activeSessions, modify, filter_map, map_map, comp_def, hsub]
  exact ⟨hsame ▸ h.global, fun sessionID => hsame ▸ h.session sessionID⟩

theorem shutdown_active (subs : List Subscription) (bySession : SessionID → Metrics)
    (h : ∀ sessionID, (bySession sessionID).active.toNat ≤
      (subs.map (·.query.sessionID)).count sessionID) (sessionID : SessionID) :
    ((subs.foldl (fun bySession sub =>
        let metrics := bySession sub.query.sessionID
        Function.update bySession sub.query.sessionID
          (if 0 < metrics.active then { metrics with active := metrics.active - 1 }
            else metrics))
      bySession) sessionID).active = 0 := by
  induction subs generalizing bySession with
  | nil => exact UInt64.toNat_inj.1 (Nat.le_zero.1 (h sessionID))
  | cons sub subs ih =>
    refine ih _ fun other => ?_
    have hother := h other
    rw [map_cons, count_cons] at hother
    by_cases heq : other = sub.query.sessionID
    · subst heq
      rw [beq_self_eq_true, if_pos rfl] at hother
      simp only [update_self]
      split
      · next hpos =>
        rw [UInt64.toNat_sub_of_le _ 1 hpos]
        exact sub_le_of_le_add hother
      · next hzero =>
        rw [UInt64.lt_iff_toNat_lt] at hzero
        have : (0 : UInt64).toNat = 0 := rfl
        omega
    · rw [if_neg (by simpa using Ne.symm heq)] at hother
      simp only [update_of_ne heq]
      exact hother

theorem Counted.close (h : hub.Counted) : hub.close.Counted := by
  unfold Hub.close
  split
  · exact h
  · have hempty : ((hub.subscriptions.map fun sub =>
        if sub.registered then { sub.closeLocked errHubClosed with registered := false }
        else sub).filter (·.registered)) = [] := by
      refine filter_eq_nil_iff.2 fun sub hsub => ?_
      obtain ⟨old, -, rfl⟩ := mem_map.1 hsub
      split
      · exact Bool.false_ne_true
      · assumption
    refine ⟨?_, fun sessionID => ?_⟩
    · simp only [activeSessions, hempty]
      rfl
    · simp only [activeSessions, hempty]
      refine shutdown_active _ _ (fun other => ?_) sessionID
      rw [h.session, UInt64.toNat_ofNat']
      exact mod_le _ _

end Hub

/-! ### The invariant -/

namespace HubRun

variable {run run' : HubRun}

/-- What holds in every run over journals that replay. -/
structure Sound (run : HubRun) : Prop where
  ids : (run.hub.subscriptions.map (·.id)).Nodup
  ids_le : ∀ sub ∈ run.hub.subscriptions, sub.id ≤ run.hub.nextID
  unread : ∀ id, run.hub.nextID < id → run.returned id = []
  capacity : ∀ sub ∈ run.hub.subscriptions, sub.capacity = run.hub.capacity
  registered : ∀ sub ∈ run.hub.subscriptions, sub.registered = !sub.closed
  queues : ∀ sub ∈ run.hub.subscriptions, sub.Orderly (run.returned sub.id) sub.liveAfter
  counted : run.hub.Counted

/-- A sound state in which the material events are kept, and at most one identifier is used up. -/
def SoundAfter (run run' : HubRun) : Prop :=
  run'.Sound ∧ run.KeepsMaterial run' ∧ run'.hub.nextID ≤ run.hub.nextID + 1

section Steps

variable (h : run.Sound)
include h

theorem Sound.orderly : run.Orderly where
  ascending sub hsub := (pairwise_append.1 (h.queues sub hsub).ascending).2.1
  bounded sub hsub := h.capacity sub hsub ▸ (h.queues sub hsub).bounded
  inScope sub hsub := (h.queues sub hsub).inScope
  later sub hsub := (pairwise_append.1 (h.queues sub hsub).ascending).2.2
  registered_iff sub hsub := by
    rw [h.registered sub hsub]
    cases sub.closed <;> simp
  active_eq := by
    rw [h.counted.global, Hub.activeSessions, length_map]
  active_sum := h.counted.sum

/-- A step that moves each subscription keeps the invariant and the material events. -/
theorem Sound.moves {f : Subscription → Subscription}
    (hmaps : run.hub.Maps run'.hub f)
    (hunread : ∀ id, run.hub.nextID < id → run'.returned id = run.returned id)
    (hmoves : ∀ sub ∈ run.hub.subscriptions,
      sub.Moves (f sub) (run.returned sub.id) (run'.returned sub.id))
    (hcounted : run'.hub.Counted) : run.SoundAfter run' := by
  refine ⟨⟨hmaps.ids_eq ▸ h.ids, hmaps.forall fun sub hsub => ?_, fun id hid => ?_,
    hmaps.forall fun sub hsub => ?_, hmaps.forall fun sub hsub => (hmoves sub hsub).registered,
    hmaps.forall fun sub hsub => ?_, hcounted⟩, fun sub hsub event hevent hmaterial => ?_,
    hmaps.nextID ▸ Nat.le_succ _⟩
  · rw [hmaps.id_eq, hmaps.nextID]
    exact h.ids_le sub hsub
  · rw [hmaps.nextID] at hid
    rw [hunread id hid, h.unread id hid]
  · rw [(hmoves sub hsub).capacity, hmaps.capacity]
    exact h.capacity sub hsub
  · rw [hmaps.id_eq]
    exact (hmoves sub hsub).orderly (h.queues sub hsub)
  · refine ⟨f sub, ?_, hmaps.id_eq sub, (hmoves sub hsub).kept event hevent hmaterial⟩
    rw [hmaps.subscriptions]
    exact mem_map_of_mem hsub

theorem Sound.stays : run.SoundAfter run :=
  ⟨h, fun sub hsub _ hevent _ => ⟨sub, hsub, rfl, .inl hevent⟩, Nat.le_succ _⟩

theorem publish_sound (event : SessionEvent) : run.SoundAfter (run.step (.publish event)) := by
  simp only [step]
  cases hpublish : run.hub.publishCommitted event with
  | error failure => exact h.stays
  | ok hub =>
    simp only [Hub.publishCommitted, run_ok_iff] at hpublish
    obtain ⟨-, -, -, -, rfl⟩ := hpublish
    exact @Sound.moves run { run with hub := run.hub.deliver event } h _
      (Hub.deliver_maps event run.hub) (fun _ _ => rfl)
      (fun sub hsub => Subscription.publish_moves (h.registered sub hsub) event)
      (h.counted.deliver event)

theorem next_sound (id : Nat) : run.SoundAfter (run.next id) := by
  unfold next
  rcases Hub.next_cases h.ids id with ⟨answer, heq, hnone⟩ |
    ⟨found, hfound, event, rest, rfl, hqueue, heq⟩
  · rw [heq]
    split
    · next hevent => exact absurd (Prod.mk.inj hevent).2 (hnone _)
    · next hother =>
      obtain ⟨rfl, -⟩ := Prod.mk.inj hother
      exact h.stays
  · rw [heq]
    refine h.moves (Hub.modify_maps found.id (fun _ => by rfl) run.hub)
      (fun other hother => update_of_ne ?_ _ _) (fun sub hsub => ?_)
      (h.counted.modify_queue found.id rest)
    · exact ne_of_gt (Nat.lt_of_le_of_lt (h.ids_le found hfound) hother)
    · split
      · next hid =>
        simp only [← hid, update_self]
        exact Subscription.next_moves (h.registered sub hsub) (hqueue sub hsub hid)
      · next hne =>
        simp only [update_of_ne hne]
        exact .refl (h.registered sub hsub)

theorem closeSubscription_sound (id : Nat) (reason : Option Failure) :
    run.SoundAfter (run.step (.closeSubscription id reason)) := by
  refine h.moves (Hub.closeSubscription_maps id reason run.hub) (fun _ _ => rfl)
    (fun sub hsub => ?_) (h.counted.closeSubscription h.ids h.registered id reason)
  split
  · exact Subscription.close_moves (h.registered sub hsub) reason
  · exact .refl (h.registered sub hsub)

theorem closeHub_sound : run.SoundAfter (run.step .closeHub) := by
  have hcounted := h.counted.close
  simp only [step]
  unfold Hub.close at hcounted ⊢
  by_cases hclosed : run.hub.closed = true
  · rw [if_pos hclosed]
    exact h.stays
  · rw [if_neg hclosed] at hcounted ⊢
    refine h.moves ⟨rfl, fun sub => ?_, rfl, rfl⟩ (fun _ _ => rfl) (fun sub hsub => ?_) hcounted
    · split
      · rw [Subscription.closeLocked_eq]
      · rfl
    · split
      · exact Subscription.closed_moves _
      · exact .refl (h.registered sub hsub)

theorem Sound.register {boundary : UInt64} {sub : Subscription}
    (hframe : sub = { run.hub.opened query boundary with queue := sub.queue })
    (horderly : sub.Orderly [] boundary) :
    run.SoundAfter { run with hub := run.hub.register sub } := by
  have hid : sub.id = run.hub.nextID + 1 := by rw [hframe]; rfl
  have hnew : run.hub.nextID < sub.id := by omega
  have hall : ∀ P : Subscription → Prop, (∀ old ∈ run.hub.subscriptions, P old) →
      P { sub with registered := true } →
      ∀ old ∈ (run.hub.register sub).subscriptions, P old := fun P hold hsub =>
    forall_mem_append.2 ⟨hold, forall_mem_singleton.2 hsub⟩
  refine ⟨⟨?_, hall _ (fun old hold => ?_) (le_refl _), fun id hlt => h.unread id ?_,
    hall _ h.capacity ?_, hall _ h.registered ?_, hall _ h.queues ?_, h.counted.register sub⟩,
    fun old hold event hevent _ => ⟨old, mem_append_left _ hold, rfl, .inl hevent⟩, hid.le⟩
  · simp only [Hub.register, map_append, map_cons, map_nil]
    refine nodup_append.2 ⟨h.ids, nodup_singleton _, fun a ha b hb => ?_⟩
    obtain ⟨old, hold, rfl⟩ := mem_map.1 ha
    rw [mem_singleton.1 hb]
    exact Nat.ne_of_lt (Nat.lt_of_le_of_lt (h.ids_le old hold) hnew)
  · exact Nat.le_trans (h.ids_le old hold) (Nat.le_of_lt hnew)
  · exact Nat.lt_trans hnew hlt
  · rw [hframe]
    rfl
  · rw [hframe]
    rfl
  · have hempty : run.returned sub.id = [] := h.unread _ hnew
    have hmark : sub.liveAfter = boundary := by rw [hframe]; rfl
    simp only [hempty, hmark]
    exact { horderly with }

theorem Sound.skipID :
    run.SoundAfter { run with hub := { run.hub with nextID := run.hub.nextID + 1 } } :=
  ⟨{ h with
      ids_le := fun sub hsub => le_succ_of_le (h.ids_le sub hsub)
      unread := fun id hid => h.unread id (lt_of_succ_lt hid)
      counted := { h.counted with } }, h.stays.2.1, le_refl _⟩

theorem subscribe_sound {journal : Journal} (hjournal : journal.Replays)
    (passes : Nat) (query : SubscriptionQuery) :
    run.SoundAfter (run.step (.subscribe journal passes query)) := by
  simp only [step]
  unfold Hub.subscribe
  cases hquery : run.hub.checkQuery journal query with
  | error failure => exact h.stays
  | ok boundary =>
    have hafter : query.afterSequence ≤ boundary := by
      simp only [Hub.checkQuery, run_ok_iff] at hquery
      obtain ⟨-, -, -, -, -, -, -, -, committed, -, -, hle, rfl⟩ := hquery
      exact hle
    cases hreplay : replay journal run.hub.capacity boundary passes query.afterSequence
        (run.hub.opened query boundary) with
    | none =>
      simp only [hreplay]
      exact h.stays
    | some result =>
      simp only [hreplay]
      cases result with
      | error failure => exact h.skipID
      | ok sub =>
        obtain ⟨hframe, horderly⟩ := replay_orderly hjournal hafter hreplay
        exact h.register hframe horderly

/-- **One step.** It keeps the invariant, and the material events that are queued. -/
theorem step_sound {action : HubAction} (haction : action.Faithful) :
    run.SoundAfter (run.step action) := by
  cases action with
  | subscribe journal passes query => exact subscribe_sound h haction passes query
  | publish event => exact publish_sound h event
  | next id => exact next_sound h id
  | closeSubscription id reason => exact closeSubscription_sound h id reason
  | closeHub => exact closeHub_sound h

end Steps

theorem initial_sound {capacity : Int} {hub : Hub} (hhub : newHub capacity = .ok hub) :
    (initial hub).Sound := by
  simp only [newHub, run_ok_iff, exists_const] at hhub
  obtain ⟨-, rfl⟩ := hhub
  exact ⟨nodup_nil, by simp [initial], fun _ _ => rfl, by simp [initial], by simp [initial],
    by simp [initial], rfl, fun _ => rfl⟩

/-- A run counts to no more than its number of steps. -/
theorem runAll_sound (h : run.Sound) {actions : List HubAction}
    (hactions : ∀ action ∈ actions, action.Faithful) :
    (run.runAll actions).Sound ∧
      (run.runAll actions).hub.nextID ≤ run.hub.nextID + actions.length := by
  induction actions generalizing run with
  | nil => exact ⟨h, le_refl _⟩
  | cons action actions ih =>
    obtain ⟨hfirst, hrest⟩ := forall_mem_cons.1 hactions
    obtain ⟨hsound, -, hcount⟩ := step_sound h hfirst
    obtain ⟨hsound', hcount'⟩ := ih hsound hrest
    refine ⟨hsound', hcount'.trans ?_⟩
    rw [length_cons]
    omega

end HubRun

/-- **Queues and counters of the hub.** On a hub of any capacity, over any interleaving of
subscriptions, publications, readings and closings in which each journal answers a replay with later
events of the session in ascending order: every state is orderly, and every further step takes a
material event out of a queue only to return it. -/
theorem hub_orderly {capacity : Int} {hub : Hub} (hhub : newHub capacity = .ok hub)
    (actions : List HubAction) (hactions : ∀ action ∈ actions, action.Faithful) :
    ((HubRun.initial hub).runAll actions).Orderly ∧
    ∀ action : HubAction, action.Faithful →
      ((HubRun.initial hub).runAll actions).KeepsMaterial
        (((HubRun.initial hub).runAll actions).step action) := by
  obtain ⟨hsound, -⟩ := HubRun.runAll_sound (HubRun.initial_sound hhub) hactions
  exact ⟨hsound.orderly, fun action haction => (HubRun.step_sound hsound haction).2.1⟩

/-- A material event with a given sequence. -/
def sampleRenamed (sequence : UInt64) : SessionEvent :=
  sampleRename.sequenced sequence ⟨1000, true⟩

/-- A journal of three events that answers with the events after the sequence asked for. -/
def sampleJournal : Journal where
  committedSequence _ := .ok 3
  replayCommitted sessionID after _ :=
    if sessionID = sampleSessionID then
      .ok (([1, 2, 3].map sampleRenamed).filter fun event => after < event.sequence)
    else .ok []

/-- A journal whose answers are each in ascending order, but whose second page begins with the last
event of the first. -/
def repeatingJournal : Journal where
  committedSequence _ := .ok 3
  replayCommitted _ after _ :=
    if after = 0 then .ok ([1, 2].map sampleRenamed) else .ok ([2, 3].map sampleRenamed)

/-- A reader of the whole sample session. -/
def sampleQuery : SubscriptionQuery := ⟨sampleSessionID, none, none, 0⟩

/-- A reader joins, takes one event, and a fourth one is published. -/
def sampleActions (journal : Journal) : List HubAction :=
  [.subscribe journal 3 sampleQuery, .next 1, .publish (sampleRenamed 4)]

theorem sampleJournal_replays : sampleJournal.Replays := by
  intro sessionID after limit page hpage
  simp only [sampleJournal] at hpage
  split at hpage
  · next hsession =>
    cases hpage
    refine ⟨List.Pairwise.sublist filter_sublist (by decide), fun event hevent => ?_⟩
    obtain ⟨hevent, hlater⟩ := mem_filter.1 hevent
    obtain ⟨sequence, -, rfl⟩ := mem_map.1 hevent
    exact ⟨hsession.symm, by simpa using hlater⟩
  · cases hpage
    exact ⟨List.Pairwise.nil, by simp⟩

theorem hub_orderly_sample :
    ((HubRun.initial { capacity := 4 }).runAll (sampleActions sampleJournal)).Orderly ∧
    ((HubRun.initial { capacity := 4 }).runAll
      (sampleActions sampleJournal)).hub.subscriptions.map
        (fun sub => sub.queue.map (·.sequence)) = [[2, 3, 4]] := by
  refine ⟨(@hub_orderly 4 _ rfl (sampleActions sampleJournal) ?_).1, by decide⟩
  simp [sampleActions, HubAction.Faithful, sampleJournal_replays]

/-- The hub after a reader has joined over the repeating journal. -/
def repeatedRun : HubRun :=
  (HubRun.initial { capacity := 4 }).step (.subscribe repeatingJournal 3 sampleQuery)

/-- Each answer of the repeating journal is in ascending order, and the queue that it leaves in an
open subscription holds one event twice. -/
theorem repeated_page_not_orderly :
    (∀ sessionID after limit page,
      repeatingJournal.replayCommitted sessionID after limit = .ok page →
        page.Pairwise (·.sequence < ·.sequence)) ∧
    repeatedRun.hub.subscriptions.map (fun sub => (sub.closed, sub.queue.map (·.sequence))) =
      [(false, [1, 2, 2, 3])] ∧
    ¬repeatedRun.Orderly := by
  refine ⟨fun sessionID after limit page hpage => ?_,
    (and_iff_left_of_imp fun hqueue h => ?_).2 (by decide)⟩
  · simp only [repeatingJournal] at hpage
    split at hpage
    all_goals
      cases hpage
      decide
  · obtain ⟨sub, hsub, heq⟩ := mem_map.1 (hqueue ▸ mem_singleton_self _)
    have hascending := h.ascending sub hsub
    rw [← pairwise_map, (Prod.mk.inj heq).2] at hascending
    exact absurd hascending (by decide)

end Codeflux.Events
