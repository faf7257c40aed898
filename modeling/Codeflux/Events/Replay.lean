import Codeflux.Storage.SessionJournal

/-!
# Replay of a contiguous history

A new subscription asks the journal for pages of at most the hub's capacity until it has read up to
the boundary. On a contiguous history this terminates.
-/

namespace Codeflux.Events

open Library Domain Storage List

/-- The refusal of a page that is too long for one query. -/
def errReplayLimit : Failure := .new "session replay limit must be between 1 and 1000"

/-- The outcome of a replay that offered its events to the queue of `sub`. -/
def Subscription.replayed (sub : Subscription) : Option (List SessionEvent) → Result Subscription
  | some queue => .ok { sub with queue }
  | none => .error errSnapshotRequired

/-- The sequence of the last event of a page, or the cursor before it. -/
def lastSequence (after : UInt64) (page : List SessionEvent) : UInt64 :=
  (page.getLast?.map (·.sequence)).getD after

theorem lastSequence_cons (after : UInt64) (event : SessionEvent) (page : List SessionEvent) :
    lastSequence after (event :: page) = lastSequence event.sequence page := by
  cases page with
  | nil => rfl
  | cons next page =>
    simp only [lastSequence, getLast?_cons_cons]
    rw [getLast?_eq_some_getLast (cons_ne_nil next page)]
    rfl

variable {after boundary : UInt64} {page : List SessionEvent} {sub : Subscription}
  {store : SessionStore} {passes : Nat} {query : SubscriptionQuery} {hub : Hub}

theorem lastSequence_of_numbered (h : Numbered (·.sequence.toNat) (after.toNat + 1) page) :
    (lastSequence after page).toNat = after.toNat + page.length := by
  induction page generalizing after with
  | nil => rfl
  | cons event page ih =>
    have hsequence : event.sequence.toNat = after.toNat + 1 := h.1
    rw [lastSequence_cons, ih (by rw [hsequence]; exact h.2), hsequence, length_cons]
    omega

theorem replayPage_eq (after : UInt64) (hopen : sub.closed = false)
    (hpage : ∀ event ∈ page, event.sequence ≤ boundary) :
    replayPage boundary page after sub =
      (sub.replayed
        (eventPolicy.offerAll sub.capacity sub.queue (page.filter sub.matchesEvent))).map
        (lastSequence after page, ·) := by
  induction page generalizing after sub with
  | nil => rfl
  | cons event page ih =>
    have hevent : ¬boundary < event.sequence :=
      UInt64.not_lt.2 (hpage event mem_cons_self)
    have hrest := fun e he => hpage e (mem_cons_of_mem event he)
    rw [replayPage, if_neg hevent, lastSequence_cons]
    by_cases hmatch : sub.matchesEvent event = true
    · rw [if_pos hmatch, filter_cons_of_pos hmatch, QueuePolicy.offerAll_cons,
        Subscription.enqueueLocked_of_open hopen]
      rcases hoffer : eventPolicy.offer sub.capacity sub.queue event with
        ⟨queue, delivered, coalesced⟩
      cases delivered with
      | true => exact ih event.sequence hopen hrest
      | false => rfl
    · rw [if_neg hmatch, filter_cons_of_neg hmatch]
      exact ih event.sequence hopen hrest

/-- **Replay.** On a contiguous history the replay ends within as many passes as there are events
left. It fails when a page would be too long for one query, or when a material event does not fit
the queue. -/
theorem replay_eq {row : SessionRow} {capacity : Nat} (hstore : store.Contiguous)
    (hrow : row ∈ store.sessions.rows) (hid : row.id.isZero = false) (hcapacity : 1 ≤ capacity)
    (hopen : sub.closed = false) (hquery : sub.query.sessionID = row.id)
    (hafter : after ≤ row.currentSequence)
    (hpasses : row.currentSequence.toNat - after.toNat ≤ passes) :
    replay store.journal capacity row.currentSequence passes after sub = some (
      if min capacity (row.currentSequence.toNat - after.toNat) ≤ 1000 then
        sub.replayed (eventPolicy.offerAll sub.capacity sub.queue
          (((store.history row.id).drop after.toNat).filter sub.matchesEvent))
      else .error errReplayLimit) := by
  obtain ⟨hnumbered, hlength⟩ := hstore.numbered_history hrow
  have hafter' := UInt64.le_iff_toNat_le.1 hafter
  induction passes generalizing after sub with
  | zero =>
    have hdone : ¬after < row.currentSequence := by
      rw [UInt64.lt_iff_toNat_lt]
      omega
    rw [replay, if_neg hdone, drop_eq_nil_of_le (by omega), if_pos (by omega)]
    rfl
  | succ passes ih =>
    by_cases hmore : after < row.currentSequence
    · have hmore' := UInt64.lt_iff_toNat_lt.1 hmore
      rw [replay, if_pos hmore, UInt64.toNat_sub_of_le _ _ hafter]
      generalize hlimit : min capacity (row.currentSequence.toNat - after.toNat) = limit
      have hjournal : store.journal.replayCommitted sub.query.sessionID after limit =
          if limit ≤ 1000 then .ok (((store.history row.id).drop after.toNat).take limit)
          else .error errReplayLimit := by
        rw [hquery]
        exact SessionStore.replaySessionEvents_eq hstore hrow hid after (by omega)
      rw [hjournal]
      by_cases hmax : limit ≤ 1000
      · rw [if_pos hmax, if_pos hmax]
        generalize hleft : (store.history row.id).drop after.toNat = left
        have hleft_numbered : Numbered (·.sequence.toNat) (after.toNat + 1) left := by
          rw [← hleft, Nat.add_comm]
          exact hnumbered.drop after.toNat (by omega)
        have hleft_length : left.length = row.currentSequence.toNat - after.toNat := by
          rw [← hleft, length_drop, hlength]
        have hpage_length : (left.take limit).length = limit := by
          rw [length_take]
          omega
        have hlast := lastSequence_of_numbered (hleft_numbered.take limit)
        rw [hpage_length] at hlast
        have hpage_le : ∀ event ∈ left.take limit, event.sequence ≤ row.currentSequence := by
          intro event hevent
          have := (hleft_numbered.bounds (mem_of_mem_take hevent)).2
          exact UInt64.le_iff_toNat_le.2 (by omega)
        have hrest : (store.history row.id).drop (lastSequence after (left.take limit)).toNat =
            left.drop limit := by
          rw [hlast, ← hleft, drop_drop]
        have hoffers : eventPolicy.offerAll sub.capacity sub.queue (left.filter sub.matchesEvent) =
            (eventPolicy.offerAll sub.capacity sub.queue
              ((left.take limit).filter sub.matchesEvent)).bind
              (eventPolicy.offerAll sub.capacity ·
                ((left.drop limit).filter sub.matchesEvent)) := by
          rw [← QueuePolicy.offerAll_append, ← filter_append, take_append_drop]
        have hpage := replayPage_eq after hopen hpage_le
        obtain ⟨event, page, hcons⟩ : ∃ event page, left.take limit = event :: page :=
          exists_cons_of_length_pos (by omega)
        rw [hoffers]
        simp only [hcons] at hpage hlast hrest ⊢
        rw [hpage]
        -- the page is refused, or the loop goes on after its last event
        cases eventPolicy.offerAll sub.capacity sub.queue
            ((event :: page).filter sub.matchesEvent) with
        | none => rfl
        | some queue =>
          have hnext := @ih (lastSequence after (event :: page)) { sub with queue } hopen hquery
            (UInt64.le_iff_toNat_le.2 (by omega)) (by omega) (by omega)
          rwa [hrest, if_pos (by omega)] at hnext
      · rw [if_neg hmax, if_neg hmax]
    · -- no event is left
      have hdone := UInt64.le_iff_toNat_le.1 (UInt64.not_lt.1 hmore)
      rw [replay, if_neg hmore, drop_eq_nil_of_le (by omega), if_pos (by omega)]
      rfl

/-- Enough passes for the replay of a query. -/
def replayPasses (store : SessionStore) (query : SubscriptionQuery) : Nat :=
  match store.currentSessionSequence query.sessionID with
  | .ok boundary => boundary.toNat - query.afterSequence.toNat
  | .error _ => 0

theorem Hub.checkQuery_ok_iff :
    hub.checkQuery store.journal query = .ok boundary ↔
      query.sessionID.isZero = false ∧ query.threadID.all (!·.isZero) = true ∧
      query.taskID.all (!·.isZero) = true ∧ hub.closed = false ∧
      (∃ row ∈ store.sessions.rows, row.id = query.sessionID ∧ row.currentSequence = boundary) ∧
      query.afterSequence ≤ boundary := by
  simp only [Hub.checkQuery, run_ok_iff, exists_const, SessionStore.journal,
    SessionStore.currentSessionSequence_ok_iff]
  constructor
  · rintro ⟨hsession, hthread, htask, hclosed, boundary, ⟨-, hrow⟩, hafter, rfl⟩
    exact ⟨hsession, hthread, htask, hclosed, hrow, hafter⟩
  · rintro ⟨hsession, hthread, htask, hclosed, hrow, hafter⟩
    exact ⟨hsession, hthread, htask, hclosed, boundary, ⟨hsession, hrow⟩, hafter, rfl⟩

/-- The committed events that a query replays. -/
def backlog (store : SessionStore) (query : SubscriptionQuery) : List SessionEvent :=
  (store.history query.sessionID).drop query.afterSequence.toNat

/-- The hub and the answer after a replay. -/
def Hub.joined (hub : Hub) : Result Subscription → Hub × Result Nat
  | .ok sub => (hub.register sub, .ok sub.id)
  | .error failure => ({ hub with nextID := hub.nextID + 1 }, .error failure)

theorem Hub.subscribe_of_replay {journal : Journal} {result : Result Subscription}
    (hquery : hub.checkQuery journal query = .ok boundary)
    (hreplay : replay journal hub.capacity boundary passes query.afterSequence
      (hub.opened query boundary) = some result) :
    hub.subscribe journal passes query = some (hub.joined result) := by
  simp only [Hub.subscribe, hquery, hreplay]
  cases result <;> rfl

theorem Hub.subscribe_of_checkQuery (hstore : store.Contiguous) (hcapacity : 1 ≤ hub.capacity)
    (hquery : hub.checkQuery store.journal query = .ok boundary) :
    hub.subscribe store.journal (replayPasses store query) query =
      some (hub.joined (
        if min hub.capacity (boundary.toNat - query.afterSequence.toNat) ≤ 1000 then
          (hub.opened query boundary).replayed (eventPolicy.offerAll hub.capacity []
            ((backlog store query).filter (hub.opened query boundary).matchesEvent))
        else .error errReplayLimit)) := by
  obtain ⟨hsession, -, -, -, ⟨row, hrow, hid, rfl⟩, hafter⟩ := checkQuery_ok_iff.1 hquery
  have hpasses : row.currentSequence.toNat - query.afterSequence.toNat ≤
      replayPasses store query := by
    rw [replayPasses,
      SessionStore.currentSessionSequence_ok_iff.2 ⟨hsession, row, hrow, hid, rfl⟩]
  have hopened : (hub.opened query row.currentSequence).closed = false := rfl
  have hreplay := replay_eq hstore hrow (hid ▸ hsession) hcapacity hopened hid.symm hafter hpasses
  rw [hid] at hreplay
  exact subscribe_of_replay hquery hreplay

/-- What a successful subscription found in the store and put into its queue. -/
structure Subscribed (store : SessionStore) (query : SubscriptionQuery) (hub hub' : Hub)
    (boundary : UInt64) (queue : List SessionEvent) : Prop where
  admitted : hub.checkQuery store.journal query = .ok boundary
  offered : eventPolicy.offerAll hub.capacity []
    ((backlog store query).filter (hub.opened query boundary).matchesEvent) = some queue
  registered : hub' = hub.register { hub.opened query boundary with queue }

/-- The queue of a new subscription holds events after its cursor and up to its boundary, in order,
and every material one of its scope. -/
theorem Subscribed.queue_spec {hub' : Hub} {queue : List SessionEvent} (hstore : store.Contiguous)
    (h : Subscribed store query hub hub' boundary queue) :
    queue.Pairwise (·.sequence < ·.sequence) ∧
    (∀ d ∈ queue, d.sessionID = query.sessionID ∧ d.sequence ≤ boundary) ∧
    ∀ d ∈ store.events.rows, d.sessionID = query.sessionID → query.afterSequence < d.sequence →
      d.isEphemeral = false → (hub.opened query boundary).matchesEvent d = true → d ∈ queue := by
  obtain ⟨-, -, -, -, ⟨row, hrow, hid, rfl⟩, hafter⟩ := Hub.checkQuery_ok_iff.1 h.admitted
  obtain ⟨hnumbered, hlength⟩ := hstore.numbered_history hrow
  obtain ⟨hsublist, hqueue, -⟩ := eventPolicy.offerAll_spec h.offered
  rw [nil_append] at hsublist hqueue
  have hhistory : queue.Sublist (store.history row.id) :=
    hsublist.trans (filter_sublist.trans (hid ▸ drop_sublist _ _))
  refine ⟨?_, fun d hd => ?_, fun d hd hsession hlater hkept hmatch => ?_⟩
  · refine List.Pairwise.sublist hhistory (hnumbered.pairwise_lt.imp fun {a b} hlt => ?_)
    exact UInt64.lt_iff_toNat_lt.2 hlt
  · have hmem := hhistory.subset hd
    have hbound := (hnumbered.bounds hmem).2
    rw [SessionStore.history, mem_filter, beq_iff_eq] at hmem
    exact ⟨hmem.2.trans hid, UInt64.le_iff_toNat_le.2 (by omega)⟩
  · have hbacklog : d ∈ backlog store query := by
      rw [backlog, ← hid, ← hstore.history_after hrow, mem_filter, SessionStore.history,
        mem_filter, hid]
      simp [hd, hsession, hlater]
    have hoffered : d ∈ eventPolicy.kept
        ((backlog store query).filter (hub.opened query row.currentSequence).matchesEvent) :=
      (eventPolicy.mem_kept).2 ⟨mem_filter.2 ⟨hbacklog, hmatch⟩, hkept⟩
    rw [← hqueue] at hoffered
    exact ((eventPolicy.mem_kept).1 hoffered).1

/-- **What a subscription attempt can do to the hub.** It always ends. It registers a subscription
that holds the committed events after the cursor, or it leaves the subscriptions as they are. -/
theorem Hub.subscribe_cases (hstore : store.Contiguous) (hcapacity : 1 ≤ hub.capacity) :
    ∃ hub' answer,
      hub.subscribe store.journal (replayPasses store query) query = some (hub', answer) ∧
      ((∃ boundary queue, Subscribed store query hub hub' boundary queue) ∨
        hub' = hub ∨ hub' = { hub with nextID := hub.nextID + 1 }) := by
  cases hquery : hub.checkQuery store.journal query with
  | error failure =>
    exact ⟨hub, .error failure, by rw [Hub.subscribe, hquery], .inr (.inl rfl)⟩
  | ok boundary =>
    rw [subscribe_of_checkQuery hstore hcapacity hquery]
    split_ifs with hlimit
    · cases hoffers : eventPolicy.offerAll hub.capacity []
          ((backlog store query).filter (hub.opened query boundary).matchesEvent) with
      | none => exact ⟨_, _, rfl, .inr (.inr rfl)⟩
      | some queue => exact ⟨_, _, rfl, .inl ⟨boundary, queue, hquery, hoffers, rfl⟩⟩
    · exact ⟨_, _, rfl, .inr (.inr rfl)⟩

end Codeflux.Events
