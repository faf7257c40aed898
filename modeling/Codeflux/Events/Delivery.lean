import Codeflux.Events.World
import Codeflux.Library.Run

/-!
# Live delivery

A subscription ignores what is at or below its high-water mark. Below the boundary it joined at this
is right, since it has replayed those events. Above it a material event that arrives after a later
one is skipped, and nobody is told: the only way to lose one silently.
-/

namespace Codeflux.Events

open Library Go Domain Storage SessionStore List Function

/-! ### Steps of the system -/

@[simp] theorem Commit.mark_event (sessionID : SessionID) (sequence : UInt64) (commit : Commit) :
    (commit.mark sessionID sequence).event = commit.event := by
  unfold Commit.mark
  split <;> rfl

variable {commit : Commit}

theorem Commit.isAt_iff {sessionID : SessionID} {sequence : UInt64} :
    commit.isAt sessionID sequence = true ↔
      commit.event.sessionID = sessionID ∧ commit.event.sequence = sequence := by
  simp [isAt]

namespace World

variable {w w' : World}

/-- A step that changes the subscriptions one by one keeps the system sound when it keeps each
subscription sound. -/
theorem Sound.maps {f : Subscription → Subscription} (h : w.Sound) (hmaps : w.hub.Maps w'.hub f)
    (hstore : w'.store = w.store) (hevents : w'.commits.map (·.event) = w.commits.map (·.event))
    (hunread : ∀ id, w.hub.nextID < id → w'.returned id = w.returned id)
    (hshut : w'.hub.closed = true → ∀ sub ∈ w.hub.subscriptions, (f sub).closed = true)
    (hsub : ∀ sub ∈ w.hub.subscriptions,
      SubscriptionSound w.store w'.commits (w'.delivered (f sub)) (f sub)) : w'.Sound where
  contiguous := hstore ▸ h.contiguous
  committed := by
    have := h.committed
    rw [← comp_def journaled, ← map_map] at this ⊢
    rwa [hevents, hstore]
  valid commit hcommit := by
    have hmem : commit.event ∈ w.commits.map (·.event) := hevents ▸ mem_map_of_mem hcommit
    obtain ⟨old, hold, heq⟩ := mem_map.1 hmem
    exact heq ▸ h.valid old hold
  capacity := hmaps.capacity ▸ h.capacity
  ids := hmaps.ids_eq ▸ h.ids
  ids_le := hmaps.forall fun sub hsub => by
    rw [hmaps.id_eq, hmaps.nextID]
    exact h.ids_le sub hsub
  unread id hid := by
    rw [hmaps.nextID] at hid
    rw [hunread id hid]
    exact h.unread id hid
  shut hclosed := hmaps.forall (hshut hclosed)
  subscriptions := hmaps.forall (hstore ▸ hsub)

theorem createSession_sound (h : w.Sound) (id : SessionID) (threadID : ThreadID) :
    (w.step (.createSession id threadID)).Sound := by
  rcases settled_cases w.store (w.store.createSession id threadID) with hsame | hok
  · simpa only [step, hsame] using h
  · obtain ⟨-, hrows, hevents⟩ := createSession_ok hok
    refine { h with
      contiguous := createSession_contiguous h.contiguous hok
      committed := by rw [step, hevents]; exact h.committed
      subscriptions := fun sub hsub => ?_ }
    have hsound := h.subscriptions sub hsub
    obtain ⟨row, hrow, hrest⟩ := hsound.session
    exact hsound.of_commits ⟨row, hrows ▸ mem_append_left _ hrow, hrest⟩
      (fun _ hcommit _ => hcommit) (fun commit hcommit _ _ => ⟨commit, hcommit, rfl⟩)

theorem commit_sound (h : w.Sound) (now : Timestamp) (input : NewSessionEvent) :
    (w.step (.commit now input)).Sound := by
  rw [step]
  cases happend : w.store.appendSessionEvent now input with
  | error failure => exact h
  | ok result =>
    obtain ⟨store, event⟩ := result
    obtain ⟨row, happended⟩ := appendSessionEvent_ok happend
    have hsequence : event.sequence = row.currentSequence + 1 := by
      rw [← happended.sequenced]
      rfl
    refine { h with
      contiguous := appendSessionEvent_contiguous h.contiguous happend
      committed := by
        rw [map_append, h.committed, happended.events]
        rfl
      valid := fun commit hcommit => by
        rcases mem_append.1 hcommit with hcommit | hcommit
        · exact h.valid commit hcommit
        · rw [mem_singleton.1 hcommit]
          exact happended.valid
      subscriptions := fun sub hsub => ?_ }
    have hsound := h.subscriptions sub hsub
    obtain ⟨own, hown, hid, hboundary⟩ := hsound.session
    refine hsound.of_commits ?_ (fun commit hcommit _ => mem_append_left _ hcommit) ?_
    · refine ⟨advanceSequence input own, ?_, ?_, ?_⟩
      · rw [happended.sessions]
        exact mem_map_of_mem hown
      · rw [advanceSequence_id, hid]
      · exact UInt64.le_trans hboundary (happended.le_advanceSequence hown)
    · intro commit hcommit hsession hle
      rcases mem_append.1 hcommit with hcommit | hcommit
      · exact ⟨commit, hcommit, rfl⟩
      · -- the new event is numbered above the boundary of every subscription to its session
        rw [mem_singleton.1 hcommit] at hsession hle
        rw [happended.row_eq hown (hid.trans hsession.symm), UInt64.le_iff_toNat_le] at hboundary
        rw [hsequence, UInt64.le_iff_toNat_le, happended.successor] at hle
        omega

/-- What a publication can do: nothing, when there is no such event to publish; or mark the event,
and offer it to the subscriptions of an open hub. -/
theorem Sound.publish_cases (h : w.Sound) (sessionID : SessionID) (sequence : UInt64) :
    (w.publish sessionID sequence = w ∧ ∀ commit ∈ w.commits,
      commit.isAt sessionID sequence = true → commit.published = true) ∨
    ∃ commit ∈ w.commits, commit.isAt sessionID sequence = true ∧ commit.published = false ∧
      ((w.hub.closed = true ∧ w.publish sessionID sequence =
          { w with commits := w.commits.map (·.mark sessionID sequence) }) ∨
        (w.hub.closed = false ∧ w.publish sessionID sequence =
          { w with
            commits := w.commits.map (·.mark sessionID sequence)
            hub := w.hub.deliver commit.event })) := by
  unfold publish
  cases hfind : w.commits.find? fun commit =>
      commit.isAt sessionID sequence && !commit.published with
  | none =>
    refine .inl ⟨rfl, fun commit hcommit hat => ?_⟩
    have := find?_eq_none.1 hfind commit hcommit
    simpa [hat] using this
  | some commit =>
    have hcommit := mem_of_find?_eq_some hfind
    have hat := find?_some hfind
    simp only [Bool.and_eq_true, Bool.not_eq_true'] at hat
    refine .inr ⟨commit, hcommit, hat.1, hat.2, ?_⟩
    simp only [Hub.publishCommitted_of_valid (h.valid commit hcommit)]
    cases w.hub.closed with
    | true => exact .inl ⟨rfl, rfl⟩
    | false => exact .inr ⟨rfl, rfl⟩

theorem map_mark_event (commits : List Commit) (sessionID : SessionID) (sequence : UInt64) :
    (commits.map (·.mark sessionID sequence)).map (·.event) = commits.map (·.event) := by
  simp [map_map, comp_def]

theorem Sound.mark (h : w.Sound) (sessionID : SessionID) (sequence : UInt64) {sub : Subscription}
    (hsub : sub ∈ w.hub.subscriptions) :
    SubscriptionSound w.store (w.commits.map (·.mark sessionID sequence)) (w.delivered sub)
      sub := by
  have hsound := h.subscriptions sub hsub
  refine hsound.of_commits hsound.session (fun old hold hpublished => ?_) ?_
  · refine mem_map.2 ⟨old, hold, ?_⟩
    unfold Commit.mark
    split
    · rw [← hpublished]
    · rfl
  · intro marked hmarked _ _
    obtain ⟨old, hold, rfl⟩ := mem_map.1 hmarked
    exact ⟨old, hold, (Commit.mark_event ..).symm⟩

theorem publish_sound (h : w.Sound) (sessionID : SessionID) (sequence : UInt64) :
    (w.publish sessionID sequence).Sound := by
  rcases h.publish_cases sessionID sequence with ⟨hsame, -⟩ |
    ⟨commit, hcommit, hat, -, ⟨hclosed, heq⟩ | ⟨hopen, heq⟩⟩
  · rwa [hsame]
  · rw [heq]
    exact h.maps (Hub.Maps.refl w.hub) rfl (map_mark_event ..) (fun _ _ => rfl)
      (fun _ sub hsub => h.shut hclosed sub hsub) (fun sub hsub => h.mark sessionID sequence hsub)
  · rw [heq]
    refine h.maps (Hub.deliver_maps commit.event w.hub) rfl (map_mark_event ..) (fun _ _ => rfl)
      (fun hshut => ?_) (fun sub hsub => ?_)
    · exact absurd (hshut.symm.trans hopen) Bool.noConfusion
    · have hpublished : ∃ marked ∈ w.commits.map (·.mark sessionID sequence),
          marked.published = true ∧ marked.event = commit.event :=
        ⟨commit.mark sessionID sequence, mem_map_of_mem hcommit,
          by rw [Commit.mark, if_pos hat], Commit.mark_event ..⟩
      rw [delivered, Subscription.publish_id]
      exact (h.mark sessionID sequence hsub).publish hpublished

end World

/-- What a reader's step can do to a subscription: it keeps its place in the stream, and may end. -/
structure Subscription.Quiet (sub sub' : Subscription) : Prop where
  query : sub'.query = sub.query
  liveBoundary : sub'.liveBoundary = sub.liveBoundary
  liveAfter : sub'.liveAfter = sub.liveAfter
  ended : sub'.closed = sub.closed ∧ sub'.registered = sub.registered ∨
    sub'.closed = true ∧ sub'.registered = false

namespace Subscription.Quiet

variable {store : SessionStore} {commits : List Commit} {delivered : List SessionEvent}
  {sub sub' : Subscription}

section

variable (h : sub.Quiet sub')

include h

theorem open_of_open (hopen : sub'.closed = false) : sub.closed = false := by
  rcases h.ended with ⟨hclosed, -⟩ | ⟨hclosed, -⟩
  · rw [← hclosed, hopen]
  · rw [hopen] at hclosed
    cases hclosed

theorem matchesEvent_eq (event : SessionEvent) :
    sub'.matchesEvent event = sub.matchesEvent event := by
  rw [matchesEvent, matchesEvent, h.query]

theorem sound (hsub : SubscriptionSound store commits delivered sub) :
    SubscriptionSound store commits delivered sub' where
  registered := by
    rcases h.ended with ⟨hclosed, hregistered⟩ | ⟨hclosed, hregistered⟩
    · rw [hregistered, hclosed, hsub.registered]
    · rw [hregistered, hclosed, Bool.not_true]
  after_le := by rw [h.query, h.liveBoundary]; exact hsub.after_le
  boundary_le := by rw [h.liveBoundary, h.liveAfter]; exact hsub.boundary_le
  session := by rw [h.query, h.liveBoundary]; exact hsub.session
  ascending := hsub.ascending
  below := by rw [h.liveAfter]; exact hsub.below
  origin := by rw [h.query, h.liveBoundary]; exact hsub.origin
  replayed hopen := by
    simp only [h.query, h.liveBoundary, h.matchesEvent_eq]
    exact hsub.replayed (h.open_of_open hopen)

theorem concerns (hconcerns : commit.Concerns sub') : commit.Concerns sub where
  __ := hconcerns
  session := h.query ▸ hconcerns.session
  scope := by rw [← h.matchesEvent_eq]; exact hconcerns.scope
  later := h.query ▸ hconcerns.later

theorem covered (hsub : SubscriptionCovered commits delivered sub) :
    SubscriptionCovered commits delivered sub' := by
  intro hopen commit hcommit hconcerns hlate
  rw [h.liveBoundary] at hlate
  exact hsub (h.open_of_open hopen) commit hcommit (h.concerns hconcerns) hlate

end

end Subscription.Quiet

namespace Subscription

variable (sub : Subscription)

theorem Quiet.refl : sub.Quiet sub := ⟨rfl, rfl, rfl, .inl ⟨rfl, rfl⟩⟩

theorem close_quiet (reason : Option Failure) :
    sub.Quiet (sub.close reason) ∧ (sub.close reason).queue = sub.queue := by
  unfold close
  split
  · exact ⟨.refl sub, rfl⟩
  · rw [closeLocked_eq]
    exact ⟨⟨rfl, rfl, rfl, .inr ⟨rfl, rfl⟩⟩, rfl⟩

end Subscription

/-- A step of a reader or of the coordinator that delivers nothing new. -/
structure World.Quiet (w w' : World) (f : Subscription → Subscription) : Prop where
  maps : w.hub.Maps w'.hub f
  store : w'.store = w.store
  commits : w'.commits = w.commits
  unread : ∀ id, w.hub.nextID < id → w'.returned id = w.returned id
  shut : w'.hub.closed = true → w.hub.closed = true ∨
    ∀ sub ∈ w.hub.subscriptions, sub.registered = true → (f sub).closed = true
  quiet : ∀ sub ∈ w.hub.subscriptions, sub.Quiet (f sub)
  delivered : ∀ sub ∈ w.hub.subscriptions, w'.delivered (f sub) = w.delivered sub

namespace World

variable {w w' : World} {f : Subscription → Subscription}

theorem Quiet.sound (hquiet : w.Quiet w' f) (h : w.Sound) : w'.Sound := by
  refine h.maps hquiet.maps hquiet.store (by rw [hquiet.commits]) hquiet.unread ?_ ?_
  · intro hshut sub hsub
    by_contra hopen
    have hopen := (hquiet.quiet sub hsub).open_of_open (by simpa using hopen)
    rcases hquiet.shut hshut with hclosed | hall
    · rw [h.shut hclosed sub hsub] at hopen
      cases hopen
    · have hregistered : sub.registered = true := by
        rw [(h.subscriptions sub hsub).registered, hopen]
        rfl
      exact absurd (hall sub hsub hregistered) (by assumption)
  · intro sub hsub
    rw [hquiet.commits, hquiet.delivered sub hsub]
    exact (hquiet.quiet sub hsub).sound (h.subscriptions sub hsub)

theorem Quiet.covered (hquiet : w.Quiet w' f) (h : w.Covered) : w'.Covered := by
  refine hquiet.maps.forall fun sub hsub => ?_
  rw [hquiet.commits, hquiet.delivered sub hsub]
  exact (hquiet.quiet sub hsub).covered (h sub hsub)

theorem Quiet.refl (w : World) : w.Quiet w fun sub => sub :=
  ⟨Hub.Maps.refl w.hub, rfl, rfl, fun _ _ => rfl, fun h => .inl h,
    fun sub _ => .refl sub, fun _ _ => rfl⟩

theorem quiet_of_maps {hub : Hub} {returned : Nat → List SessionEvent} {id : Nat}
    (hmaps : w.hub.Maps hub fun sub => if sub.id = id then f sub else sub)
    (hclosed : hub.closed = w.hub.closed)
    (hunread : ∀ other, w.hub.nextID < other → returned other = w.returned other)
    (hother : ∀ other, other ≠ id → returned other = w.returned other)
    (hquiet : ∀ sub ∈ w.hub.subscriptions, sub.id = id → sub.Quiet (f sub) ∧
      returned id ++ (f sub).queue = w.returned id ++ sub.queue) :
    w.Quiet { w with hub, returned } fun sub => if sub.id = id then f sub else sub where
  maps := hmaps
  store := rfl
  commits := rfl
  unread := hunread
  shut hshut := .inl (hclosed ▸ hshut)
  quiet sub hsub := by
    split
    · next heq => exact (hquiet sub hsub heq).1
    · exact .refl sub
  delivered sub hsub := by
    rw [delivered, delivered, hmaps.id_eq]
    split
    · next heq =>
      rw [heq]
      exact (hquiet sub hsub heq).2
    · next hne => exact congrArg (· ++ sub.queue) (hother sub.id hne)

theorem next_quiet (h : w.Sound) (id : Nat) : ∃ f, w.Quiet (w.next id) f := by
  unfold next
  rcases Hub.next_cases h.ids id with ⟨answer, heq, hnone⟩ |
    ⟨found, hfound, event, rest, rfl, hqueue, heq⟩
  · rw [heq]
    split
    · next hevent => exact absurd (Prod.mk.inj hevent).2 (hnone _)
    · next hother =>
      obtain ⟨rfl, -⟩ := Prod.mk.inj hother
      exact ⟨_, Quiet.refl w⟩
  · rw [heq]
    have hle := h.ids_le found hfound
    refine ⟨_, quiet_of_maps (Hub.modify_maps found.id (fun _ => by rfl) w.hub) rfl
      (fun other hlt => update_of_ne (by omega) _ _)
      (fun other hne => update_of_ne hne _ _) fun sub hsub hid => ?_⟩
    rw [hqueue sub hsub hid, update_self, append_assoc]
    exact ⟨⟨rfl, rfl, rfl, .inl ⟨rfl, rfl⟩⟩, rfl⟩

theorem closeSubscription_quiet (w : World) (id : Nat) (reason : Option Failure) :
    ∃ f, w.Quiet (w.step (.closeSubscription id reason)) f := by
  refine ⟨_, quiet_of_maps (Hub.closeSubscription_maps id reason w.hub) ?_ (fun _ _ => rfl)
    (fun _ _ => rfl) fun sub _ _ => ⟨(sub.close_quiet reason).1, ?_⟩⟩
  · unfold Hub.closeSubscription
    split <;> rfl
  · rw [(sub.close_quiet reason).2]

theorem closeHub_quiet (w : World) : ∃ f, w.Quiet (w.step .closeHub) f := by
  rw [step, Hub.close]
  split
  · exact ⟨_, Quiet.refl w⟩
  · simp only [Subscription.closeLocked_eq]
    refine ⟨_, ⟨rfl, fun sub => ?_, rfl, rfl⟩, rfl, rfl, fun _ _ => rfl, fun _ => .inr ?_, ?_, ?_⟩
    · split <;> rfl
    · intro sub _ hregistered
      rw [if_pos hregistered]
    · intro sub _
      split
      · exact ⟨rfl, rfl, rfl, .inr ⟨rfl, rfl⟩⟩
      · exact .refl sub
    · intro sub _
      split <;> rfl

/-! ### Subscribing -/

variable {query : SubscriptionQuery} {hub : Hub} {boundary : UInt64} {queue : List SessionEvent}

theorem delivered_opened (h : w.Sound) :
    w.delivered { w.hub.opened query boundary with queue, registered := true } = queue := by
  exact congrArg (· ++ queue) (h.unread (w.hub.nextID + 1) (Nat.lt_succ_self _))

theorem Sound.subscribed (h : w.Sound) (hsub : Subscribed w.store query w.hub hub boundary queue) :
    SubscriptionSound w.store w.commits
      (w.delivered { w.hub.opened query boundary with queue, registered := true })
      { w.hub.opened query boundary with queue, registered := true } := by
  rw [delivered_opened h]
  obtain ⟨hascending, horigin, hall⟩ := hsub.queue_spec h.contiguous
  obtain ⟨-, -, -, -, ⟨row, hrow, hid, hboundary⟩, hafter⟩ := Hub.checkQuery_ok_iff.1 hsub.admitted
  exact {
    registered := rfl
    after_le := hafter
    boundary_le := UInt64.le_refl _
    session := ⟨row, hrow, hid, hboundary ▸ UInt64.le_refl _⟩
    ascending := hascending
    below := fun d hd => (horigin d hd).2
    origin := fun d hd => ⟨(horigin d hd).1, .inl (horigin d hd).2⟩
    replayed := fun _ commit hcommit hmaterial hsession hscope hlater _ =>
      ⟨_, hall _ (h.journaled_mem hcommit) hsession hlater
        (SessionEvent.material_iff.1 hmaterial) hscope, .inr rfl⟩ }

theorem forall_subscribed (hsub : Subscribed w.store query w.hub hub boundary queue)
    {P : Subscription → Prop} (hold : ∀ sub ∈ w.hub.subscriptions, P sub)
    (hnew : P { w.hub.opened query boundary with queue, registered := true }) : 
    ∀ sub ∈ hub.subscriptions, P sub := by
  intro sub hmem
  rw [hsub.registered, Hub.register, mem_append, mem_singleton] at hmem
  rcases hmem with hmem | rfl
  · exact hold sub hmem
  · exact hnew

theorem subscribed_sound (h : w.Sound)
    (hsub : Subscribed w.store query w.hub hub boundary queue) : { w with hub }.Sound := by
  have hnextID : hub.nextID = w.hub.nextID + 1 := by rw [hsub.registered]; rfl
  have hclosed : hub.closed = false := by
    rw [hsub.registered]
    exact (Hub.checkQuery_ok_iff.1 hsub.admitted).2.2.2.1
  exact { h with
    capacity := by rw [hsub.registered]; exact h.capacity
    ids := by
      rw [hsub.registered, Hub.register, map_append, nodup_append]
      refine ⟨h.ids, nodup_singleton _, ?_⟩
      rintro id hid other hother rfl
      obtain ⟨sub, hsub, rfl⟩ := mem_map.1 hid
      have hle := h.ids_le sub hsub
      rw [mem_singleton.1 hother] at hle
      exact Nat.not_succ_le_self _ hle
    ids_le := forall_subscribed hsub
      (fun sub hmem => hnextID ▸ Nat.le_succ_of_le (h.ids_le sub hmem)) hnextID.ge
    unread := fun id (hid : hub.nextID < id) => h.unread id (by omega)
    shut := fun hshut => absurd (hshut.symm.trans hclosed) Bool.noConfusion
    subscriptions := forall_subscribed hsub h.subscriptions (h.subscribed hsub) }

theorem subscribed_covered (h : w.Sound) (hcovered : w.Covered)
    (hsub : Subscribed w.store query w.hub hub boundary queue) : { w with hub }.Covered := by
  refine forall_subscribed hsub hcovered ?_
  intro _ commit hcommit hconcerns hlate
  -- nothing is committed above the boundary
  obtain ⟨-, -, -, -, ⟨row, hrow, hid, rfl⟩, -⟩ := Hub.checkQuery_ok_iff.1 hsub.admitted
  have hle := h.sequence_le hcommit hrow (hid.trans hconcerns.session.symm)
  exact absurd hlate (UInt64.not_lt.2 hle)

/-- A subscription attempt is a new subscription, or changes none. -/
theorem subscribe_cases (h : w.Sound) (query : SubscriptionQuery) :
    (∃ hub boundary queue, Subscribed w.store query w.hub hub boundary queue ∧
      w.step (.subscribe query) = { w with hub }) ∨
    w.step (.subscribe query) = w ∨
    w.step (.subscribe query) = { w with hub := { w.hub with nextID := w.hub.nextID + 1 } } := by
  obtain ⟨hub, answer, heq, hcases⟩ :=
    @Hub.subscribe_cases w.store query w.hub h.contiguous h.capacity
  have hstep : w.step (.subscribe query) = { w with hub } := by rw [step, heq]
  rw [hstep]
  rcases hcases with ⟨boundary, queue, hsub⟩ | rfl | rfl
  · exact .inl ⟨hub, boundary, queue, hsub, rfl⟩
  · exact .inr (.inl rfl)
  · exact .inr (.inr rfl)

theorem subscribe_sound (h : w.Sound) (query : SubscriptionQuery) :
    (w.step (.subscribe query)).Sound := by
  rcases subscribe_cases h query with ⟨hub, boundary, queue, hsub, heq⟩ | heq | heq
  · rw [heq]
    exact subscribed_sound h hsub
  · rwa [heq]
  · rw [heq]
    exact { h with
      ids_le := fun sub hsub => Nat.le_succ_of_le (h.ids_le sub hsub)
      unread := fun id hid => h.unread id (Nat.lt_of_succ_lt hid) }

theorem subscribe_covered (h : w.Sound) (hcovered : w.Covered) (query : SubscriptionQuery) :
    (w.step (.subscribe query)).Covered := by
  rcases subscribe_cases h query with ⟨hub, boundary, queue, hsub, heq⟩ | heq | heq
  · rw [heq]
    exact subscribed_covered h hcovered hsub
  · rwa [heq]
  · rwa [heq]

/-! ### Publishing in order -/

theorem commit_covered (hcovered : w.Covered) (now : Timestamp) (input : NewSessionEvent) :
    (w.step (.commit now input)).Covered := by
  rw [step]
  split
  · intro sub hsub hopen commit hcommit hconcerns hlate
    rcases mem_append.1 hcommit with hcommit | hcommit
    · exact hcovered sub hsub hopen commit hcommit hconcerns hlate
    · -- the new event is not published yet
      rw [mem_singleton.1 hcommit] at hconcerns
      exact absurd hconcerns.published Bool.noConfusion
  · exact hcovered

variable {sessionID : SessionID} {sequence : UInt64}

theorem Sound.mem_or_eq_of_marked (h : w.Sound) (hcommit : commit ∈ w.commits)
    (hat : commit.isAt sessionID sequence = true) :
    ∀ marked ∈ w.commits.map (·.mark sessionID sequence),
      marked ∈ w.commits ∨ marked.event = commit.event := by
  intro marked hmarked
  obtain ⟨old, hold, rfl⟩ := mem_map.1 hmarked
  by_cases hold_at : old.isAt sessionID sequence = true
  · rw [Commit.isAt_iff] at hat hold_at
    have := h.commit_unique hold hcommit (hold_at.1.trans hat.1.symm)
      (hold_at.2.trans hat.2.symm)
    exact .inr ((Commit.mark_event ..).trans (congrArg Commit.event this))
  · rw [Commit.mark, if_neg hold_at]
    exact .inl hold

theorem publish_covered (h : w.Sound) (hcovered : w.Covered)
    (horder : (Action.publish sessionID sequence).InOrder w) :
    (w.publish sessionID sequence).Covered := by
  rcases h.publish_cases sessionID sequence with ⟨hsame, -⟩ |
    ⟨commit, hcommit, hat, hunpublished, ⟨hclosed, heq⟩ | ⟨hopen, heq⟩⟩
  · rwa [hsame]
  · rw [heq]
    intro sub hsub hopen
    exact absurd ((h.shut hclosed sub hsub).symm.trans hopen) Bool.noConfusion
  · rw [heq]
    intro sub hsub
    obtain ⟨old, hold, rfl⟩ := mem_map.1 hsub
    have hat' := Commit.isAt_iff.1 hat
    have hcovered' := SubscriptionCovered.publish (h.subscriptions old hold) (hcovered old hold)
      (h.mem_or_eq_of_marked hcommit hat) fun hmaterial hsession hscope hregistered hlate => by
        rw [hat'.2] at hlate ⊢
        exact horder commit hcommit hat hunpublished hmaterial old hold hregistered
          (hsession.symm.trans hat'.1) hscope hlate
    rwa [delivered, Subscription.publish_id]

theorem publish_not_covered (h : w.Sound) (horder : ¬(Action.publish sessionID sequence).InOrder w)
    :
    ¬(w.publish sessionID sequence).Covered := by
  simp only [Action.InOrder, not_forall] at horder
  obtain ⟨commit, hcommit, hat, hunpublished, hmaterial, sub, hsub, hregistered, hsession, hscope,
    hlate, hbehind⟩ := horder
  have hopen : sub.closed = false := by
    simpa [hregistered] using (h.subscriptions sub hsub).registered
  have hat' := Commit.isAt_iff.1 hat
  rcases h.publish_cases sessionID sequence with ⟨-, hpublished⟩ |
    ⟨found, hfound, hfound_at, -, ⟨hclosed, -⟩ | ⟨-, heq⟩⟩
  · exact absurd ((hpublished commit hcommit hat).symm.trans hunpublished) Bool.noConfusion
  · exact absurd ((h.shut hclosed sub hsub).symm.trans hopen) Bool.noConfusion
  · rw [Commit.isAt_iff] at hfound_at
    obtain rfl := h.commit_unique hcommit hfound (hat'.1.trans hfound_at.1.symm)
      (hat'.2.trans hfound_at.2.symm)
    rw [heq]
    intro hcovered
    -- the subscription passes the event by
    have hsame : (sub.publish commit.event).1 = sub := by
      rw [Subscription.publish, if_neg]
      rw [Subscription.accepts_iff, hat'.2]
      exact fun haccepts => hbehind haccepts.2.2.1
    have hmem : sub ∈ (w.hub.deliver commit.event).subscriptions :=
      mem_map.2 ⟨sub, hsub, hsame⟩
    have hdelivered := hcovered sub hmem hopen (commit.mark sessionID sequence)
      (mem_map_of_mem hcommit) ?_ ?_
    · -- but it was delivered nothing above its boundary that was not published
      rw [Commit.mark_event] at hdelivered
      rcases ((h.subscriptions sub hsub).origin _ hdelivered).2 with
        hle | ⟨other, hother, hpublished, hevent⟩
      · rw [hat'.2] at hle
        exact absurd hlate (UInt64.not_lt.2 hle)
      · rw [h.commit_unique hother hcommit (congrArg _ hevent) (congrArg _ hevent),
          hunpublished] at hpublished
        cases hpublished
    · refine ⟨by rw [Commit.mark, if_pos hat], ?_, ?_, ?_, ?_⟩ <;> rw [Commit.mark_event]
      · exact hmaterial
      · exact hat'.1.trans hsession.symm
      · exact hscope
      · rw [hat'.2]
        exact UInt64.lt_of_le_of_lt (h.subscriptions sub hsub).after_le hlate
    · rwa [Commit.mark_event, hat'.2]

/-! ### Runs -/

/-- **Every step keeps the invariant.** -/
theorem step_sound (h : w.Sound) (action : Action) : (w.step action).Sound := by
  cases action with
  | createSession id threadID => exact createSession_sound h id threadID
  | commit now input => exact commit_sound h now input
  | publish sessionID sequence => exact publish_sound h sessionID sequence
  | subscribe query => exact subscribe_sound h query
  | next id =>
    obtain ⟨f, hquiet⟩ := next_quiet h id
    exact hquiet.sound h
  | closeSubscription id reason =>
    obtain ⟨f, hquiet⟩ := closeSubscription_quiet w id reason
    exact hquiet.sound h
  | closeHub =>
    obtain ⟨f, hquiet⟩ := closeHub_quiet w
    exact hquiet.sound h

/-- A step that is in order loses nothing, and one that is not does. -/
theorem step_covered_iff (h : w.Sound) (hcovered : w.Covered) (action : Action) :
    (w.step action).Covered ↔ action.InOrder w := by
  cases action with
  | createSession id threadID => exact iff_of_true hcovered trivial
  | commit now input => exact iff_of_true (commit_covered hcovered now input) trivial
  | publish sessionID sequence =>
    exact ⟨fun hcovered' => by_contra fun horder => publish_not_covered h horder hcovered',
      publish_covered h hcovered⟩
  | subscribe query => exact iff_of_true (subscribe_covered h hcovered query) trivial
  | next id =>
    obtain ⟨f, hquiet⟩ := next_quiet h id
    exact iff_of_true (hquiet.covered hcovered) trivial
  | closeSubscription id reason =>
    obtain ⟨f, hquiet⟩ := closeSubscription_quiet w id reason
    exact iff_of_true (hquiet.covered hcovered) trivial
  | closeHub =>
    obtain ⟨f, hquiet⟩ := closeHub_quiet w
    exact iff_of_true (hquiet.covered hcovered) trivial

theorem newHub_sound {capacity : Int} (hhub : newHub capacity = .ok hub) :
    (initial hub).Sound ∧ (initial hub).Covered := by
  simp only [newHub, run_ok_iff, exists_const] at hhub
  obtain ⟨hbounds, rfl⟩ := hhub
  refine ⟨⟨empty_contiguous, rfl, ?_, ?_, ?_, ?_, ?_, ?_, ?_⟩, ?_⟩
  · simp [initial]
  · show 1 ≤ capacity.toNat
    omega
  · exact nodup_nil
  all_goals simp [initial, Covered]

end World

/-- **Silent loss.** From an empty journal and a new hub, whatever its capacity, and over any
interleaving of commits, publications, subscriptions and readings: no state has lost a material
event silently exactly when each publication is in order where it happens. -/
theorem silent_loss_free_iff {capacity : Int} {hub : Hub} (hhub : newHub capacity = .ok hub)
    (run : List Action) :
    (∀ k, ((World.initial hub).runAll (run.take k)).NoSilentLoss) ↔
      ∀ k (action : Action), run[k]? = some action →
        action.InOrder ((World.initial hub).runAll (run.take k)) := by
  obtain ⟨hsound, hcovered⟩ := World.newHub_sound hhub
  refine @forall_prefix_iff _ _ World.step World.Sound World.NoSilentLoss
    (fun action w => action.InOrder w) (fun w action h => World.step_sound h action) ?_ _ hsound
    (hsound.noSilentLoss_iff.2 hcovered) run
  intro w action h hloss
  rw [(World.step_sound h action).noSilentLoss_iff]
  exact World.step_covered_iff h (h.noSilentLoss_iff.1 hloss) action

/-- A reader joins an empty session, and two events are committed. -/
def sampleCommits : List Action :=
  [.createSession sampleSessionID sampleThreadID,
    .subscribe ⟨sampleSessionID, none, none, 0⟩,
    .commit ⟨1000, true⟩ sampleRename,
    .commit ⟨2000, true⟩ sampleRename]

/-- The events are published as they were committed, and read. -/
def orderlyRun : List Action :=
  sampleCommits ++
    [.publish sampleSessionID 1, .publish sampleSessionID 2, .next 1, .next 1]

/-- The second event overtakes the first. -/
def overtakingRun : List Action :=
  sampleCommits ++ [.publish sampleSessionID 2, .publish sampleSessionID 1, .next 1]

theorem silent_loss_free_sample :
    ((World.initial { capacity := 2 }).runAll (orderlyRun.take 8)).NoSilentLoss := by
  have horder : ∀ k : Fin orderlyRun.length, (orderlyRun.get k).InOrder
      ((World.initial { capacity := 2 }).runAll (orderlyRun.take k)) := by
    decide
  refine (@silent_loss_free_iff 2 _ rfl _).2 (fun k action haction => ?_) 8
  obtain ⟨hk, rfl⟩ := List.getElem?_eq_some_iff.1 haction
  exact horder ⟨k, hk⟩

/-- Both events were published, the reader of the open subscription was given the second one, and
the first one is neither queued nor will it come. -/
theorem overtaken_event_lost :
    let w := (World.initial { capacity := 2 }).runAll overtakingRun
    w.commits.map (fun commit => (commit.event.sequence, commit.published)) =
      [(1, true), (2, true)] ∧
    (w.returned 1).map (·.sequence) = [2] ∧
    w.hub.subscriptions.map (fun sub => (sub.id, sub.queue.length, sub.terminalError)) =
      [(1, 0, none)] ∧
    ¬w.NoSilentLoss := by
  decide

end Codeflux.Events
