import Codeflux.Events.Replay

/-!
# The journal, the hub and its readers

A publisher commits an event and hands it to the hub afterwards, each event once; nothing orders the
publishers among themselves. Readers subscribe, take events and go away at any time.
-/

namespace Codeflux.Events

open Library Go Domain Storage List

/-- A committed event, and whether its publisher has handed it to the hub. -/
structure Commit where
  event : SessionEvent
  published : Bool
deriving DecidableEq

/-- Is this the event of a session with a sequence? -/
def Commit.isAt (sessionID : SessionID) (sequence : UInt64) (commit : Commit) : Bool :=
  commit.event.sessionID == sessionID && commit.event.sequence == sequence

/-- Mark the event of a session with a sequence as published. -/
def Commit.mark (sessionID : SessionID) (sequence : UInt64) (commit : Commit) : Commit :=
  if commit.isAt sessionID sequence then { commit with published := true } else commit

/-- The journal, the hub and what has happened so far. -/
structure World where
  store : SessionStore
  commits : List Commit
  hub : Hub
  returned : Nat → List SessionEvent

/-- A step of a publisher, a reader or the coordinator. -/
inductive Action
  | createSession (id : SessionID) (threadID : ThreadID)
  | commit (now : Timestamp) (input : NewSessionEvent)
  | publish (sessionID : SessionID) (sequence : UInt64)
  | subscribe (query : SubscriptionQuery)
  | next (id : Nat)
  | closeSubscription (id : Nat) (reason : Option Failure)
  | closeHub

variable (w : World)

namespace World

/-- An empty journal and a hub that nobody has joined. -/
def initial (hub : Hub) : World where
  store := .empty
  commits := []
  hub
  returned _ := []

/-- The publication of an event that was committed and not yet published. -/
def publish (sessionID : SessionID) (sequence : UInt64) : World :=
  match w.commits.find? fun commit => commit.isAt sessionID sequence && !commit.published with
  | none => w
  | some commit =>
    { w with
      commits := w.commits.map (·.mark sessionID sequence)
      hub := settled w.hub (w.hub.publishCommitted commit.event) }

/-- One reading of a subscription. -/
def next (id : Nat) : World :=
  match w.hub.next id with
  | (hub, some (.event event)) =>
    { w with hub, returned := Function.update w.returned id (w.returned id ++ [event]) }
  | (hub, _) => { w with hub }

/-- One step of the system. -/
def step : Action → World
  | .createSession id threadID =>
    { w with store := settled w.store (w.store.createSession id threadID) }
  | .commit now input =>
    match w.store.appendSessionEvent now input with
    | .ok (store, event) => { w with store, commits := w.commits ++ [⟨event, false⟩] }
    | .error _ => w
  | .publish sessionID sequence => w.publish sessionID sequence
  | .subscribe query =>
    match w.hub.subscribe w.store.journal (replayPasses w.store query) query with
    | some (hub, _) => { w with hub }
    | none => w
  | .next id => w.next id
  | .closeSubscription id reason => { w with hub := w.hub.closeSubscription id reason }
  | .closeHub => { w with hub := w.hub.close }

/-- The state after a list of steps. -/
def runAll (run : List Action) : World := run.foldl step w

end World

/-- The event itself, or as the journal replays it. -/
def Copies (d e : SessionEvent) : Prop := d = e ∨ d = journaled e

instance (d e : SessionEvent) : Decidable (Copies d e) := inferInstanceAs (Decidable (_ ∨ _))

/-- A published material event that concerns a subscription. -/
@[mk_iff] structure Commit.Concerns (commit : Commit) (sub : Subscription) : Prop where
  published : commit.published = true
  material : commit.event.deliveryClass = .material
  session : commit.event.sessionID = sub.query.sessionID
  scope : sub.matchesEvent commit.event = true
  later : sub.query.afterSequence < commit.event.sequence

instance (commit : Commit) (sub : Subscription) : Decidable (commit.Concerns sub) :=
  decidable_of_iff _ (Commit.concerns_iff ..).symm

namespace World

/-- The reader of a subscription has been given the event. -/
def Returned (sub : Subscription) (event : SessionEvent) : Prop :=
  ∃ d ∈ w.returned sub.id, Copies d event

instance (w : World) (sub : Subscription) (event : SessionEvent) :
    Decidable (w.Returned sub event) :=
  inferInstanceAs (Decidable (∃ d ∈ _, _))

/-- **Nothing is lost silently.** Every published material event that a subscription asked for has
been returned to its reader, or is still queued, or the subscription has ended with an error; and
no later event was returned before it, unless the subscription has ended. -/
def NoSilentLoss : Prop :=
  ∀ sub ∈ w.hub.subscriptions, ∀ commit ∈ w.commits, commit.Concerns sub →
    (w.Returned sub commit.event ∨ (∃ d ∈ sub.queue, Copies d commit.event) ∨
      sub.terminalError.isSome = true) ∧
    ((∃ d ∈ w.returned sub.id, commit.event.sequence < d.sequence) →
      w.Returned sub commit.event ∨ sub.terminalError.isSome = true)

instance (w : World) : Decidable w.NoSilentLoss :=
  inferInstanceAs (Decidable (∀ sub ∈ _, ∀ commit ∈ _, _))

end World

/-- A publication is in order when it is not behind an open subscription that it concerns and that
has not replayed it. All other steps are in order. -/
def Action.InOrder : Action → Prop
  | .publish sessionID sequence =>
    ∀ commit ∈ w.commits, commit.isAt sessionID sequence = true → commit.published = false →
      commit.event.deliveryClass = .material →
      ∀ sub ∈ w.hub.subscriptions, sub.registered = true → sub.query.sessionID = sessionID →
        sub.matchesEvent commit.event = true → sub.liveBoundary < sequence →
        sub.liveAfter < sequence
  | _ => True

instance (w : World) : (action : Action) → Decidable (action.InOrder w)
  | .publish _ _ => inferInstanceAs (Decidable (∀ commit ∈ _, _))
  | .createSession _ _ | .commit _ _ | .subscribe _ | .next _ | .closeSubscription _ _
  | .closeHub => inferInstanceAs (Decidable True)

/-! ### The invariant -/

/-- What holds of a subscription in every run. `delivered` is what its reader was given, followed by
its queue. -/
structure SubscriptionSound (store : SessionStore) (commits : List Commit)
    (delivered : List SessionEvent) (sub : Subscription) : Prop where
  registered : sub.registered = !sub.closed
  after_le : sub.query.afterSequence ≤ sub.liveBoundary
  boundary_le : sub.liveBoundary ≤ sub.liveAfter
  session : ∃ row ∈ store.sessions.rows, row.id = sub.query.sessionID ∧
    sub.liveBoundary ≤ row.currentSequence
  ascending : delivered.Pairwise (·.sequence < ·.sequence)
  below : ∀ d ∈ delivered, d.sequence ≤ sub.liveAfter
  /-- What is above the boundary was published. -/
  origin : ∀ d ∈ delivered, d.sessionID = sub.query.sessionID ∧
    (d.sequence ≤ sub.liveBoundary ∨ ∃ commit ∈ commits, commit.published = true ∧ commit.event = d)
  /-- What is up to the boundary was replayed. -/
  replayed : sub.closed = false → ∀ commit ∈ commits,
    commit.event.deliveryClass = .material → commit.event.sessionID = sub.query.sessionID →
    sub.matchesEvent commit.event = true → sub.query.afterSequence < commit.event.sequence →
    commit.event.sequence ≤ sub.liveBoundary → ∃ d ∈ delivered, Copies d commit.event

/-- The published material events above the boundary are all delivered to an open subscription. -/
def SubscriptionCovered (commits : List Commit) (delivered : List SessionEvent)
    (sub : Subscription) : Prop :=
  sub.closed = false → ∀ commit ∈ commits, commit.Concerns sub →
    sub.liveBoundary < commit.event.sequence → commit.event ∈ delivered

namespace World

/-- What the reader of a subscription was given, followed by what is still queued. -/
def delivered (sub : Subscription) : List SessionEvent :=
  w.returned sub.id ++ sub.queue

/-- What holds in every run. -/
structure Sound (w : World) : Prop where
  contiguous : w.store.Contiguous
  committed : w.commits.map (fun commit => journaled commit.event) = w.store.events.rows
  valid : ∀ commit ∈ w.commits, commit.event.Valid
  capacity : 1 ≤ w.hub.capacity
  ids : (w.hub.subscriptions.map (·.id)).Nodup
  ids_le : ∀ sub ∈ w.hub.subscriptions, sub.id ≤ w.hub.nextID
  unread : ∀ id, w.hub.nextID < id → w.returned id = []
  shut : w.hub.closed = true → ∀ sub ∈ w.hub.subscriptions, sub.closed = true
  subscriptions : ∀ sub ∈ w.hub.subscriptions,
    SubscriptionSound w.store w.commits (w.delivered sub) sub

/-- Every open subscription has the published material events above its boundary. -/
def Covered : Prop :=
  ∀ sub ∈ w.hub.subscriptions, SubscriptionCovered w.commits (w.delivered sub) sub

end World

section Events

variable {event : SessionEvent}

@[simp] theorem journaled_sequence : (journaled event).sequence = event.sequence := rfl

@[simp] theorem journaled_sessionID : (journaled event).sessionID = event.sessionID := rfl

variable {d : SessionEvent}

theorem Copies.sequence_eq (h : Copies d event) : d.sequence = event.sequence := by
  rcases h with rfl | rfl <;> rfl

theorem Copies.sessionID_eq (h : Copies d event) : d.sessionID = event.sessionID := by
  rcases h with rfl | rfl <;> rfl

theorem Copies.deliveryClass_eq (h : Copies d event) : d.deliveryClass = event.deliveryClass := by
  rcases h with rfl | rfl <;> rfl

end Events

namespace World

variable {w : World}

theorem Sound.commit_unique (h : w.Sound) {a b : Commit} (ha : a ∈ w.commits) (hb : b ∈ w.commits)
    (hsession : a.event.sessionID = b.event.sessionID)
    (hsequence : a.event.sequence = b.event.sequence) : a = b := by
  have hdistinct := w.store.events.distinct
  rw [← h.committed, pairwise_map] at hdistinct
  by_contra hne
  have hsymm : Std.Symm fun a b : Commit =>
      sessionEventSchema.conflict (journaled a.event) (journaled b.event) = false :=
    ⟨fun a b hab => by rw [sessionEventSchema.conflict_comm]; exact hab⟩
  have := hdistinct.forall ha hb hne
  simp [sessionEventSchema, hsession, hsequence] at this

variable {commit : Commit}

theorem Sound.journaled_mem (h : w.Sound) (hcommit : commit ∈ w.commits) :
    journaled commit.event ∈ w.store.events.rows := by
  rw [← h.committed]
  exact mem_map_of_mem hcommit

theorem Sound.sequence_le (h : w.Sound) (hcommit : commit ∈ w.commits) {row : SessionRow}
    (hrow : row ∈ w.store.sessions.rows) (hid : row.id = commit.event.sessionID) :
    commit.event.sequence ≤ row.currentSequence := by
  obtain ⟨hnumbered, hlength⟩ := h.contiguous.numbered_history hrow
  have hmem : journaled commit.event ∈ w.store.history row.id :=
    mem_filter.2 ⟨h.journaled_mem hcommit, by simp [hid]⟩
  have := (hnumbered.bounds hmem).2
  rw [journaled_sequence] at this
  exact UInt64.le_iff_toNat_le.2 (by omega)

theorem Sound.noSilentLoss_iff (h : w.Sound) : w.NoSilentLoss ↔ w.Covered := by
  constructor
  · intro hloss sub hsub hopen commit hcommit hconcerns hlate
    have hsound := h.subscriptions sub hsub
    obtain ⟨hdelivered, -⟩ := hloss sub hsub commit hcommit hconcerns
    have hnone := Subscription.terminalError_eq_none_iff.2 hopen
    have hcopy : ∃ d ∈ w.delivered sub, Copies d commit.event := by
      rcases hdelivered with ⟨d, hd, hcopy⟩ | ⟨d, hd, hcopy⟩ | hterminal
      · exact ⟨d, mem_append_left _ hd, hcopy⟩
      · exact ⟨d, mem_append_right _ hd, hcopy⟩
      · simp [hnone] at hterminal
    obtain ⟨d, hd, hcopy⟩ := hcopy
    -- above the boundary the copy is a published event, hence this one
    rcases (hsound.origin d hd).2 with hle | ⟨other, hother, -, rfl⟩
    · rw [hcopy.sequence_eq] at hle
      exact absurd hle (UInt64.not_le.2 hlate)
    · rwa [h.commit_unique hcommit hother hcopy.sessionID_eq.symm hcopy.sequence_eq.symm]
  · intro hcovered sub hsub commit hcommit hconcerns
    have hsound := h.subscriptions sub hsub
    by_cases hopen : sub.closed = false
    · have hcopy : ∃ d ∈ w.delivered sub, Copies d commit.event := by
        by_cases hlate : sub.liveBoundary < commit.event.sequence
        · exact ⟨_, hcovered sub hsub hopen commit hcommit hconcerns hlate, .inl rfl⟩
        · exact hsound.replayed hopen commit hcommit hconcerns.material hconcerns.session
            hconcerns.scope hconcerns.later (UInt64.not_lt.1 hlate)
      obtain ⟨d, hd, hcopy⟩ := hcopy
      rcases mem_append.1 hd with hd | hd
      · exact ⟨.inl ⟨d, hd, hcopy⟩, fun _ => .inl ⟨d, hd, hcopy⟩⟩
      · refine ⟨.inr (.inl ⟨d, hd, hcopy⟩), ?_⟩
        rintro ⟨later, hlater, hlt⟩
        -- what was returned comes before what is queued
        have hbefore := (pairwise_append.1 hsound.ascending).2.2 later hlater d hd
        rw [hcopy.sequence_eq] at hbefore
        exact absurd hbefore (UInt64.not_lt.2 (UInt64.le_of_lt hlt))
    · have hterminal : sub.terminalError.isSome = true := by
        rw [Option.isSome_iff_ne_none]
        exact fun hnone => hopen (Subscription.terminalError_eq_none_iff.1 hnone)
      exact ⟨.inr (.inr hterminal), fun _ => .inr hterminal⟩

end World

/-! ### One subscription -/

section Subscription

variable {store store' : SessionStore} {commits commits' : List Commit}
  {read : List SessionEvent} {sub : Subscription} {event : SessionEvent}

variable {delivered : List SessionEvent}

/-- A subscription is not affected by commits above its boundary, nor by publications of others. -/
theorem SubscriptionSound.of_commits (h : SubscriptionSound store commits delivered sub)
    (hsession : ∃ row ∈ store'.sessions.rows, row.id = sub.query.sessionID ∧
      sub.liveBoundary ≤ row.currentSequence)
    (hkept : ∀ commit ∈ commits, commit.published = true → commit ∈ commits')
    (hnew : ∀ commit ∈ commits', commit.event.sessionID = sub.query.sessionID →
      commit.event.sequence ≤ sub.liveBoundary → ∃ old ∈ commits, old.event = commit.event) :
    SubscriptionSound store' commits' delivered sub where
  __ := h
  session := hsession
  origin d hd := by
    obtain ⟨hid, horigin⟩ := h.origin d hd
    refine ⟨hid, horigin.imp_right ?_⟩
    rintro ⟨commit, hcommit, hpublished, rfl⟩
    exact ⟨commit, hkept commit hcommit hpublished, hpublished, rfl⟩
  replayed hopen commit hcommit hmaterial hid hscope hlater hboundary := by
    obtain ⟨old, hold, heq⟩ := hnew commit hcommit hid hboundary
    rw [← heq] at hmaterial hid hscope hlater hboundary ⊢
    exact h.replayed hopen old hold hmaterial hid hscope hlater hboundary

theorem SubscriptionSound.closed (h : SubscriptionSound store commits delivered sub)
    (closeErr : Option Failure) :
    SubscriptionSound store commits delivered
      { sub with closed := true, closeErr, registered := false } where
  __ := h
  registered := rfl
  replayed hopen := by cases hopen

theorem delivered_offer {d : SessionEvent} (hd : d ∈ read ++ sub.queue)
    (hmaterial : d.deliveryClass = .material)
    (hoffer : (eventPolicy.offer sub.capacity sub.queue event).2.1 = true) :
    d ∈ read ++ (eventPolicy.offer sub.capacity sub.queue event).1 := by
  rcases mem_append.1 hd with hd | hd
  · exact mem_append_left _ hd
  · exact mem_append_right _ (eventPolicy.mem_offer hoffer (mem_append_left _ hd)
      (SessionEvent.material_iff.1 hmaterial))

theorem SubscriptionSound.publish (h : SubscriptionSound store commits (read ++ sub.queue) sub)
    (hevent : ∃ commit ∈ commits, commit.published = true ∧ commit.event = event) :
    SubscriptionSound store commits (read ++ (sub.publish event).1.queue)
      (sub.publish event).1 := by
  have hopen : sub.registered = true → sub.closed = false := by
    rw [h.registered]
    simp
  rcases Subscription.publish_cases event hopen with ⟨-, heq⟩ |
    ⟨haccepts, hoffer, heq⟩ | ⟨-, -, heq⟩
  · rwa [heq]
  · rw [heq]
    obtain ⟨-, hid, hahead, -⟩ := Subscription.accepts_iff.1 haccepts
    have hsublist := (List.Sublist.refl read).append
      (eventPolicy.offer_sublist sub.capacity sub.queue event)
    rw [← append_assoc] at hsublist
    have hcases : ∀ d ∈ read ++ (eventPolicy.offer sub.capacity sub.queue event).1,
        d ∈ read ++ sub.queue ∨ d = event := fun d hd => by
      simpa [or_assoc] using hsublist.subset hd
    exact {
      registered := h.registered
      after_le := h.after_le
      boundary_le := UInt64.le_trans h.boundary_le (UInt64.le_of_lt hahead)
      session := h.session
      ascending := by
        refine List.Pairwise.sublist hsublist (pairwise_append.2 ⟨h.ascending,
          pairwise_singleton _ _, fun d hd e he => ?_⟩)
        rw [mem_singleton.1 he]
        exact UInt64.lt_of_le_of_lt (h.below d hd) hahead
      below := fun d hd => by
        rcases hcases d hd with hd | rfl
        · exact UInt64.le_trans (h.below d hd) (UInt64.le_of_lt hahead)
        · exact UInt64.le_refl _
      origin := fun d hd => by
        rcases hcases d hd with hd | rfl
        · exact h.origin d hd
        · exact ⟨hid.symm, .inr hevent⟩
      replayed := fun hclosed commit hcommit hmaterial hsession hscope hlater hboundary => by
        obtain ⟨d, hd, hcopy⟩ :=
          h.replayed hclosed commit hcommit hmaterial hsession hscope hlater hboundary
        exact ⟨d, delivered_offer hd (hcopy.deliveryClass_eq.trans hmaterial) hoffer, hcopy⟩ }
  · rw [heq]
    exact h.closed _

/-- An open subscription that the event is not behind takes it. -/
theorem SubscriptionCovered.publish (h : SubscriptionSound store commits (read ++ sub.queue) sub)
    (hcovered : SubscriptionCovered commits (read ++ sub.queue) sub)
    (hnew : ∀ commit ∈ commits', commit ∈ commits ∨ commit.event = event)
    (hahead : event.deliveryClass = .material → event.sessionID = sub.query.sessionID →
      sub.matchesEvent event = true → sub.registered = true → sub.liveBoundary < event.sequence →
      sub.liveAfter < event.sequence) :
    SubscriptionCovered commits' (read ++ (sub.publish event).1.queue) (sub.publish event).1 := by
  have hopen : sub.registered = true → sub.closed = false := by
    rw [h.registered]
    simp
  intro hopen' commit hcommit hconcerns hlate
  rcases Subscription.publish_cases event hopen with ⟨haccepts, heq⟩ |
    ⟨-, hoffer, heq⟩ | ⟨-, -, heq⟩
  · rw [heq] at hopen' hconcerns hlate ⊢
    rcases hnew commit hcommit with hold | rfl
    · exact hcovered hopen' commit hold hconcerns hlate
    · -- the publication would have been accepted
      have hregistered : sub.registered = true := by rw [h.registered, hopen']; rfl
      have haccepted := Subscription.accepts_iff.2 ⟨hregistered, hconcerns.session.symm,
        hahead hconcerns.material hconcerns.session hconcerns.scope hregistered hlate,
        hconcerns.scope⟩
      exact absurd (haccepts.symm.trans haccepted) Bool.noConfusion
  · rw [heq] at hopen' hconcerns hlate ⊢
    rcases hnew commit hcommit with hold | rfl
    · refine delivered_offer (hcovered hopen' commit hold ?_ hlate) hconcerns.material hoffer
      exact ⟨hconcerns.published, hconcerns.material, hconcerns.session, hconcerns.scope,
        hconcerns.later⟩
    · exact mem_append_right _ (eventPolicy.mem_offer hoffer mem_concat_self
        (SessionEvent.material_iff.1 hconcerns.material))
  · rw [heq] at hopen'
    cases hopen'

end Subscription

end Codeflux.Events
