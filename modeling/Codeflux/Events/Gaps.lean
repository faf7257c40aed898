import Codeflux.Events.Replay

/-!
# Replay of a history with gaps

The loop that fills a new subscription asks the journal for the events after its cursor, and moves
the cursor to the last of them at or below the boundary. A page that begins beyond the boundary
leaves the cursor where it is, so the next request is the same, under the lock of the hub.
-/

namespace Codeflux.Events

open Library List

/-- Every answer holds events after the cursor in ascending order, at most as many as asked for.
Sequences may be missing. -/
def Journal.Ascending (journal : Journal) : Prop :=
  ∀ {sessionID after limit page}, journal.replayCommitted sessionID after limit = .ok page →
    page.length ≤ limit ∧ (∀ event ∈ page, after < event.sequence) ∧
      page.Pairwise (·.sequence < ·.sequence)

section Loop

variable (journal : Journal) (capacity : Nat) (boundary : UInt64)

/-- **Replay ends.** It takes at most as many requests as there are sequences up to the boundary,
and fails if the journal has no event at the boundary. -/
structure ReplayEnds (cursor : UInt64) (sub : Subscription) : Prop where
  ends : (replay journal capacity boundary (boundary - cursor).toNat cursor sub).isSome
  gap : cursor < boundary →
    (∀ after limit page, journal.replayCommitted sub.query.sessionID after limit = .ok page →
      ∀ event ∈ page, event.sequence ≠ boundary) →
    ∃ failure, replay journal capacity boundary (boundary - cursor).toNat cursor sub =
      some (.error failure)

/-- The loop comes to a request whose answer begins beyond the boundary. -/
inductive Overshoots : UInt64 → Subscription → Prop
  | now {after sub event page} (hmore : after < boundary)
      (hpage : journal.replayCommitted sub.query.sessionID after
        (min capacity (boundary - after).toNat) = .ok (event :: page))
      (hbeyond : boundary < event.sequence) : Overshoots after sub
  | later {after after' sub sub' event page} (hmore : after < boundary)
      (hpage : journal.replayCommitted sub.query.sessionID after
        (min capacity (boundary - after).toNat) = .ok (event :: page))
      (hreplayed : replayPage boundary (event :: page) after sub = .ok (after', sub'))
      (hlater : Overshoots after' sub') : Overshoots after sub

end Loop

variable {journal : Journal} {capacity passes : Nat} {boundary after after' cursor : UInt64}
  {sub sub' : Subscription} {page : List SessionEvent}

/-- **What a page does to the cursor.** It moves to the last event before the first one beyond the
boundary. -/
theorem replayPage_cursor (h : replayPage boundary page after sub = .ok (after', sub')) :
    sub'.query = sub.query ∧
      after' = lastSequence after (page.takeWhile (·.sequence ≤ boundary)) := by
  fun_induction replayPage boundary page after sub with
  | case1 =>
    cases h
    exact ⟨rfl, rfl⟩
  | case2 _ _ _ _ hbeyond =>
    cases h
    rw [takeWhile_cons_of_neg (by simpa using hbeyond)]
    exact ⟨rfl, rfl⟩
  | case3 event rest _ sub hwithin _ offered _ hoffered ih =>
    have hquery : (sub.enqueueLocked event).1.query = sub.query := by
      unfold Subscription.enqueueLocked
      split <;> rfl
    rw [hoffered] at hquery
    rw [takeWhile_cons_of_pos (by simpa using hwithin), lastSequence_cons]
    exact ⟨(ih h).1.trans hquery, (ih h).2⟩
  | case4 => cases h
  | case5 _ _ _ _ hwithin _ ih =>
    rw [takeWhile_cons_of_pos (by simpa using hwithin), lastSequence_cons]
    exact ih h

theorem replayPage_advances {event : SessionEvent} (hwithin : ¬boundary < event.sequence)
    (h : replayPage boundary (event :: page) after sub = .ok (after', sub')) :
    after' ≤ boundary ∧ ∃ last ∈ event :: page, last.sequence = after' := by
  have hcursor := (replayPage_cursor h).2
  have hne : (event :: page).takeWhile (·.sequence ≤ boundary) ≠ [] := by
    simp [UInt64.not_lt.1 hwithin]
  rw [lastSequence, getLast?_eq_some_getLast hne] at hcursor
  have hlast := getLast_mem hne
  have hle := mem_takeWhile_imp hlast
  rw [decide_eq_true_eq] at hle
  exact ⟨hcursor ▸ hle, _, (List.takeWhile_prefix _).subset hlast, hcursor.symm⟩

/-- While the loop does not come to a page beyond the boundary, it ends in time. -/
theorem replay_isSome (hjournal : journal.Ascending)
    (hwithin : ¬Overshoots journal capacity boundary after sub)
    (hpasses : boundary.toNat - after.toNat ≤ passes) :
    (replay journal capacity boundary passes after sub).isSome := by
  fun_induction replay journal capacity boundary passes after sub with
  | case1 after sub hmore =>
    have := UInt64.lt_iff_toNat_lt.1 hmore
    omega
  | case6 passes after sub hmore event page hpage after' sub' hreplayed ih =>
    obtain ⟨-, last, hmem, rfl⟩ :=
      replayPage_advances (fun hbeyond => hwithin (.now hmore hpage hbeyond)) hreplayed
    have hmoved := UInt64.lt_iff_toNat_lt.1 ((hjournal hpage).2.1 last hmem)
    exact ih (fun hlater => hwithin (.later hmore hpage hreplayed hlater)) (by omega)
  | _ => rfl

theorem Overshoots.replay_eq_none (h : Overshoots journal capacity boundary after sub)
    (passes : Nat) : replay journal capacity boundary passes after sub = none := by
  induction h generalizing passes with
  | @now after sub event page hmore hpage hbeyond =>
    induction passes with
    | zero => rw [replay, if_pos hmore]
    | succ passes ih =>
      rw [replay, if_pos hmore, hpage]
      simp [replayPage, hbeyond, ih]
  | later hmore hpage hreplayed _ ih =>
    cases passes with
    | zero => rw [replay, if_pos hmore]
    | succ passes =>
      rw [replay, if_pos hmore, hpage]
      simp [hreplayed, ih]

theorem exists_boundary_of_replay (hmore : after < boundary)
    (h : replay journal capacity boundary passes after sub = some (.ok sub')) :
    ∃ after limit page, journal.replayCommitted sub.query.sessionID after limit = .ok page ∧
      ∃ event ∈ page, event.sequence = boundary := by
  fun_induction replay journal capacity boundary passes after sub with
  | case2 | case7 => contradiction
  | case6 passes after sub _ event page hpage after' sub' hreplayed ih =>
    obtain ⟨hquery, hcursor⟩ := replayPage_cursor hreplayed
    by_cases hleft : after' < boundary
    · exact hquery ▸ ih hleft h
    · by_cases hbeyond : boundary < event.sequence
      · rw [takeWhile_cons_of_neg (by simpa using hbeyond)] at hcursor
        exact absurd (hcursor ▸ hmore) hleft
      · obtain ⟨hle, last, hmem, hlast⟩ := replayPage_advances hbeyond hreplayed
        exact ⟨_, _, _, hpage, last, hmem,
          hlast.trans (UInt64.le_antisymm hle (UInt64.not_lt.1 hleft))⟩
  | _ => cases h

/-- **When replay ends.** For every journal whose answers ascend, every boundary, cursor and
capacity: the loop ends in time exactly when it does not come to a request that is answered by a
page that begins beyond the boundary. -/
theorem replay_ends_iff (hjournal : journal.Ascending) :
    ReplayEnds journal capacity boundary cursor sub ↔
      ¬Overshoots journal capacity boundary cursor sub := by
  constructor
  · intro h hbeyond
    have hends := h.ends
    rw [hbeyond.replay_eq_none] at hends
    cases hends
  · intro hwithin
    have hpasses : boundary.toNat - cursor.toNat ≤ (boundary - cursor).toNat := by
      by_cases hle : cursor ≤ boundary
      · exact (UInt64.toNat_sub_of_le _ _ hle).ge
      · have := UInt64.lt_iff_toNat_lt.1 (UInt64.not_le.1 hle)
        omega
    have hends := replay_isSome hjournal hwithin hpasses
    refine ⟨hends, fun hmore hgap => ?_⟩
    obtain ⟨failure | sub', houtcome⟩ := Option.isSome_iff_exists.1 hends
    · exact ⟨failure, houtcome⟩
    · obtain ⟨after, limit, page, hpage, event, hmem, hevent⟩ :=
        exists_boundary_of_replay hmore houtcome
      exact absurd hevent (hgap after limit page hpage event hmem)

/-- A session whose only event has sequence two. -/
def gapJournal : Journal where
  replayCommitted _ after limit :=
    .ok (if after < 2 ∧ 1 ≤ limit then [sampleRename.sequenced 2 ⟨1, true⟩] else [])
  committedSequence _ := .ok 1

/-- A subscription. -/
def sampleSubscription : Subscription where
  id := 1
  query := ⟨sampleSessionID, none, none, 0⟩
  liveBoundary := 1
  liveAfter := 1
  capacity := 4

theorem gapJournal_ascending : gapJournal.Ascending := by
  intro sessionID after limit page h
  cases h
  split_ifs with hanswer
  · exact ⟨hanswer.2, forall_mem_singleton.2 hanswer.1, pairwise_singleton _ _⟩
  · simp

theorem replay_ends_gapJournal :
    gapJournal.Ascending ∧ (ReplayEnds gapJournal 4 2 0 sampleSubscription ↔
      ¬Overshoots gapJournal 4 2 0 sampleSubscription) :=
  ⟨gapJournal_ascending, replay_ends_iff gapJournal_ascending⟩

/-- With the boundary in the gap before the event the loop never ends. -/
theorem replay_stuck_in_gap :
    gapJournal.Ascending ∧
      (∀ passes, replay gapJournal 4 1 passes 0 sampleSubscription = none) ∧
      ¬ReplayEnds gapJournal 4 1 0 sampleSubscription := by
  have hbeyond : Overshoots gapJournal 4 1 0 sampleSubscription := .now (by decide) rfl (by decide)
  refine ⟨gapJournal_ascending, hbeyond.replay_eq_none, fun h => ?_⟩
  cases hbeyond.replay_eq_none _ ▸ h.ends

end Codeflux.Events
