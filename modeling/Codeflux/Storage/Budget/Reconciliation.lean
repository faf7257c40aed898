import Codeflux.Storage.Budget.Accounting
import Codeflux.Storage.Budget.HardCap

/-!
# Reconciling billed usage

A reservation whose usage was billed but not settled blocks every new reservation. The settlement
that repeats what the intent recorded changes no total: the pending charge becomes a posted one.
Once the reservation was released, it never succeeds.
-/

namespace Codeflux.Storage

open Library Go Domain Ledger List

variable {engine : Engine} {ledger settled : Ledger engine}

theorem normalizeActualCost_idem {actual : Option ExactMinorCost} {stored : Option StoredCost}
    (h : normalizeActualCost actual = .ok stored) :
    normalizeActualCost (stored.map (·.toExactMinorCost)) = .ok stored := by
  cases actual with
  | none =>
    cases h
    rfl
  | some cost =>
    simp only [normalizeActualCost, map_ok_iff] at h
    obtain ⟨normalized, hnormalized, rfl⟩ := h
    simp only [Option.map_some, normalizeActualCost, map_ok_iff]
    exact ⟨normalized, normalizeExactCost_idem hnormalized, rfl⟩

theorem normalizedActualProviderCallSlots_idem {row : ReservationRow} {requested slots : UInt32}
    (h : normalizedActualProviderCallSlots row requested = .ok slots) :
    normalizedActualProviderCallSlots row slots = .ok slots := by
  unfold normalizedActualProviderCallSlots at h ⊢
  by_cases hmodel : row.category ≠ .model
  · rw [if_pos hmodel] at h ⊢
    simp only [run_ok_iff] at h ⊢
    obtain ⟨_, _, rfl⟩ := h
    exact ⟨(), rfl, rfl⟩
  · rw [if_neg hmodel] at h ⊢
    split_ifs at h with hrequested
    · cases h
      split_ifs <;> rfl
    · cases h
      rw [if_neg hrequested]

/-! ### Pending intents, in any order -/

/-- The intents of a budget that no posting settles, in the order of the table. -/
def Ledger.unpostedIntents (ledger : Ledger engine) (budgetID : BudgetID) : List IntentRow :=
  ledger.intents.rows.filter fun row =>
    decide (row.budgetID = budgetID ∧ ledger.posted row.reservationID = false)

theorem Ledger.pendingIntents_perm_join (ledger : Ledger engine) (budgetID : BudgetID) :
    (ledger.pendingIntents budgetID).Perm
      (ledger.joinReservation (·.reservationID) (ledger.unpostedIntents budgetID)) :=
  (orderBy_perm _ _ _).filterMap _

/-- Of the unposted intents one is about a given pending reservation. -/
theorem Ledger.Linked.unpostedIntents_self (hl : ledger.Linked) {reservation : ReservationRow}
    {intent : IntentRow} (hmem : reservation ∈ ledger.reservations.rows)
    (hintent : intent ∈ ledger.intents.rows) (hid : intent.reservationID = reservation.id)
    (hposted : ledger.posted reservation.id = false) :
    ((ledger.unpostedIntents reservation.budgetID).filter fun row =>
      decide (row.reservationID = reservation.id)) = [intent] := by
  rw [← intents_eq_singleton hintent hid, Ledger.unpostedIntents, filter_filter]
  refine filter_congr fun row hrow => ?_
  by_cases hsame : row.reservationID = reservation.id
  · simp [hsame, hposted, hl.intent_budget hrow hmem hsame]
  · simp [hsame]

/-! ### The rows after a settlement -/

/-- The rows after a settlement: the reservation is committed and its usage posted. -/
structure SettledRows (ledger settled : Ledger engine) (reservation : ReservationRow)
    (posting : PostingRow) (json : String) (micros : Int) : Prop where
  reservations : settled.reservations.rows =
    ledger.reservations.rows.map (closeRow reservation .committed "usage committed" json micros)
  postings : settled.postings.rows = ledger.postings.rows ++ [posting]
  rest : settled =
    { ledger with reservations := settled.reservations, postings := settled.postings }

/-- A posting charges what an intent of the same reservation billed. -/
structure Repeats (posting : PostingRow) (intent : IntentRow) (reservation : ReservationRow) :
    Prop where
  reservationID : posting.reservationID = reservation.id
  budgetID : posting.budgetID = reservation.budgetID
  charge : ∀ row, SameTerms reservation row →
    postedCharge (posting, row) = pendingCharge (intent, reservation)

namespace SettledRows

variable {reservation : ReservationRow} {posting : PostingRow} {json : String} {micros : Int}
  {intent : IntentRow} {budgetID : BudgetID}
  (hs : SettledRows ledger settled reservation posting json micros)

include hs

theorem intents_eq : settled.intents = ledger.intents := by
  rw [hs.rest]

theorem findReservation (id : String) : settled.findReservation id =
    (ledger.findReservation id).map
      (closeRow reservation .committed "usage committed" json micros) := by
  simp only [Ledger.findReservation, hs.reservations, find?_map]
  congr 2
  funext row
  simp

section

variable (hrepeats : Repeats posting intent reservation)

include hrepeats

theorem posted (id : String) :
    settled.posted id = (ledger.posted id || decide (reservation.id = id)) := by
  simp [Ledger.posted, hs.postings, hrepeats.reservationID]

theorem pending {id : String}
    (hid : id ≠ reservation.id) : settled.pending id = ledger.pending id := by
  unfold Ledger.pending Ledger.hasIntent
  rw [hs.posted hrepeats, hs.intents_eq, decide_eq_false hid.symm, Bool.or_false]

/-- The reservation was pending before and is committed now, so no active row changes. -/
theorem activeReservations (hmem : reservation ∈ ledger.reservations.rows)
    (hactive : reservation.state = .active) (hpending : ledger.pending reservation.id = true) :
    settled.activeReservations budgetID = ledger.activeReservations budgetID := by
  unfold Ledger.activeReservations
  congr 1
  rw [hs.reservations, filter_map]
  have hfilter : (ledger.reservations.rows.filter ((fun row : ReservationRow =>
        decide (row.budgetID = budgetID ∧ row.state = .active ∧ settled.pending row.id = false)) ∘
          closeRow reservation .committed "usage committed" json micros)) =
      ledger.reservations.rows.filter fun row => decide (row.budgetID = budgetID ∧
        row.state = .active ∧ ledger.pending row.id = false) := by
    refine filter_congr fun row hr => ?_
    by_cases hid : row.id = reservation.id
    · obtain rfl := ledger.reservation_eq hr hmem hid
      simp [closeRow_self hactive, hpending]
    · simp [closeRow_of_ne hid, hs.pending hrepeats hid]
  rw [hfilter]
  refine (map_congr_left fun row hr => ?_).trans (map_id _)
  refine closeRow_of_ne fun hid => ?_
  have hrow := (mem_filter.1 hr).2
  rw [hid, hpending] at hrow
  simp at hrow

theorem unpostedIntents :
    settled.unpostedIntents budgetID =
      (ledger.unpostedIntents budgetID).filter fun row =>
        !decide (row.reservationID = reservation.id) := by
  unfold Ledger.unpostedIntents
  rw [hs.intents_eq, filter_filter]
  refine filter_congr fun row _ => ?_
  rw [hs.posted hrepeats]
  by_cases hrow : row.reservationID = reservation.id
  · simp [hrow]
  · simp [hrow, Ne.symm hrow]

end

theorem joinReservation {α : Type} {reservationID : α → String} {rows : List α}
    (hrows : ∀ row ∈ rows, reservationID row ≠ reservation.id) :
    settled.joinReservation reservationID rows = ledger.joinReservation reservationID rows := by
  refine filterMap_congr fun row hrow => ?_
  rw [hs.findReservation]
  cases hfind : ledger.findReservation (reservationID row) with
  | none => rfl
  | some found =>
    have hne := hrows row hrow
    rw [← (findReservation_id hfind).2] at hne
    rw [Option.map_some, closeRow_of_ne hne]

section

variable (hrepeats : Repeats posting intent reservation)

include hrepeats

variable (hl : ledger.Linked) (hmem : reservation ∈ ledger.reservations.rows)

include hl hmem

theorem usagePostings_perm :
    (settled.usagePostings reservation.budgetID).Perm
      (ledger.usagePostings reservation.budgetID ++ [(posting,
        closeRow reservation .committed "usage committed" json micros reservation)]) := by
  have hrows : (settled.postings.rows.filter fun row =>
      decide (row.budgetID = reservation.budgetID)) =
      (ledger.postings.rows.filter fun row => decide (row.budgetID = reservation.budgetID)) ++
        [posting] := by
    rw [hs.postings, filter_append]
    simp [hrepeats.budgetID]
  unfold Ledger.usagePostings
  rw [hrows]
  refine ((orderBy_perm _ _ _).filterMap _).trans ?_
  rw [filterMap_append]
  refine List.Perm.append (List.Perm.trans (List.Perm.of_eq ?_)
    ((orderBy_perm _ _ _).symm.filterMap _)) (List.Perm.of_eq ?_)
  · refine filterMap_congr fun row hrow => ?_
    obtain ⟨found, hfound, hid, _, _, hcommitted⟩ :=
      hl.posting_reservation row (mem_filter.1 hrow).1
    simp [hs.findReservation, ← hid, findReservation_iff.2 ⟨hfound, rfl⟩,
      closeRow_of_committed hcommitted]
  · simp [hs.findReservation, hrepeats.reservationID, findReservation_iff.2 ⟨hmem, rfl⟩]

variable (hintent : intent ∈ ledger.intents.rows) (hid : intent.reservationID = reservation.id)
  (hposted : ledger.posted reservation.id = false)

include hintent hid hposted

theorem pendingIntents_perm :
    (settled.pendingIntents reservation.budgetID ++ [(intent, reservation)]).Perm
      (ledger.pendingIntents reservation.budgetID) := by
  have hafter : (settled.pendingIntents reservation.budgetID).Perm
      (ledger.joinReservation (·.reservationID)
        ((ledger.unpostedIntents reservation.budgetID).filter fun row =>
          !decide (row.reservationID = reservation.id))) := by
    rw [← hs.joinReservation fun row hrow => by simpa using (mem_filter.1 hrow).2,
      ← hs.unpostedIntents hrepeats]
    exact settled.pendingIntents_perm_join _
  have hjoin : ledger.joinReservation (·.reservationID) [intent] = [(intent, reservation)] := by
    simp [Ledger.joinReservation, hid, findReservation_iff.2 ⟨hmem, rfl⟩]
  refine (hafter.append_right _).trans
    (List.Perm.trans ?_ (ledger.pendingIntents_perm_join _).symm)
  rw [← hjoin, ← hl.unpostedIntents_self hmem hintent hid hposted]
  unfold Ledger.joinReservation
  rw [← filterMap_append]
  exact (perm_append_comm.trans (filter_append_perm _ _)).filterMap _

/-- **A settlement that repeats an intent changes no total.** The charge that was pending is posted,
and the order of the charges does not matter. -/
theorem categoryView (hactive : reservation.state = .active) {budget : BudgetRow}
    (hbudget : budget.id = reservation.budgetID) (category : BudgetCostCategory) :
    settled.categoryView budget category = ledger.categoryView budget category := by
  have hpending : ledger.pending reservation.id = true := by
    simp [Ledger.pending, hposted, hasIntent_iff.2 ⟨intent, hintent, hid⟩]
  have hcharges : (settled.charges reservation.budgetID).Perm
      (ledger.charges reservation.budgetID) := by
    have hpendings := (hs.pendingIntents_perm hrepeats hl hmem hintent hid hposted).map
      pendingCharge
    have hpostings := (hs.usagePostings_perm hrepeats hl hmem).map postedCharge
    rw [map_append, map_singleton] at hpendings hpostings
    rw [hrepeats.charge _ sameTerms_closeRow] at hpostings
    refine (hpostings.append_left _).trans (List.Perm.trans ?_ (hpendings.append_right _))
    rw [append_assoc]
    exact perm_append_comm.append_left _
  unfold Ledger.categoryView Ledger.chargesIn Ledger.activeIn
  rw [hbudget, hs.activeReservations hrepeats hmem hactive hpending]
  exact (hcharges.filter _).foldl_eq _

end

end SettledRows

/-- Totals without the flag of pending reconciliation. -/
def BudgetTotals.amounts (totals : BudgetTotals) : BudgetTotals :=
  { totals with reconciliationPending := false }

theorem addExactCosts_congr {left right right' : StoredCost}
    (hamount : exactCostRat right = exactCostRat right')
    (hcurrency : right.currency = right'.currency) :
    addExactCosts left right = addExactCosts left right' := by
  unfold addExactCosts
  rw [hamount, hcurrency]

variable {totals sums : BudgetTotals} {currency : CurrencyCode}

theorem addCategory_congr {totals' : BudgetTotals} {a a' : BudgetCategorySnapshot}
    (hview : a.view = a'.view) (ha : a.InCurrency currency) (ha' : a'.InCurrency currency)
    (ht : totals.amounts = totals'.amounts) (h : addCategory totals a = .ok sums) :
    ∃ sums', addCategory totals' a' = .ok sums' ∧ sums.amounts = sums'.amounts := by
  simp only [BudgetCategorySnapshot.view, CategoryView.mk.injEq] at hview
  obtain ⟨_, hslots, hreserved, hcharged, hknown, hcost, hrtokens, hctokens, hatokens,
    htokens⟩ := hview
  simp only [BudgetTotals.amounts, BudgetTotals.mk.injEq] at ht
  obtain ⟨tslots, treserved, tcharged, tknown, tcost, ttokens, _, trtokens, tctokens,
    tatokens⟩ := ht
  simp only [addCategory, run_ok_iff] at h ⊢
  obtain ⟨_, hwrap, reserved, hr, charged, hc, known, hk, _, hwraps, rfl⟩ := h
  rw [addExactCosts_congr hreserved (ha.reserved.trans ha'.reserved.symm), treserved] at hr
  rw [addExactCosts_congr hcharged (ha.charged.trans ha'.charged.symm), tcharged] at hc
  rw [addExactCosts_congr hknown (ha.known.trans ha'.known.symm), tknown] at hk
  rw [hslots, tslots] at hwrap
  rw [hrtokens, hctokens, hatokens, trtokens, tctokens, tatokens] at hwraps
  refine ⟨_, ⟨(), hwrap, reserved, hr, charged, hc, known, hk, (), hwraps, rfl⟩, ?_⟩
  simp [BudgetTotals.amounts, hslots, tslots, tcost, hcost, ttokens, htokens, trtokens, hrtokens,
    tctokens, hctokens, tatokens, hatokens]

theorem foldlM_addCategory_congr {categories other : CategorySnapshots}
    (hview : ∀ c, (categories.get c).view = (other.get c).view)
    (hcategories : ∀ c, (categories.get c).InCurrency currency)
    (hother : ∀ c, (other.get c).InCurrency currency)
    (h : categories.toList.foldlM addCategory totals = .ok sums) :
    ∃ sums', other.toList.foldlM addCategory totals = .ok sums' ∧
      sums.amounts = sums'.amounts := by
  simp only [CategorySnapshots.toList, foldlM_cons, foldlM_nil, run_ok_iff] at h ⊢
  obtain ⟨a, ha, b, hb, c, hc, rfl⟩ := h
  obtain ⟨a', ha', hsame⟩ :=
    addCategory_congr (hview .model) (hcategories .model) (hother .model) rfl ha
  obtain ⟨b', hb', hsame⟩ :=
    addCategory_congr (hview .tool) (hcategories .tool) (hother .tool) hsame hb
  obtain ⟨c', hc', hsame⟩ := addCategory_congr (hview .infrastructure)
    (hcategories .infrastructure) (hother .infrastructure) hsame hc
  exact ⟨c', ⟨a', ha', b', hb', c', hc', rfl⟩, hsame⟩

variable {budgetID : BudgetID}

/-- When no total changes and the sums fit, the snapshot can be computed and stored again, and only
what depends on the pending intents changes. -/
theorem computeBudgetSnapshot_of_views {current : BudgetSnapshot}
    {budget : BudgetRow} (hcompute : computeBudgetSnapshot ledger budgetID = .ok current)
    (hbudget : ledger.findBudget budgetID = some budget)
    (hbudgets : settled.budgets = ledger.budgets) (hlimits : settled.limits = ledger.limits)
    (hviews : ∀ c, settled.categoryView budget c = ledger.categoryView budget c)
    (hsums : ∀ c, settled.SumsFit budget c) :
    ∃ pending reached categories, let snapshot := { current with
        reconciliationPending := pending, hardCapReached := reached, categories }
      computeBudgetSnapshot settled budgetID = .ok snapshot ∧
        (ColumnsFit current → ColumnsFit snapshot) := by
  have hfind : settled.findBudget budgetID = ledger.findBudget budgetID := by
    rw [Ledger.findBudget, hbudgets, ← Ledger.findBudget]
  have hlimit : settled.latestLimit budgetID = ledger.latestLimit budgetID := by
    unfold Ledger.latestLimit Ledger.limitsOf
    rw [hlimits]
  unfold computeBudgetSnapshot at hcompute ⊢
  rw [hfind, hlimit]
  rw [hbudget] at hcompute ⊢
  cases hcurrent : ledger.latestLimit budgetID with
  | none =>
    rw [hcurrent] at hcompute
    cases hcompute
  | some limit =>
    rw [hcurrent] at hcompute
    simp only [run_ok_iff] at hcompute ⊢
    obtain ⟨categories, hload, totals, htotals, exposure, hexposure, rfl⟩ := hcompute
    obtain ⟨other, hother⟩ : ∃ categories,
        loadBudgetCategorySnapshots settled budget limit.currency = .ok categories :=
      loadBudgetCategorySnapshots_succeeds_iff.2 hsums
    have hc := fun c => loadCategory_ok (loadBudgetCategorySnapshots_ok_iff_category.1 hload c)
    have ho := fun c => loadCategory_ok (loadBudgetCategorySnapshots_ok_iff_category.1 hother c)
    have hview : ∀ c, (categories.get c).view = (other.get c).view := fun c => by
      rw [(hc c).1, (ho c).1, hviews]
    obtain ⟨totals', htotals', hsame⟩ := foldlM_addCategory_congr hview (fun c => (hc c).2)
      (fun c => (ho c).2) htotals
    have htotals'' : totals' = { totals with
        reconciliationPending := totals'.reconciliationPending } := by
      cases totals
      cases totals'
      simpa [BudgetTotals.amounts, eq_comm] using hsame
    rw [htotals''] at htotals'
    refine ⟨_, _, other, ⟨other, hother, _, htotals', exposure, hexposure, rfl⟩, ?_⟩
    have hcount := fun c => congrArg CategoryView.count (hview c)
    have hmodel : categories.model.reservationCount = other.model.reservationCount :=
      hcount .model
    have htool : categories.tool.reservationCount = other.tool.reservationCount := hcount .tool
    have hinfra : categories.infrastructure.reservationCount =
        other.infrastructure.reservationCount := hcount .infrastructure
    intro hfit micros hmicros
    have hcheck := hfit micros hmicros
    simp only [snapshotSchema, snapshotRow, snapshotOf] at hcheck ⊢
    rwa [← hmodel, ← htool, ← hinfra]

/-! ### Announcing boundaries -/

section Announcing

variable {snapshot : BudgetSnapshot} {micros : Int} {kind other : BudgetEventKind}

/-- A boundary was announced for the limits of a snapshot, or its event can be stored. -/
def Announceable (ledger : Ledger engine) (snapshot : BudgetSnapshot) (micros : Int)
    (kind : BudgetEventKind) : Prop :=
  (∃ row ∈ ledger.events.rows, row.budgetID = snapshot.budgetID ∧
    row.limitRevision = snapshot.limitRevision ∧ row.kind = kind) ∨
  ledger.events.Admits {
    budgetID := snapshot.budgetID
    taskID := snapshot.taskID
    limitRevision := snapshot.limitRevision
    kind
    idempotencyKey := boundaryKey snapshot.limitRevision kind
    createdAt := micros }

theorem BudgetEventKind.text_injective : Function.Injective BudgetEventKind.text := by
  intro a b
  cases a <;> cases b <;> decide

theorem boundaryKey_injective (limitRevision : Nat) :
    Function.Injective (boundaryKey limitRevision) := by
  intro a b h
  exact BudgetEventKind.text_injective ((String.append_right_inj _).1 h)

variable {ledger' : Ledger engine}

theorem insertBudgetEvent_rows
    (h : insertBudgetEvent ledger snapshot kind (boundaryKey snapshot.limitRevision kind) micros =
      .ok ledger') :
    ledger' = ledger ∨ ledger'.events.rows = ledger.events.rows ++ [{
      budgetID := snapshot.budgetID
      taskID := snapshot.taskID
      limitRevision := snapshot.limitRevision
      kind
      idempotencyKey := boundaryKey snapshot.limitRevision kind
      createdAt := micros }] := by
  unfold insertBudgetEvent at h
  split_ifs at h
  · cases h
    exact .inl rfl
  · simp only [run_ok_iff, repositoryWriteError_ok_iff] at h
    obtain ⟨events, hinsert, rfl⟩ := h
    exact .inr (Table.insert_ok_iff.1 hinsert).2

theorem insertBudgetEvent_succeeds_iff :
    (∃ ledger', insertBudgetEvent ledger snapshot kind (boundaryKey snapshot.limitRevision kind)
      micros = .ok ledger') ↔ Announceable ledger snapshot micros kind := by
  unfold insertBudgetEvent Announceable
  split_ifs with hannounced
  · simp [hannounced]
  · simp only [run_ok_iff, repositoryWriteError_ok_iff, hannounced, false_or]
    constructor
    · rintro ⟨_, events, hinsert, _⟩
      exact (Table.insert_ok_iff.1 hinsert).1
    · intro hadmits
      obtain ⟨events, hinsert, _⟩ := Table.insert_of_admits hadmits
      exact ⟨_, events, hinsert, rfl⟩

/-- The announcement of one boundary does not affect the others. -/
theorem announceable_insert (hne : kind ≠ other)
    (h : insertBudgetEvent ledger snapshot kind (boundaryKey snapshot.limitRevision kind) micros =
      .ok ledger') :
    Announceable ledger' snapshot micros other ↔ Announceable ledger snapshot micros other := by
  have hkeys : boundaryKey snapshot.limitRevision kind ≠ boundaryKey snapshot.limitRevision other :=
    fun hkey => hne (boundaryKey_injective _ hkey)
  rcases insertBudgetEvent_rows h with rfl | hrows
  · rfl
  · unfold Announceable Table.Admits
    simp [hrows, or_imp, forall_and, hne, hkeys, eventSchema]

/-- A run of announcements succeeds exactly when each of them can be made. -/
theorem foldlM_insertBudgetEvent_succeeds_iff {kinds : List BudgetEventKind}
    (hnodup : kinds.Nodup) :
    (∃ ledger', kinds.foldlM (fun ledger kind => insertBudgetEvent ledger snapshot kind
      (boundaryKey snapshot.limitRevision kind) micros) ledger = .ok ledger') ↔
      ∀ kind ∈ kinds, Announceable ledger snapshot micros kind := by
  induction kinds generalizing ledger with
  | nil => simp [pure, Except.pure]
  | cons kind kinds ih =>
    obtain ⟨hnew, hrest⟩ := nodup_cons.1 hnodup
    rw [forall_mem_cons]
    refine bind_succeeds_iff insertBudgetEvent_succeeds_iff fun mid hmid => ?_
    rw [ih hrest]
    refine forall₂_congr fun next hnext => announceable_insert (fun heq => ?_) hmid
    exact hnew (heq ▸ hnext)

theorem reachedBoundaries_nodup (snapshot : BudgetSnapshot) (exposure : StoredCost) :
    (reachedBoundaries snapshot exposure).Nodup := by
  refine List.Nodup.filterMap ?_ (by simp)
  rintro ⟨flag, a⟩ ⟨flag', a'⟩ b
  cases flag <;> cases flag' <;> simp +contextual

theorem persistBudgetBoundaryEvents_succeeds_iff {exposure : StoredCost}
    (hexposure : addExactCosts snapshot.reservedCost snapshot.chargedCost = .ok exposure) :
    (∃ ledger', persistBudgetBoundaryEvents ledger snapshot micros = .ok ledger') ↔
      ∀ kind ∈ reachedBoundaries snapshot exposure, Announceable ledger snapshot micros kind := by
  rw [← foldlM_insertBudgetEvent_succeeds_iff (reachedBoundaries_nodup snapshot exposure)]
  simp [persistBudgetBoundaryEvents, hexposure]

end Announcing

/-! ### The writes of a settlement -/

section Writes

variable {reservation : ReservationRow} {budget : BudgetRow} {input : SettleProviderBudget}
  {intent : IntentRow} {micros : Int}

/-- An active reservation can be closed at any time since it was made. -/
theorem closeReservation_succeeds {json : String}
    (hmem : reservation ∈ ledger.reservations.rows) (hactive : reservation.state = .active)
    (hclock : reservation.createdAt ≤ micros) (hjson : engine.jsonColumn json = true) :
    ∃ reservations : Table (reservationSchema engine),
      (∀ operation changed,
        closeReservation ledger reservation .committed "usage committed" json micros operation
          changed = .ok { ledger with reservations }) ∧
      reservations.rows = ledger.reservations.rows.map
        (closeRow reservation .committed "usage committed" json micros) := by
  have hcheck : ∀ row ∈ ledger.reservations.rows, (reservationSchema engine).check
      (closeRow reservation .committed "usage committed" json micros row) = true := by
    intro row hr
    have hold := ledger.reservations.checked row hr
    by_cases hid : row.id = reservation.id
    · obtain rfl := ledger.reservation_eq hr hmem hid
      have hreason : lengthBetween 1 2048 "usage committed" = true := by decide
      simp only [reservationSchema, Bool.and_eq_true] at hold
      obtain ⟨⟨⟨⟨⟨⟨h, _⟩, _⟩, hcreated⟩, _⟩, hslots⟩, _⟩ := hold
      simp [closeRow, hactive, reservationSchema, h, hreason, hjson, hcreated, hclock, hslots]
    · rwa [closeRow_of_ne hid]
  have hkeys : ∀ a b, (reservationSchema engine).conflict
      (closeRow reservation .committed "usage committed" json micros a)
      (closeRow reservation .committed "usage committed" json micros b) =
        (reservationSchema engine).conflict a b := by
    intro a b
    unfold closeRow
    split_ifs <;> rfl
  obtain ⟨reservations, hupdate, hrows⟩ := Table.update_of_keys hcheck hkeys
  refine ⟨reservations, fun operation changed => ?_, hrows⟩
  have hfound : ∃ row ∈ ledger.reservations.rows, row.id = reservation.id ∧
      row.state = .active ∧ row.revision = reservation.revision :=
    ⟨reservation, hmem, rfl, hactive, rfl⟩
  simp only [closeReservation, hupdate, repositoryWriteError, ensure_of hfound, ok_bind]
  rfl

/-- Once an active reservation was closed, the clock has not gone back behind its creation. -/
theorem createdAt_le_of_closed {reservations : Table (reservationSchema engine)} {json : String}
    (hmem : reservation ∈ ledger.reservations.rows) (hactive : reservation.state = .active)
    (hrows : reservations.rows = ledger.reservations.rows.map
      (closeRow reservation .committed "usage committed" json micros)) :
    reservation.createdAt ≤ micros := by
  have hclosed := reservations.checked
    (closeRow reservation .committed "usage committed" json micros reservation)
    (by rw [hrows]; exact mem_map_of_mem hmem)
  simp only [closeRow, hactive, and_self, if_true, reservationSchema, Bool.and_eq_true,
    Option.all_some, decide_eq_true_eq] at hclosed
  exact hclosed.1.1.2

/-- The revision of a budget can be advanced at any time since it was created. -/
theorem advanceBudgetRevision_succeeds (hbudget : ledger.findBudget budget.id = some budget)
    (hclock : budget.createdAt ≤ micros) :
    ∃ budgets : Table budgetSchema,
      advanceBudgetRevision ledger budget.id budget.revision micros =
        .ok { ledger with budgets } ∧
      budgets.rows =
        ledger.budgets.rows.map (advanceRow budget.id budget.revision micros) := by
  have hmem := (findBudget_id hbudget).1
  have hcheck : ∀ row ∈ ledger.budgets.rows,
      budgetSchema.check (advanceRow budget.id budget.revision micros row) = true := by
    intro row hr
    have hold := ledger.budgets.checked row hr
    by_cases hid : row.id = budget.id
    · obtain rfl : budget = row :=
        Option.some.inj (hbudget.symm.trans (findBudget_iff.2 ⟨hr, hid⟩))
      simp only [budgetSchema, Bool.and_eq_true] at hold
      obtain ⟨⟨h, _⟩, hlegacy⟩ := hold
      simp [advanceRow, budgetSchema, h, hclock, hlegacy]
    · rwa [advanceRow_of_ne hid]
  have hkeys : ∀ a b, budgetSchema.conflict (advanceRow budget.id budget.revision micros a)
      (advanceRow budget.id budget.revision micros b) = budgetSchema.conflict a b := by
    intro a b
    unfold advanceRow
    split_ifs <;> rfl
  obtain ⟨budgets, hupdate, hrows⟩ := Table.update_of_keys hcheck hkeys
  refine ⟨budgets, ?_, hrows⟩
  have hfound : ∃ row ∈ ledger.budgets.rows, row.id = budget.id ∧ row.revision = budget.revision :=
    ⟨budget, hmem, rfl, rfl⟩
  simp only [advanceBudgetRevision, hupdate, repositoryWriteError, ensure_of hfound, ok_bind]
  rfl

end Writes

/-! ### Settling what an intent recorded -/

/-- A settlement that repeats what an intent recorded, under an identity that no posting uses. -/
@[mk_iff] structure FreshSettlement (ledger : Ledger engine) (input : SettleProviderBudget)
    (intent : IntentRow) (reservation : ReservationRow) : Prop where
  reservationID : input.reservationID = reservation.id
  actualCost : input.actualCost = intent.actualCost.map (·.toExactMinorCost)
  actualTokens : input.actualTokens = intent.actualTokens
  slots : input.actualProviderCallSlots = intent.actualProviderCallSlots
  valid : validateSettleProviderBudget engine input = .ok ()
  columns : lengthBetween 1 255 input.id = true ∧ lengthBetween 1 255 input.idempotencyKey = true ∧
    engine.jsonColumn input.provenanceJSON = true
  fresh : ∀ posting ∈ ledger.postings.rows, posting.id ≠ input.id ∧
    (posting.budgetID = reservation.budgetID → posting.idempotencyKey ≠ input.idempotencyKey)

instance (ledger : Ledger engine) (input : SettleProviderBudget) (intent : IntentRow)
    (reservation : ReservationRow) :
    Decidable (FreshSettlement ledger input intent reservation) :=
  decidable_of_iff _ (freshSettlement_iff ..).symm

/-- The posting that repeats an intent. -/
def repeatedPosting (input : SettleProviderBudget) (intent : IntentRow)
    (reservation : ReservationRow) (micros : Int) : PostingRow :=
  postingRow input reservation intent.actualCost intent.actualProviderCallSlots micros

/-- The snapshot of a budget with one intent less pending. -/
def Ledger.withoutIntent (ledger : Ledger engine) (snapshot : BudgetSnapshot) : BudgetSnapshot :=
  { snapshot with
    reconciliationPending := decide (1 < (ledger.pendingIntents snapshot.budgetID).length) }

/-- When the settlement of a billed reservation succeeds: the reservation is still active, the clock
has not gone back behind it, every partial sum of the settled rows fits its columns, and each
boundary that the snapshot reaches without the intent was announced for its limits or can be. -/
structure Settleable (ledger : Ledger engine) (input : SettleProviderBudget) (intent : IntentRow)
    (reservation : ReservationRow) (micros : Int) : Prop where
  active : reservation.state = .active
  clock : reservation.createdAt ≤ micros
  accountable : ∃ settled budget, ledger.findBudget reservation.budgetID = some budget ∧
    SettledRows ledger settled reservation (repeatedPosting input intent reservation micros)
      input.provenanceJSON micros ∧
    ∀ c, settled.SumsFit budget c
  announced : ∀ snapshot exposure,
    computeBudgetSnapshot ledger reservation.budgetID = .ok snapshot →
    addExactCosts snapshot.reservedCost snapshot.chargedCost = .ok exposure →
    ∀ kind ∈ reachedBoundaries (ledger.withoutIntent snapshot) exposure,
      Announceable ledger snapshot micros kind

section Settling

variable {reservation : ReservationRow} {budget : BudgetRow} {input : SettleProviderBudget}
  {intent : IntentRow} {micros : Int}

section

variable (hf : FreshSettlement ledger input intent reservation)

include hf

theorem FreshSettlement.repeats :
    Repeats (repeatedPosting input intent reservation micros) intent reservation := by
  refine ⟨rfl, rfl, fun row hsame => ?_⟩
  have hslots : row.providerCallSlots = reservation.providerCallSlots := by rw [hsame]
  simp [postedCharge, pendingCharge, repeatedPosting, postingRow, hslots, hf.actualTokens,
    pendingCost]

theorem FreshSettlement.not_posted :
    findBudgetPostingByIdentity ledger reservation.budgetID input.id input.idempotencyKey =
      none := by
  simp only [findBudgetPostingByIdentity, findByIdentity, Option.orElse_eq_or,
    Option.or_eq_none_iff, find?_eq_none, mem_filter, decide_eq_true_eq]
  exact ⟨fun posting hp => (hf.fresh posting hp.1).1,
    fun posting hp => (hf.fresh posting hp.1).2 hp.2⟩

theorem FreshSettlement.admits (hmem : reservation ∈ ledger.reservations.rows)
    (hintent : intent ∈ ledger.intents.rows) (hbilled : BilledUsage intent reservation)
    (hposted : ledger.posted reservation.id = false) (hclock : reservation.createdAt ≤ micros) :
    ledger.postings.Admits (repeatedPosting input intent reservation micros) := by
  have hr := ledger.reservations.checked reservation hmem
  have hi := ledger.intents.checked intent hintent
  simp only [reservationSchema, Bool.and_eq_true, decide_eq_true_eq] at hr
  simp only [intentSchema, Bool.and_eq_true] at hi
  obtain ⟨⟨⟨⟨⟨⟨⟨⟨⟨⟨_, hcurrency⟩, hbound⟩, _⟩, _⟩, _⟩, _⟩, hcreated⟩, _⟩, _⟩, _⟩ := hr
  obtain ⟨⟨⟨⟨⟨_, htokens⟩, _⟩, _⟩, _⟩, _⟩ := hi
  obtain ⟨hid, hkey, hjson⟩ := hf.columns
  constructor
  · have hcost : currencyColumn (intent.actualCost.getD reservation.costBound).currency = true := by
      have := hbilled.currency
      cases hcost : intent.actualCost with
      | none => exact hcurrency
      | some cost =>
        rw [hcost, Option.all_some, decide_eq_true_eq] at this
        rwa [Option.getD_some, this]
    have hcharged : (intent.actualTokens.orElse fun _ => reservation.tokenBound).all fitsColumn =
        true := by
      cases hactual : intent.actualTokens with
      | none => exact hbound
      | some tokens =>
        rwa [hactual] at htokens
    simp only [repeatedPosting, postingRow, postingSchema, Bool.and_eq_true, decide_eq_true_eq,
      hf.actualTokens]
    exact ⟨⟨⟨⟨⟨⟨hid, hcost⟩, htokens⟩, hcharged⟩, hkey⟩, hjson⟩, hcreated.trans hclock⟩
  · intro posting hp
    obtain ⟨hne, hnekey⟩ := hf.fresh posting hp
    have hres : posting.reservationID ≠ reservation.id := by
      intro heq
      rw [posted_iff.2 ⟨posting, hp, heq⟩] at hposted
      cases hposted
    simp only [postingSchema, repeatedPosting, postingRow, Bool.or_eq_false_iff,
      beq_eq_false_iff_ne, Bool.and_eq_false_iff]
    refine ⟨⟨hne, hres⟩, ?_⟩
    by_cases hb : posting.budgetID = reservation.budgetID
    · exact .inr (hnekey hb)
    · exact .inl hb

end

variable {snapshot : BudgetSnapshot}

/-- The snapshot of the settled rows can be stored under the advanced revision. -/
theorem Ledger.Accounted.admits_snapshot (ha : ledger.Accounted)
    (hbudget : ledger.findBudget budget.id = some budget) (hopened : budget.createdAt ≤ micros)
    (hfit : ColumnsFit snapshot) (hid : snapshot.budgetID = budget.id) :
    ledger.snapshots.Admits (snapshotRow
      { snapshot with revision := budget.revision + 1, createdAt := micros }) := by
  have hmem := (findBudget_id hbudget).1
  have hcreated : 0 ≤ budget.createdAt := by
    have := ledger.budgets.checked budget hmem
    simp only [budgetSchema, Bool.and_eq_true, decide_eq_true_eq] at this
    exact this.1.1.2
  refine ⟨hfit micros (hcreated.trans hopened), fun stored hs => ?_⟩
  obtain ⟨other, hother, howner, hle⟩ := ha.revisions stored hs
  simp only [snapshotSchema, snapshotRow, Bool.and_eq_false_iff, beq_eq_false_iff_ne, hid]
  by_cases hown : stored.budgetID = budget.id
  · right
    obtain rfl : budget = other := Option.some.inj
      (hbudget.symm.trans (findBudget_iff.2 ⟨hother, howner.trans hown⟩))
    omega
  · exact .inl hown

/-- The settlement of a reservation that is still active, step by step. -/
theorem settleProviderBudget_fresh (hf : FreshSettlement ledger input intent reservation)
    (hmem : reservation ∈ ledger.reservations.rows) (hbilled : BilledUsage intent reservation) :
    settleProviderBudget ledger input micros = (do
      ensure (reservation.state = .active)
        (.typed errConflict "settle provider budget" (.new "reservation is not active"))
      let current ← computeBudgetSnapshot ledger reservation.budgetID
      let ledger ← closeReservation ledger reservation .committed "usage committed"
        input.provenanceJSON micros "settle provider budget reservation"
        (.typed errConflict "settle provider budget"
          (.new "reservation changed during settlement"))
      let postings ← repositoryWriteError "settle provider budget" <|
        ledger.postings.insert (repeatedPosting input intent reservation micros)
      let ledger := { ledger with postings }
      let ledger ← advanceBudgetRevision ledger reservation.budgetID current.revision micros
      let (ledger, snapshot) ← persistCurrent ledger reservation.budgetID micros
      let ledger ← persistBudgetBoundaryEvents ledger snapshot micros
      return (ledger, snapshot)) := by
  obtain ⟨actual, hactual⟩ := hbilled.normalized
  obtain ⟨requested, hrequested⟩ := hbilled.slots
  have hget : getBudgetReservation ledger reservation.id = .ok reservation := by
    rw [getBudgetReservation, findReservation_iff.2 ⟨hmem, rfl⟩]
  unfold settleProviderBudget
  simp only [hf.valid, hf.actualCost, normalizeActualCost_idem hactual, hf.reservationID, hget,
    hf.not_posted, hf.slots, normalizedActualProviderCallSlots_idem hrequested,
    ensure_of hbilled.currency, ok_bind]
  rfl

variable {ledger' : Ledger engine}

theorem persistCurrent_events
    (h : persistCurrent ledger budgetID micros = .ok (ledger', snapshot)) :
    ledger'.events = ledger.events := by
  simp only [persistCurrent, run_ok_iff, Prod.mk.injEq] at h
  obtain ⟨_, _, l, hpersist, rfl, _⟩ := h
  obtain ⟨_, _, _, rfl⟩ := persistBudgetSnapshot_ok hpersist
  rfl

theorem persistCurrent_succeeds (hcompute : computeBudgetSnapshot ledger budgetID = .ok snapshot)
    (hadmits : ledger.snapshots.Admits (snapshotRow { snapshot with createdAt := micros })) :
    ∃ ledger', persistCurrent ledger budgetID micros =
        .ok (ledger', { snapshot with createdAt := micros }) ∧ ledger'.events = ledger.events := by
  obtain ⟨snapshots, hinsert, _⟩ := Table.insert_of_admits hadmits
  refine ⟨{ ledger with snapshots }, ?_, rfl⟩
  simp only [persistCurrent, hcompute, persistBudgetSnapshot, hinsert, repositoryWriteError,
    ok_bind]
  rfl

theorem announceable_congr (h : ledger'.events = ledger.events) {kind : BudgetEventKind} :
    Announceable ledger' snapshot micros kind ↔ Announceable ledger snapshot micros kind := by
  unfold Announceable
  rw [h]

section

variable (ha : ledger.Accounted) (hmem : reservation ∈ ledger.reservations.rows)
  (hintent : intent ∈ ledger.intents.rows) (hid : intent.reservationID = reservation.id)
  (hf : FreshSettlement ledger input intent reservation)

include ha hmem hintent hid hf

/-- The snapshot of the settled rows has the totals of the one before, and an intent less. -/
theorem SettledRows.computes {current : BudgetSnapshot}
    (hrows : SettledRows ledger settled reservation
      (repeatedPosting input intent reservation micros) input.provenanceJSON micros)
    (hposted : ledger.posted reservation.id = false) (hactive : reservation.state = .active)
    (hcurrent : computeBudgetSnapshot ledger reservation.budgetID = .ok current)
    (hbudget : ledger.findBudget reservation.budgetID = some budget)
    (hsums : ∀ c, settled.SumsFit budget c) :
    ∃ reached categories, let snapshot := { ledger.withoutIntent current with
        hardCapReached := reached, categories }
      computeBudgetSnapshot settled reservation.budgetID = .ok snapshot ∧
        (ColumnsFit current → ColumnsFit snapshot) := by
  obtain ⟨hbmem, hbid⟩ := findBudget_id hbudget
  have hbudgets : settled.budgets = ledger.budgets := by rw [hrows.rest]
  have hfind : settled.findBudget reservation.budgetID = some budget := by
    rwa [Ledger.findBudget, hbudgets]
  obtain ⟨pending, reached, categories, hsnapshot, hfit⟩ := computeBudgetSnapshot_of_views hcurrent
    hbudget hbudgets (by rw [hrows.rest])
    (hrows.categoryView hf.repeats ha.linked hmem hintent hid hposted hactive hbid) hsums
  obtain ⟨_, hd⟩ := computeBudgetSnapshot_describes hsnapshot hfind
  obtain ⟨_, hd₀⟩ := computeBudgetSnapshot_describes hcurrent hbudget
  -- one of the pending intents is no longer pending
  have hlength :=
    (hrows.pendingIntents_perm hf.repeats ha.linked hmem hintent hid hposted).length_eq
  rw [length_append, length_singleton] at hlength
  have hpending : pending = decide (1 < (ledger.pendingIntents current.budgetID).length) := by
    refine hd.pending.trans ?_
    rw [hd₀.budgetID, hbid, ← hlength]
    cases settled.pendingIntents reservation.budgetID <;> simp
  subst hpending
  exact ⟨reached, categories, hsnapshot, hfit⟩

/-- A settlement that succeeded found its reservation settleable. -/
theorem Settleable.of_settled (hposted : ledger.posted reservation.id = false)
    (h : settleProviderBudget ledger input micros = .ok (ledger', snapshot)) :
    Settleable ledger input intent reservation micros ∧ ledger'.pending reservation.id = false := by
  have hbilled := ha.billed intent hintent reservation hmem hid
  simp only [settleProviderBudget_fresh hf hmem hbilled, run_ok_iff, repositoryWriteError_ok_iff,
    Prod.mk.injEq] at h
  obtain ⟨_, hactive, current, hcurrent, l₁, hclose, postings, hinsert, l₂, hadvance, ⟨l₃, s⟩,
    hpersist, l₄, hevents, rfl, rfl⟩ := h
  obtain ⟨budget, limit, hd⟩ := computeBudgetSnapshot_ok hcurrent
  obtain ⟨reservations, hreservations, rfl⟩ := closeReservation_ok hclose
  obtain ⟨_, hpostings⟩ := Table.insert_ok_iff.1 hinsert
  obtain ⟨budgets, hbudgets, rfl⟩ := advanceBudgetRevision_ok hadvance
  have hp := persistCurrent_ok hpersist
  have hstored := persistCurrent_events hpersist
  have hsettled : Ledger.findBudget
      { ledger with reservations, postings }
      reservation.budgetID = some budget := hd.findBudget
  obtain ⟨advanced, hcompute, rfl⟩ := hp.computed
  rw [computeBudgetSnapshot_advance hsettled hd.revision.symm hbudgets, map_ok_iff] at hcompute
  obtain ⟨snapshot, hsnapshot, rfl⟩ := hcompute
  have hrows : SettledRows ledger
      { ledger with reservations, postings } reservation
      (repeatedPosting input intent reservation micros) input.provenanceJSON micros :=
    ⟨hreservations, hpostings, rfl⟩
  obtain ⟨_, hd'⟩ := computeBudgetSnapshot_describes hsnapshot hsettled
  refine ⟨⟨hactive, createdAt_le_of_closed hmem hactive hreservations, ⟨_, budget, hd.findBudget,
    hrows, hd'.sums⟩, ?_⟩, ?_⟩
  · intro other exposure hother hexposure kind hkind
    obtain rfl : other = current := Except.ok.inj (hother.symm.trans hcurrent)
    obtain ⟨reached, categories, hagain, -⟩ := hrows.computes ha hmem hintent hid hf hposted
      hactive hcurrent hd.findBudget hd'.sums
    obtain rfl := Except.ok.inj (hagain.symm.trans hsnapshot)
    have hall := fun (h : _ = Except.ok exposure) =>
      (persistBudgetBoundaryEvents_succeeds_iff h).1 ⟨_, hevents⟩
    exact (announceable_congr hstored).1 (hall hexposure kind hkind)
  · obtain ⟨events, rfl⟩ := persistBudgetBoundaryEvents_ok hevents
    have hposting : repeatedPosting input intent reservation micros ∈ l₃.postings.rows := by
      rw [hp.rest]
      simp [hpostings]
    have hnow : l₃.posted reservation.id = true := posted_iff.2 ⟨_, hposting, rfl⟩
    change (_ && !l₃.posted reservation.id) = false
    rw [hnow, Bool.not_true, Bool.and_false]

theorem Settleable.succeeds (hposted : ledger.posted reservation.id = false)
    (hs : Settleable ledger input intent reservation micros) :
    ∃ ledger' snapshot, settleProviderBudget ledger input micros = .ok (ledger', snapshot) := by
  obtain ⟨hactive, hclock, ⟨settled, budget, hbudget, hrows, hsums⟩, hannounce⟩ := hs
  have hbilled := ha.billed intent hintent reservation hmem hid
  obtain ⟨hbmem, hbid⟩ := findBudget_id hbudget
  have hopened := (ha.opened reservation hmem budget hbmem hbid).trans hclock
  obtain ⟨current, hcurrent, hfit⟩ := ha.computed reservation hmem
  obtain ⟨_, hd⟩ := computeBudgetSnapshot_describes hcurrent hbudget
  -- the closed reservation and the new posting are the settled rows
  obtain ⟨reservations, hclose, hreservations⟩ := closeReservation_succeeds hmem hactive hclock
    hf.columns.2.2
  obtain ⟨postings, hinsert, hpostings⟩ :=
    Table.insert_of_admits (hf.admits hmem hintent hbilled hposted hclock)
  have hsettled : { ledger with reservations, postings } =
      settled := by
    rw [hrows.rest, Table.ext (hrows.reservations.trans hreservations.symm),
      Table.ext (hrows.postings.trans hpostings.symm)]
  have hbudgets : settled.budgets = ledger.budgets := by rw [hrows.rest]
  have hsnapshots : settled.snapshots = ledger.snapshots := by rw [hrows.rest]
  have hevents : settled.events = ledger.events := by rw [hrows.rest]
  have hfind : settled.findBudget reservation.budgetID = some budget := by
    rwa [Ledger.findBudget, hbudgets]
  -- their snapshot has the totals of the current one, and is stored under the next revision
  obtain ⟨reached, categories, hsnapshot, hfit'⟩ :=
    hrows.computes ha hmem hintent hid hf hposted hactive hcurrent hbudget hsums
  obtain ⟨_, hd'⟩ := computeBudgetSnapshot_describes hsnapshot hfind
  obtain ⟨exposure, hexposure⟩ := hd'.exposure
  obtain ⟨budgets, hadvance, hadvanced⟩ := advanceBudgetRevision_succeeds
    (findBudget_iff.2 ⟨hbudgets ▸ hbmem, rfl⟩) hopened
  rw [hbid] at hadvance hadvanced
  have hcompute := computeBudgetSnapshot_advance hfind rfl hadvanced
  rw [hsnapshot] at hcompute
  have hadmits := ha.admits_snapshot (findBudget_iff.2 ⟨hbmem, rfl⟩) hopened (hfit' hfit)
    hd'.budgetID
  rw [← hsnapshots] at hadmits
  obtain ⟨stored, hstored, hkept⟩ := persistCurrent_succeeds hcompute hadmits
  obtain ⟨announced, hannounced⟩ := (persistBudgetBoundaryEvents_succeeds_iff hexposure).2
    fun kind hkind => (announceable_congr (hkept.trans hevents)).2
      (hannounce current exposure hcurrent hexposure kind hkind)
  rw [settleProviderBudget_fresh hf hmem hbilled]
  simp only [ensure_of hactive, hcurrent, hclose, hinsert, repositoryWriteError, hsettled,
    hd.revision, hadvance, hstored, ok_bind]
  exact ⟨announced, _, bind_ok_iff.2 ⟨announced, hannounced, rfl⟩⟩

end

/-- **A billed reservation can be reconciled exactly while it is settleable.** In every state
reached by transactions on provider reservations, a settlement that repeats the recorded usage of a
pending reservation succeeds, and clears its pending status, exactly when `Settleable` holds. -/
theorem settle_reconciles_iff
    (hreach : LedgerReachable engine (fun _ operation => operation.IsProvider) ledger)
    (hmem : reservation ∈ ledger.reservations.rows) (hintent : intent ∈ ledger.intents.rows)
    (hid : intent.reservationID = reservation.id) (hposted : ledger.posted reservation.id = false)
    (hf : FreshSettlement ledger input intent reservation) :
    (∃ ledger' snapshot, settleProviderBudget ledger input micros = .ok (ledger', snapshot) ∧
      ledger'.pending reservation.id = false) ↔
    Settleable ledger input intent reservation micros := by
  have ha := hreach.accounted
  constructor
  · rintro ⟨ledger', snapshot, hok, _⟩
    exact (Settleable.of_settled ha hmem hintent hid hf hposted hok).1
  · intro hs
    obtain ⟨ledger', snapshot, hok⟩ := hs.succeeds ha hmem hintent hid hf hposted
    exact ⟨ledger', snapshot, hok, (Settleable.of_settled ha hmem hintent hid hf hposted hok).2⟩

end Settling

/-- The billed usage. -/
def sampleIntent : RecordBudgetReconciliationIntent where
  id := "intent-1"
  reservationID := "reservation-1"
  actualCost := some ⟨121, 4, "USD"⟩
  actualTokens := some 200
  actualProviderCallSlots := 1
  reasonRedacted := "settlement failed"
  idempotencyKey := "intent-1"
  provenanceJSON := "\x7b\x7d"

/-- The release of the reservation. -/
def sampleRelease : ReleaseProviderBudget where
  reservationID := "reservation-1"
  expectedRevision := 2
  reasonRedacted := "cancelled"
  provenanceJSON := "\x7b\x7d"

/-- One call is reserved, and its usage billed. -/
def billedRun : List (Operation × Int) :=
  [(.create sampleCreate, 1), (.reserve sampleReserve, 2), (.intent sampleIntent, 3)]

/-- The state after the call was billed. -/
def billedLedger : Ledger sampleEngine :=
  runAll (Ledger.empty sampleEngine) billedRun

/-- The state after the billed reservation was released. -/
def releasedLedger : Ledger sampleEngine :=
  runAll (Ledger.empty sampleEngine) (billedRun ++ [(.release sampleRelease, 4)])

/-- The billed reservation is settled with the recorded usage while it is active. -/
theorem settle_reconciles_sample :
    ∃ intent reservation, Settleable billedLedger sampleSettle intent reservation 4 := by
  have hallowed : AllowedRun (fun _ operation => operation.IsProvider)
      (Ledger.empty sampleEngine) billedRun := by decide
  have hreach : LedgerReachable sampleEngine (fun _ operation => operation.IsProvider)
      billedLedger := LedgerReachable.runAll (.init rfl) hallowed
  obtain ⟨reservation, hmem, intent, hintent, hid, hposted, hf⟩ :
      ∃ reservation ∈ billedLedger.reservations.rows,
        ∃ intent ∈ billedLedger.intents.rows, intent.reservationID = reservation.id ∧
          billedLedger.posted reservation.id = false ∧
          FreshSettlement billedLedger sampleSettle intent reservation := by
    decide +kernel
  have hsettled : ((fun result : Ledger sampleEngine × BudgetSnapshot =>
      result.1.pending "reservation-1") <$>
      settleProviderBudget billedLedger sampleSettle 4) = .ok false := by
    decide +kernel
  obtain ⟨⟨ledger', snapshot⟩, hok, hclear⟩ := map_ok_iff.1 hsettled
  refine ⟨intent, reservation, (settle_reconciles_iff hreach hmem hintent hid hposted hf).1
    ⟨ledger', snapshot, hok, ?_⟩⟩
  rwa [← hf.reservationID]

/-- **A released reservation stays billed.** Nothing stops the release of a reservation whose usage
was billed; afterwards the settlement of the recorded usage is refused, and its status stays
pending. -/
theorem released_reservation_not_reconciled :
    AllowedRun (fun _ operation => operation.IsProvider) (Ledger.empty sampleEngine)
      (billedRun ++ [(.release sampleRelease, 4)]) ∧
    ∃ reservation ∈ releasedLedger.reservations.rows, ∃ intent ∈ releasedLedger.intents.rows,
        intent.reservationID = reservation.id ∧
        releasedLedger.pending reservation.id = true ∧
        FreshSettlement releasedLedger sampleSettle intent reservation ∧
        ((fun _ => ()) <$> settleProviderBudget releasedLedger sampleSettle 5) =
          .error (.typed errConflict "settle provider budget"
            (.new "reservation is not active")) := by
  decide +kernel

end Codeflux.Storage
