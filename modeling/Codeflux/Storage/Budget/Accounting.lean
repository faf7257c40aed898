import Codeflux.Storage.Budget.Frame

/-!
# What the ledger can always account for

In every reachable state a budget with a reservation has a snapshot that fits its columns, its next
revision is unused, and each intent still fits the reservation it bills. The transactions share one
description, `Touched`, and the invariants are derived from it.
-/

namespace Codeflux.Storage

open Library Go Domain List

variable {engine : Engine} {ledger ledger' mid : Ledger engine} {budgetID : BudgetID}
  {micros : Int} {snapshot : BudgetSnapshot}

/-- The transactions on provider reservations, and the creation of a budget. -/
def Operation.IsProvider : Operation → Prop
  | .legacyReserve _ => False
  | .legacyPost _ => False
  | _ => True

instance : DecidablePred Operation.IsProvider
  | .legacyReserve _ | .legacyPost _ => instDecidableFalse
  | .create _ | .reserve _ | .settle _ | .release _ | .intent _ | .raise .. => instDecidableTrue

/-- A snapshot fits the columns it is stored in. -/
def ColumnsFit (snapshot : BudgetSnapshot) : Prop :=
  ∀ micros, 0 ≤ micros →
    snapshotSchema.check (snapshotRow { snapshot with createdAt := micros }) = true

/-- The terms of a reservation that its closing leaves alone. -/
def SameTerms (row row' : ReservationRow) : Prop :=
  row' = { row with
    state := row'.state
    settlement := row'.settlement
    settlementProvenanceJSON := row'.settlementProvenanceJSON
    settledAt := row'.settledAt
    revision := row'.revision }

/-- The usage an intent bills was normalised for its reservation. -/
structure BilledUsage (intent : IntentRow) (row : ReservationRow) : Prop where
  normalized : ∃ actual, normalizeActualCost actual = .ok intent.actualCost
  currency : intent.actualCost.all (·.currency = row.costBound.currency) = true
  slots : ∃ requested,
    normalizedActualProviderCallSlots row requested = .ok intent.actualProviderCallSlots

/-- The invariants of accounting. -/
structure Ledger.Accounted (ledger : Ledger engine) : Prop where
  linked : ledger.Linked
  computed : ∀ row ∈ ledger.reservations.rows, ∃ snapshot,
    computeBudgetSnapshot ledger row.budgetID = .ok snapshot ∧ ColumnsFit snapshot
  revisions : ∀ stored ∈ ledger.snapshots.rows, ∃ budget ∈ ledger.budgets.rows,
    budget.id = stored.budgetID ∧ stored.revision ≤ budget.revision
  opened : ∀ row ∈ ledger.reservations.rows, ∀ budget ∈ ledger.budgets.rows,
    budget.id = row.budgetID → budget.createdAt ≤ row.createdAt
  billed : ∀ intent ∈ ledger.intents.rows, ∀ row ∈ ledger.reservations.rows,
    intent.reservationID = row.id → BilledUsage intent row

/-- What a transaction on one budget does: `mid` is the state before the snapshot is stored. -/
structure Touched (ledger mid ledger' : Ledger engine) (budgetID : BudgetID) (micros : Int)
    (snapshot : BudgetSnapshot) : Prop where
  persisted : Persisted mid ledger' budgetID micros snapshot
  budgets : ∃ expected,
    mid.budgets.rows = ledger.budgets.rows.map (advanceRow budgetID expected micros)
  snapshots : mid.snapshots = ledger.snapshots
  others : ∀ other, budgetID ≠ other → SameBudget ledger mid other
  reservations : ∀ row' ∈ mid.reservations.rows,
    (∃ row ∈ ledger.reservations.rows, SameTerms row row') ∨
      row'.budgetID = budgetID ∧ ledger.hasIntent row'.id = false ∧
        ∀ budget ∈ mid.budgets.rows, budget.id = budgetID → budget.createdAt ≤ row'.createdAt
  intents : ∀ intent ∈ mid.intents.rows, intent ∈ ledger.intents.rows ∨
    mid.reservations = ledger.reservations ∧
      ∃ row ∈ ledger.reservations.rows, intent.reservationID = row.id ∧ BilledUsage intent row

theorem SameTerms.refl (row : ReservationRow) : SameTerms row row := rfl

variable {reservation row row' : ReservationRow} {state : BudgetReservationState}
  {reason json : String} {expected : Nat}

theorem sameTerms_closeRow : SameTerms row (closeRow reservation state reason json micros row) := by
  unfold closeRow
  split_ifs <;> rfl

theorem SameTerms.billedUsage {intent : IntentRow} (h : SameTerms row row')
    (hb : BilledUsage intent row) : BilledUsage intent row' := by
  obtain ⟨hnormalized, hcurrency, hslots⟩ := hb
  rw [h]
  exact ⟨hnormalized, hcurrency, hslots⟩

/-! ### The transactions -/

theorem mem_map_closeRow {rows : List ReservationRow}
    (hrows : rows = ledger.reservations.rows.map (closeRow reservation state reason json micros))
    (h : row' ∈ rows) : ∃ row ∈ ledger.reservations.rows, SameTerms row row' := by
  rw [hrows, mem_map] at h
  obtain ⟨row, hr, rfl⟩ := h
  exact ⟨row, hr, sameTerms_closeRow⟩

theorem createdAt_le_of_reserved {input : ReserveProviderBudget} {current : BudgetSnapshot}
    {budget budget' : BudgetRow} {cost : StoredCost} {budgets : Table budgetSchema}
    (hcurrent : computeBudgetSnapshot ledger input.budgetID = .ok current)
    (hcheck : checkReservation ledger input budget current cost = .ok ())
    (hbudgets : budgets.rows = ledger.budgets.rows.map
      (advanceRow input.budgetID input.expectedRevision micros)) (hb' : budget' ∈ budgets.rows)
    (hid : budget'.id = input.budgetID) : budget'.createdAt ≤ micros := by
  -- the advanced row was last updated now, and not before it was created
  have hchecked := budgets.checked budget' hb'
  obtain ⟨own, limit, hd⟩ := computeBudgetSnapshot_ok hcurrent
  have hrevision : own.revision = input.expectedRevision := by
    simp only [checkReservation, run_ok_iff] at hcheck
    rw [← hcheck.choose_spec.1, hd.revision]
  rw [hbudgets, mem_map] at hb'
  obtain ⟨old, hold, rfl⟩ := hb'
  rw [advanceRow_id] at hid
  obtain rfl : own = old :=
    Option.some.inj (hd.findBudget.symm.trans (Ledger.findBudget_iff.2 ⟨hold, hid⟩))
  simp only [advanceRow, hid, hrevision, and_self, if_true, budgetSchema, Bool.and_eq_true,
    decide_eq_true_eq] at hchecked ⊢
  exact hchecked.1.2

section

variable (h : Persisted mid ledger' budgetID micros snapshot)

include h

theorem Persisted.mid_linked (hl : ledger'.Linked) : mid.Linked := by
  rw [h.rest] at hl
  exact { hl with }

theorem Persisted.budgets_eq : ledger'.budgets = mid.budgets := by
  rw [h.rest]

theorem Persisted.reservations_eq : ledger'.reservations = mid.reservations := by
  rw [h.rest]

theorem Persisted.intents_eq : ledger'.intents = mid.intents := by
  rw [h.rest]

end

theorem columnsFit_of_check {current : BudgetSnapshot}
    (h : snapshotSchema.check (snapshotRow { current with createdAt := micros }) = true) :
    ColumnsFit current := by
  intro time htime
  simp only [snapshotSchema, snapshotRow, Bool.and_eq_true, decide_eq_true_eq] at h ⊢
  exact ⟨h.1, htime⟩

theorem advanceRow_createdAt {row : BudgetRow} :
    (advanceRow budgetID expected micros row).createdAt = row.createdAt := by
  unfold advanceRow
  split_ifs <;> rfl

theorem revision_le_advanceRow {row : BudgetRow} :
    row.revision ≤ (advanceRow budgetID expected micros row).revision := by
  unfold advanceRow
  split_ifs
  · exact Nat.le_succ _
  · exact le_rfl

namespace Touched

variable (ht : Touched ledger mid ledger' budgetID micros snapshot) (ha : ledger.Accounted)

include ht ha

/-- The budget the transaction is about has just been computed, and the others are as before. -/
theorem computed (hl' : ledger'.Linked) : ∀ row ∈ ledger'.reservations.rows, ∃ snapshot,
    computeBudgetSnapshot ledger' row.budgetID = .ok snapshot ∧ ColumnsFit snapshot := by
  intro row hr
  have hmid := ht.persisted.mid_linked hl'
  rw [ht.persisted.reservations_eq] at hr
  rw [(ht.persisted.sameBudget row.budgetID).computeBudgetSnapshot hmid hl']
  by_cases hown : budgetID = row.budgetID
  · obtain ⟨current, hcompute, rfl⟩ := ht.persisted.computed
    exact ⟨current, hown ▸ hcompute, columnsFit_of_check ht.persisted.admits.1⟩
  · have hsame := ht.others row.budgetID hown
    rw [hsame.computeBudgetSnapshot ha.linked hmid]
    exact ha.computed row ((hsame.mem_reservations rfl).1 hr)

theorem revisions : ∀ stored ∈ ledger'.snapshots.rows, ∃ budget ∈ ledger'.budgets.rows,
    budget.id = stored.budgetID ∧ stored.revision ≤ budget.revision := by
  intro stored hs
  rw [ht.persisted.snapshots, ht.snapshots, mem_append, mem_singleton] at hs
  rw [ht.persisted.budgets_eq]
  rcases hs with hold | rfl
  · obtain ⟨expected, hrows⟩ := ht.budgets
    obtain ⟨budget, hb, hid, hle⟩ := ha.revisions stored hold
    refine ⟨advanceRow budgetID expected micros budget, ?_, by rw [advanceRow_id, hid],
      hle.trans revision_le_advanceRow⟩
    rw [hrows]
    exact mem_map_of_mem hb
  · obtain ⟨current, hcompute, rfl⟩ := ht.persisted.computed
    obtain ⟨budget, limit, hd⟩ := computeBudgetSnapshot_ok hcompute
    exact ⟨budget, (Ledger.findBudget_id hd.findBudget).1, hd.budgetID.symm, hd.revision.le⟩

theorem opened : ∀ row ∈ ledger'.reservations.rows, ∀ budget ∈ ledger'.budgets.rows,
    budget.id = row.budgetID → budget.createdAt ≤ row.createdAt := by
  rw [ht.persisted.budgets_eq, ht.persisted.reservations_eq]
  intro row' hr' budget' hb' hid
  rcases ht.reservations row' hr' with ⟨row, hr, hsame⟩ | ⟨hown, _, hnew⟩
  · obtain ⟨expected, hrows⟩ := ht.budgets
    rw [hrows, mem_map] at hb'
    obtain ⟨budget, hb, rfl⟩ := hb'
    rw [advanceRow_id] at hid
    rw [advanceRow_createdAt]
    rw [hsame] at hid ⊢
    exact ha.opened row hr budget hb hid
  · exact hnew budget' hb' (hid.trans hown)

theorem billed : ∀ intent ∈ ledger'.intents.rows, ∀ row ∈ ledger'.reservations.rows,
    intent.reservationID = row.id → BilledUsage intent row := by
  rw [ht.persisted.intents_eq, ht.persisted.reservations_eq]
  intro intent hi row' hr' hid
  rcases ht.intents intent hi with hold | ⟨hkept, row, hr, hrow, hbilled⟩
  · rcases ht.reservations row' hr' with ⟨row, hr, hsame⟩ | ⟨_, hnone, _⟩
    · have hrow : row'.id = row.id := by rw [hsame]
      exact hsame.billedUsage (ha.billed intent hold row hr (hid.trans hrow))
    · rw [Ledger.hasIntent_iff.2 ⟨intent, hold, hid⟩] at hnone
      cases hnone
  · rw [hkept] at hr'
    obtain rfl := ledger.reservation_eq hr hr' (hrow.symm.trans hid)
    exact hbilled

theorem accounted (hl' : ledger'.Linked) : ledger'.Accounted :=
  ⟨hl', ht.computed ha hl', ht.revisions ha, ht.opened ha, ht.billed ha⟩

end Touched

theorem Ledger.Accounted.empty : (Ledger.empty engine).Accounted :=
  ⟨.empty, by rintro _ ⟨⟩, by rintro _ ⟨⟩, by rintro _ ⟨⟩, by rintro _ ⟨⟩⟩

/-- A new budget has no reservations, and changes no other budget. -/
theorem create_accounted {input : CreateBudget} (ha : ledger.Accounted) (hl' : ledger'.Linked)
    (h : Changes ledger micros (.create input) ledger') : ledger'.Accounted := by
  cases h with
  | unchanged => exact ha
  | @created _ _ row limit stored hadmits _ hlimit hstored hbudgets hlimits hsnapshots hrest =>
  have hreservations : ledger'.reservations = ledger.reservations := by rw [hrest]
  have hintents : ledger'.intents = ledger.intents := by rw [hrest]
  have hpostings : ledger'.postings = ledger.postings := by rw [hrest]
  have hfresh : ∀ reservation ∈ ledger.reservations.rows, row.id ≠ reservation.budgetID := by
    intro reservation hr hid
    obtain ⟨budget, hb, hbudget⟩ := ha.linked.reservation_budget reservation hr
    have := hadmits.2 budget hb
    simp [budgetSchema, hbudget, hid] at this
  have hother : ∀ other, row.id ≠ other → SameBudget ledger ledger' other := by
    intro other hne
    constructor
    · simp only [Ledger.findBudget, hbudgets, find?_append]
      simp [hne]
    · exact filter_append_of_ne LimitRow.budgetID hlimits (by rwa [hlimit])
    · rw [Ledger.reservationsOf, hreservations, ← Ledger.reservationsOf]
    · rw [Ledger.intentsOf, hintents, ← Ledger.intentsOf]
    · rw [Ledger.postingsOf, hpostings, ← Ledger.postingsOf]
  refine ⟨hl', ?_, ?_, ?_, ?_⟩
  · intro reservation hr
    rw [hreservations] at hr
    rw [(hother _ (hfresh _ hr)).computeBudgetSnapshot ha.linked hl']
    exact ha.computed reservation hr
  · intro new hn
    rw [hsnapshots, mem_append, mem_singleton] at hn
    rw [hbudgets]
    rcases hn with hold | rfl
    · obtain ⟨budget, hb, hid, hle⟩ := ha.revisions new hold
      exact ⟨budget, mem_append_left _ hb, hid, hle⟩
    · exact ⟨row, by simp, hstored.1.symm, hstored.2 ▸ Nat.zero_le _⟩
  · intro reservation hr budget hb hid
    rw [hreservations] at hr
    rw [hbudgets, mem_append, mem_singleton] at hb
    rcases hb with hold | rfl
    · exact ha.opened reservation hr budget hold hid
    · exact absurd hid (hfresh reservation hr)
  · rw [hreservations, hintents]
    exact ha.billed

theorem Changes.accounted {operation : Operation} (h : Changes ledger micros operation ledger')
    (ha : ledger.Accounted) (hprovider : operation.IsProvider) : ledger'.Accounted := by
  have hl' := h.linked ha.linked
  have hcreate : ∀ input, operation = .create input → ledger'.Accounted := by
    rintro input rfl
    exact create_accounted ha hl' h
  cases h with
  | unchanged => exact ha
  | created => exact hcreate _ rfl
  | reserved hcurrent _ hcheck hadmits hrows hbudgets hp =>
    refine Touched.accounted ⟨hp, ⟨_, hbudgets⟩, rfl, fun other hne =>
      ⟨findBudget_advance hbudgets hne, rfl, filter_append_of_ne ReservationRow.budgetID hrows hne,
        rfl, rfl⟩, fun row' hr' => ?_, fun intent hi => .inl hi⟩ ha hl'
    rw [hrows, mem_append, mem_singleton] at hr'
    rcases hr' with hold | rfl
    · exact .inl ⟨row', hold, .refl _⟩
    · exact .inr ⟨rfl, (ha.linked.fresh hadmits).2, fun budget' hb' hid =>
        createdAt_le_of_reserved hcurrent hcheck hbudgets hb' hid⟩
  | settled _ hfind _ hrows hpostings hbudgets hp =>
    have hmem := (Ledger.findReservation_id hfind).1
    exact Touched.accounted ⟨hp, ⟨_, hbudgets⟩, rfl, fun other hne =>
      ⟨findBudget_advance hbudgets hne, rfl, filter_closeRow hrows hmem hne, rfl,
        filter_append_of_ne PostingRow.budgetID hpostings hne⟩,
      fun row' hr' => .inl (mem_map_closeRow hrows hr'), fun intent hi => .inl hi⟩ ha hl'
  | released hfind _ hrows hbudgets hp =>
    have hmem := (Ledger.findReservation_id hfind).1
    exact Touched.accounted ⟨hp, ⟨_, hbudgets⟩, rfl, fun other hne =>
      ⟨findBudget_advance hbudgets hne, rfl, filter_closeRow hrows hmem hne, rfl, rfl⟩,
      fun row' hr' => .inl (mem_map_closeRow hrows hr'), fun intent hi => .inl hi⟩ ha hl'
  | intended hcost hfind _ hcurrency hslots hintents hbudgets hp =>
    refine Touched.accounted ⟨hp, ⟨_, hbudgets⟩, rfl, fun other hne =>
      ⟨findBudget_advance hbudgets hne, rfl, rfl,
        filter_append_of_ne IntentRow.budgetID hintents hne, rfl⟩,
      fun row' hr' => .inl ⟨row', hr', .refl _⟩, fun intent hi => ?_⟩ ha hl'
    rw [hintents, mem_append, mem_singleton] at hi
    rcases hi with hold | rfl
    · exact .inl hold
    · exact .inr ⟨rfl, _, (Ledger.findReservation_id hfind).1, rfl, ⟨_, hcost⟩, hcurrency,
        ⟨_, hslots⟩⟩
  | raised _ _ hlimits hbudgets hp =>
    exact Touched.accounted ⟨hp, ⟨_, hbudgets⟩, rfl, fun other hne =>
      ⟨findBudget_advance hbudgets hne, filter_append_of_ne LimitRow.budgetID hlimits hne, rfl,
        rfl, rfl⟩, fun row' hr' => .inl ⟨row', hr', .refl _⟩, fun intent hi => .inl hi⟩ ha hl'
  | legacyReserved | legacyPosted => exact hprovider.elim

/-- **The invariants of accounting hold in every reachable state.** -/
theorem LedgerReachable.accounted
    (h : LedgerReachable engine (fun _ operation => operation.IsProvider) ledger) :
    ledger.Accounted :=
  h.invariant .empty fun _ _ _ _ ha hprovider hchanges => hchanges.accounted ha hprovider

end Codeflux.Storage
