import Codeflux.Storage.Budget.Links

/-!
# The hard cost cap

As long as nothing is billed beyond what was reserved, the exposure of a budget never exceeds its
approved hard cost. The invariant is about commitments: counting a pending reservation at its bound
is what makes each transaction's own check sufficient.
-/

namespace Codeflux.Storage

open Library Go Domain Ledger List

variable {engine : Engine} {ledger ledger' : Ledger engine}

/-- The known cost of billed usage is at most the bound of its reservation. -/
def WithinReservedBound (ledger : Ledger engine) (reservationID : String)
    (actualCost : Option ExactMinorCost) : Prop :=
  ∀ reservation cost, ledger.findReservation reservationID = some reservation →
    actualCost = some cost → cost.amount ≤ exactCostRat reservation.costBound

instance (ledger : Ledger engine) (reservationID : String)
    (actualCost : Option ExactMinorCost) :
    Decidable (WithinReservedBound ledger reservationID actualCost) :=
  decidable_of_iff (∀ reservation ∈ ledger.findReservation reservationID, ∀ cost ∈ actualCost,
    cost.amount ≤ exactCostRat reservation.costBound)
    ⟨fun h reservation cost hr hc => h reservation hr cost hc,
      fun h reservation hr cost hc => h reservation cost hr hc⟩

/-- A settlement or an intent with a known cost bills at most the bound of its reservation, and a
legacy posting at most what it releases. -/
def Operation.WithinBound (ledger : Ledger engine) : Operation → Prop
  | .settle input => WithinReservedBound ledger input.reservationID input.actualCost
  | .intent input => WithinReservedBound ledger input.reservationID input.actualCost
  | .legacyPost input => input.actual.minorUnits ≤ input.releaseReservedMinor
  | _ => True

instance (ledger : Ledger engine) (operation : Operation) :
    Decidable (operation.WithinBound ledger) := by
  cases operation <;> unfold Operation.WithinBound <;> infer_instance

/-- What a budget's reservations may still cost, with its legacy aggregate, is at most its current
hard cost. -/
def Ledger.CommittedWithinCap (ledger : Ledger engine) : Prop :=
  ∀ budget ∈ ledger.budgets.rows, ∀ limit, ledger.latestLimit budget.id = some limit →
    budget.reservedCostMinor + budget.actualCostMinor + ledger.committed budget.id ≤
      exactCostRat limit.hardCost

/-- The charge of billed usage, in lowest terms, is at most the bound. -/
theorem charge_le_bound {reservationID : String} {actualCost : Option ExactMinorCost}
    {stored : Option StoredCost} {reservation : ReservationRow}
    (hbound : WithinReservedBound ledger reservationID actualCost)
    (hstored : normalizeActualCost actualCost = .ok stored)
    (hfind : ledger.findReservation reservationID = some reservation) :
    exactCostRat (stored.getD reservation.costBound) ≤ exactCostRat reservation.costBound := by
  cases actualCost with
  | none =>
    cases hstored
    exact le_rfl
  | some cost =>
    simp only [normalizeActualCost, map_ok_iff] at hstored
    obtain ⟨normalized, hnormalized, rfl⟩ := hstored
    rw [Option.getD_some, (normalizeExactCost_ok hnormalized).1]
    exact hbound reservation cost hfind rfl

theorem Ledger.BilledWithinBound.ofReservations (hb : ledger.BilledWithinBound)
    (hintents : ledger'.intents.rows = ledger.intents.rows)
    (hreservations : ∀ row' ∈ ledger'.reservations.rows,
      (∃ row ∈ ledger.reservations.rows, row.id = row'.id ∧ row.costBound = row'.costBound) ∨
        ledger.hasIntent row'.id = false) : ledger'.BilledWithinBound := by
  intro intent hi row' hr' hid
  rw [hintents] at hi
  rcases hreservations row' hr' with ⟨row, hr, hsame, hbound⟩ | hnone
  · have := hb intent hi row hr (hid.trans hsame.symm)
    unfold pendingCost at this ⊢
    rwa [hbound] at this
  · rw [hasIntent_iff.2 ⟨intent, hi, hid⟩] at hnone
    cases hnone

/-! ### Commitments after a write -/

section Committed

variable {reservations : Table (reservationSchema engine)} {reservation row : ReservationRow}
  {postings : Table (postingSchema engine)} {posting : PostingRow}
  {intents : Table (intentSchema engine)} {intent : IntentRow}
  {state : BudgetReservationState} {reason json : String} {micros : Int}

theorem committed_addReservation (hrows : reservations.rows = ledger.reservations.rows ++ [row])
    (hactive : row.state = .active) (hposted : ledger.posted row.id = false) (budgetID : BudgetID) :
    committed { ledger with reservations } budgetID =
      ledger.committed budgetID +
        if row.budgetID = budgetID then exactCostRat row.costBound else 0 := by
  have hnew : ledger.commitment row = exactCostRat row.costBound := by
    simp [commitment, hposted, hactive]
  have hsame : ∀ r, commitment { ledger with reservations } r =
      ledger.commitment r := fun _ => rfl
  simp [committed, hsame, hrows, hnew]

/-- When the closed row is committed at no more than before, so is the budget. -/
theorem committed_closeRow_le (hrows : ledger'.reservations.rows =
      ledger.reservations.rows.map (closeRow reservation state reason json micros))
    (hmem : reservation ∈ ledger.reservations.rows)
    (hle : ledger'.commitment (closeRow reservation state reason json micros reservation) ≤
      ledger.commitment reservation)
    (hother : ∀ row, row.id ≠ reservation.id → ledger'.commitment row = ledger.commitment row)
    (budgetID : BudgetID) : ledger'.committed budgetID ≤ ledger.committed budgetID := by
  unfold committed
  rw [hrows, map_map]
  refine sum_le_sum fun row hr => ?_
  simp only [Function.comp_apply, closeRow_keeps]
  split_ifs
  · by_cases hid : row.id = reservation.id
    · obtain rfl := ledger.reservation_eq hr hmem hid
      exact hle
    · rw [closeRow_of_ne hid, hother row hid]
  · exact le_rfl

theorem committed_release_le (hrows : reservations.rows =
      ledger.reservations.rows.map (closeRow reservation state reason json micros))
    (hmem : reservation ∈ ledger.reservations.rows) (hactive : reservation.state = .active)
    (budgetID : BudgetID) : committed { ledger with reservations } budgetID ≤
      ledger.committed budgetID := by
  refine committed_closeRow_le hrows hmem ?_ (fun row _ => ?_) budgetID
  · unfold commitment
    rw [closeRow_keeps.1, closeRow_keeps.2.2.2, if_pos (Or.inl hactive)]
    change (if ledger.posted _ = true then ledger.postedAmount _ else _) ≤ _
    split_ifs
    · exact le_rfl
    · exact le_rfl
    · exact exactCostRat_nonneg _
  · rfl

theorem postedAmount_append (hpostings : postings.rows = ledger.postings.rows ++ [posting])
    (id : String) :
    postedAmount { ledger with reservations, postings } id =
      ledger.postedAmount id +
        if posting.reservationID = id then exactCostRat posting.chargedCost else 0 := by
  simp only [postedAmount, hpostings, filter_append, map_append, sum_append]
  split_ifs with h <;> simp [h]

theorem committed_settle_le (hrows : reservations.rows =
      ledger.reservations.rows.map (closeRow reservation state reason json micros))
    (hpostings : postings.rows = ledger.postings.rows ++ [posting])
    (hmem : reservation ∈ ledger.reservations.rows) (hactive : reservation.state = .active)
    (hposted : ledger.posted reservation.id = false) (hid : posting.reservationID = reservation.id)
    (hcharge : exactCostRat posting.chargedCost ≤ exactCostRat reservation.costBound)
    (budgetID : BudgetID) :
    committed { ledger with reservations, postings } budgetID ≤
      ledger.committed budgetID := by
  have hposted' : ∀ id, posted
      { ledger with reservations, postings } id =
        (ledger.posted id || decide (posting.reservationID = id)) := by
    simp [posted, hpostings]
  refine committed_closeRow_le hrows hmem ?_ (fun row hrow => ?_) budgetID
  · unfold commitment
    simp only [closeRow_keeps, hposted', postedAmount_append hpostings, hid, hposted,
      postedAmount_of_not_posted hposted, zero_add]
    simpa [hactive] using hcharge
  · have hother : ¬posting.reservationID = row.id := fun h => hrow (h.symm.trans hid)
    simp only [commitment, hposted', postedAmount_append hpostings, hother, if_false,
      add_zero, decide_false, Bool.or_false]
    rfl

theorem committed_addIntent (hrows : intents.rows = ledger.intents.rows ++ [intent])
    (hmem : reservation ∈ ledger.reservations.rows) (hactive : reservation.state = .active)
    (hid : intent.reservationID = reservation.id) (budgetID : BudgetID) :
    committed { ledger with intents } budgetID = ledger.committed budgetID := by
  unfold committed
  congr 1
  refine map_congr_left fun row hr => ?_
  have hcommitment : commitment { ledger with intents } row =
      ledger.commitment row := by
    by_cases hrow : row.id = reservation.id
    · obtain rfl := ledger.reservation_eq hr hmem hrow
      simp only [commitment, hactive, true_or, if_true]
      rfl
    · have hother : ¬intent.reservationID = row.id := fun h => hrow (h.symm.trans hid)
      have hsame : hasIntent { ledger with intents } row.id =
          ledger.hasIntent row.id := by
        simp [hasIntent, hrows, hother]
      unfold commitment
      rw [hsame]
      rfl
  rw [hcommitment]

end Committed

/-! ### Limits after a write -/

section Limits

variable {limits : Table (limitSchema engine)} {limit row : LimitRow} {budgetID : BudgetID}

theorem latestLimit_max (h : ledger.latestLimit budgetID = some limit) :
    ∀ other ∈ ledger.limitsOf budgetID, other.revision ≤ limit.revision := by
  simpa using find?_some h

section

variable (hrows : limits.rows = ledger.limits.rows ++ [row])

include hrows

theorem limitsOf_append :
    limitsOf { ledger with limits } budgetID =
      ledger.limitsOf budgetID ++ if row.budgetID = budgetID then [row] else [] := by
  simp only [limitsOf, hrows, filter_append]
  split_ifs with h <;> simp [h]

theorem latestLimit_append_of_ne (h : row.budgetID ≠ budgetID) :
    latestLimit { ledger with limits } budgetID =
      ledger.latestLimit budgetID := by
  unfold latestLimit
  rw [limitsOf_append hrows, if_neg h, append_nil]

theorem latestLimit_append (hid : row.budgetID = budgetID)
    (hnew : ∀ other ∈ ledger.limitsOf budgetID, other.revision < row.revision) :
    latestLimit { ledger with limits } budgetID = some row := by
  unfold latestLimit
  rw [limitsOf_append hrows, if_pos hid, find?_append]
  have hnone : ((ledger.limitsOf budgetID).find? fun x =>
      decide (∀ other ∈ ledger.limitsOf budgetID ++ [row], other.revision ≤ x.revision)) =
      none := by
    refine find?_eq_none.2 fun x hx hall => ?_
    have := of_decide_eq_true hall row (by simp)
    exact absurd (hnew x hx) (not_lt.2 this)
  rw [hnone, Option.none_or, find?_cons_of_pos]
  refine decide_eq_true fun other hother => ?_
  rcases mem_append.1 hother with hold | hself
  · exact (hnew other hold).le
  · rw [mem_singleton.1 hself]

end

end Limits

/-! ### The cap after a transaction -/

variable {budgetID : BudgetID} {micros : Int} {snapshot : BudgetSnapshot}

namespace Ledger.CommittedWithinCap

/-- The cap survives when no budget's commitments grow and no current hard cost falls. -/
theorem extend (hcap : ledger.CommittedWithinCap)
    (hbudgets : ∀ budget' ∈ ledger'.budgets.rows, ∃ budget ∈ ledger.budgets.rows,
      budget.id = budget'.id ∧
        budget'.reservedCostMinor + budget'.actualCostMinor ≤
          budget.reservedCostMinor + budget.actualCostMinor)
    (hcommitted : ∀ budgetID, ledger'.committed budgetID ≤ ledger.committed budgetID)
    (hlimits : ∀ budgetID limit', ledger'.latestLimit budgetID = some limit' →
      ∃ limit, ledger.latestLimit budgetID = some limit ∧
        exactCostRat limit.hardCost ≤ exactCostRat limit'.hardCost) :
    ledger'.CommittedWithinCap := by
  intro budget' hb' limit' hlimit'
  obtain ⟨budget, hb, hid, hlegacy⟩ := hbudgets budget' hb'
  obtain ⟨limit, hlimit, hhard⟩ := hlimits budget'.id limit' hlimit'
  have hlegacy' : (budget'.reservedCostMinor + budget'.actualCostMinor : ℚ) ≤
      budget.reservedCostMinor + budget.actualCostMinor := by exact_mod_cast hlegacy
  have hbefore := hcap budget hb limit (hid ▸ hlimit)
  rw [hid] at hbefore
  calc (budget'.reservedCostMinor + budget'.actualCostMinor + ledger'.committed budget'.id : ℚ)
      ≤ budget.reservedCostMinor + budget.actualCostMinor + ledger.committed budget'.id :=
        add_le_add hlegacy' (hcommitted _)
    _ ≤ exactCostRat limit.hardCost := hbefore
    _ ≤ exactCostRat limit'.hardCost := hhard

theorem persisted (h : Persisted ledger ledger' budgetID micros snapshot)
    (hcap : ledger.CommittedWithinCap) : ledger'.CommittedWithinCap := by
  rwa [h.rest]

theorem empty : (Ledger.empty engine).CommittedWithinCap := by
  rintro _ ⟨⟩

end Ledger.CommittedWithinCap

variable {expected : Nat} {budget : BudgetRow} {cost : StoredCost} {operation : Operation}

theorem mem_map_advanceRow {budgets : Table budgetSchema}
    (hrows : budgets.rows = ledger.budgets.rows.map
      (advanceRow budgetID expected micros)) {budget' : BudgetRow} (h : budget' ∈ budgets.rows) :
    ∃ budget ∈ ledger.budgets.rows, budget.id = budget'.id ∧
      budget'.reservedCostMinor = budget.reservedCostMinor ∧
      budget'.actualCostMinor = budget.actualCostMinor := by
  rw [hrows, mem_map] at h
  obtain ⟨budget, hb, rfl⟩ := h
  refine ⟨budget, hb, ?_⟩
  unfold advanceRow
  split_ifs <;> exact ⟨rfl, rfl, rfl⟩

theorem Ledger.CommittedWithinCap.extend_advanced
    (hcap : ledger.CommittedWithinCap) (hbudgets : ledger'.budgets.rows =
      ledger.budgets.rows.map (advanceRow budgetID expected micros))
    (hcommitted : ∀ budgetID, ledger'.committed budgetID ≤ ledger.committed budgetID)
    (hlimits : ∀ budgetID limit', ledger'.latestLimit budgetID = some limit' →
      ∃ limit, ledger.latestLimit budgetID = some limit ∧
        exactCostRat limit.hardCost ≤ exactCostRat limit'.hardCost) :
    ledger'.CommittedWithinCap := by
  refine hcap.extend (fun budget' hb' => ?_) hcommitted hlimits
  obtain ⟨budget, hb, hid, hreserved, hactual⟩ := mem_map_advanceRow hbudgets hb'
  exact ⟨budget, hb, hid, by rw [hreserved, hactual]⟩

theorem Describes.pendingIntents_nil
    {limit : LimitRow} (hd : Describes ledger budgetID snapshot budget limit)
    (h : snapshot.reconciliationPending = false) : ledger.pendingIntents budget.id = [] := by
  rw [hd.pending] at h
  rw [(findBudget_id hd.findBudget).2]
  simpa using h

variable {input : ReserveProviderBudget}

theorem checkReservation_ok {current : BudgetSnapshot}
    (h : checkReservation ledger input budget current cost = .ok ()) :
    current.reconciliationPending = false ∧ ∃ exposure total,
      addExactCosts current.reservedCost current.chargedCost = .ok exposure ∧
      addExactCosts exposure cost = .ok total ∧
      compareExactCosts total current.hardCost ≠ .gt := by
  simp only [checkReservation, run_ok_iff] at h
  obtain ⟨_, _, _, hpending, _, _, _, _, _, _, exposure, hexposure, total, htotal, _, hcompare,
    _⟩ := h
  exact ⟨hpending, exposure, total, hexposure, htotal, hcompare⟩

/-- A budget identifier that the table can still take in has no limits and no commitments. -/
theorem Ledger.Linked.fresh_budget (hl : ledger.Linked) {row : BudgetRow}
    (h : ledger.budgets.Admits row) :
    ledger.limitsOf row.id = [] ∧ ledger.committed row.id = 0 := by
  have hnew : ∀ other ∈ ledger.budgets.rows, other.id ≠ row.id := by
    intro other ho hid
    have := h.2 other ho
    simp [budgetSchema, hid] at this
  constructor
  · refine filter_eq_nil_iff.2 fun limit hlimit hid => ?_
    obtain ⟨budget, hb, hbid⟩ := hl.limit_budget limit hlimit
    exact hnew budget hb (hbid.trans (of_decide_eq_true hid))
  · refine sum_eq_zero fun x hx => ?_
    obtain ⟨reservation, hr, rfl⟩ := mem_map.1 hx
    refine if_neg fun hid => ?_
    obtain ⟨budget, hb, hbid⟩ := hl.reservation_budget reservation hr
    exact hnew budget hb (hbid.trans hid)

/-- What is known of every state of a run in which nothing is billed beyond its bound. -/
structure Ledger.Covered (ledger : Ledger engine) : Prop where
  linked : ledger.Linked
  billed : ledger.BilledWithinBound
  cap : ledger.CommittedWithinCap

section Step

section

variable (hc : ledger.Covered)

include hc

theorem create_cap {input : CreateBudget} (h : Changes ledger micros (.create input) ledger') :
    ledger'.CommittedWithinCap := by
  cases h with
  | unchanged => exact hc.cap
  | @created _ _ row limit _ hadmits hrow hbudgetID _ hbudgets hlimits _ hrest =>
  obtain ⟨hnolimits, hnothing⟩ := hc.linked.fresh_budget hadmits
  have hcommitted : ∀ id, ledger'.committed id = ledger.committed id := by
    rw [hrest]
    exact fun _ => rfl
  intro budget hb current hcurrent
  rw [hcommitted]
  change latestLimit { ledger with limits := ledger'.limits } budget.id = _ at hcurrent
  rw [hbudgets, mem_append, mem_singleton] at hb
  rcases hb with hold | rfl
  · have hne : limit.budgetID ≠ budget.id := by
      rw [hbudgetID]
      intro hid
      have := hadmits.2 budget hold
      simp [budgetSchema, hid] at this
    rw [latestLimit_append_of_ne hlimits hne] at hcurrent
    exact hc.cap budget hold current hcurrent
  · rw [hnothing, hrow.1, hrow.2.1]
    simpa using exactCostRat_nonneg current.hardCost

/-- An amount that was checked against a snapshot fits beside what its budget is committed to. -/
theorem Ledger.Covered.add_le {limit : LimitRow} {exposure total : StoredCost}
    (hcompute : computeBudgetSnapshot ledger budgetID = .ok snapshot)
    (hpending : snapshot.reconciliationPending = false)
    (hexposure : addExactCosts snapshot.reservedCost snapshot.chargedCost = .ok exposure)
    (htotal : addExactCosts exposure cost = .ok total)
    (hcompare : compareExactCosts total snapshot.hardCost ≠ .gt) (hb : budget ∈ ledger.budgets.rows)
    (hid : budget.id = budgetID) (hlimit : ledger.latestLimit budget.id = some limit) :
    (budget.reservedCostMinor + budget.actualCostMinor + ledger.committed budget.id : ℚ) +
      exactCostRat cost ≤ exactCostRat limit.hardCost := by
  subst hid
  obtain ⟨own, ownLimit, hd⟩ := computeBudgetSnapshot_ok hcompute
  obtain rfl : own = budget :=
    Option.some.inj (hd.findBudget.symm.trans (findBudget_iff.2 ⟨hb, rfl⟩))
  obtain rfl : ownLimit = limit := Option.some.inj (hd.latestLimit.symm.trans hlimit)
  obtain ⟨hsum, hcurrency⟩ := addExactCosts_ok hexposure
  obtain ⟨hsum', hcurrency'⟩ := addExactCosts_ok htotal
  have hsame : total.currency = snapshot.hardCost.currency := by
    rw [hcurrency', hcurrency, hd.currency, hd.hardCost, StoredCost.inCurrency_currency]
  have hle := (compareExactCosts_ne_gt hsame).1 hcompare
  rwa [hsum', hsum, hd.reserved, hd.charged, hd.hardCost, exactCostRat_inCurrency,
    ← Ledger.exposure, exposure_eq_committed hc.linked own (hd.pendingIntents_nil hpending)] at hle

theorem reserve_cap (h : Changes ledger micros (.reserve input) ledger') :
    ledger'.CommittedWithinCap := by
  cases h with
  | unchanged => exact hc.cap
  | @reserved _ _ _ cost current _ reservations _ hcurrent _ hcheck hadmits hrows hbudgets hp =>
  refine .persisted hp fun budget' hb' limit hlimit => ?_
  obtain ⟨budget, hb, hid, hreserved, hactual⟩ := mem_map_advanceRow hbudgets hb'
  have hcommitted := committed_addReservation hrows rfl (hc.linked.fresh hadmits).1 budget'.id
  change _ + committed { ledger with reservations } budget'.id ≤ _
  rw [hcommitted, hreserved, hactual, ← hid]
  rw [← hid] at hlimit
  by_cases hrow : (reservationRow input current.taskID cost micros).budgetID = budget.id
  · obtain ⟨hpending, exposure, total, hexposure, htotal, hcompare⟩ := checkReservation_ok hcheck
    rw [if_pos hrow, ← add_assoc]
    exact hc.add_le hcurrent hpending hexposure htotal hcompare hb hrow.symm hlimit
  · rw [if_neg hrow, add_zero]
    exact hc.cap budget hb limit hlimit

theorem settle_cap {input : SettleProviderBudget}
    (hbound : WithinReservedBound ledger input.reservationID input.actualCost)
    (h : Changes ledger micros (.settle input) ledger') : ledger'.CommittedWithinCap := by
  cases h with
  | unchanged => exact hc.cap
  | settled hcost hfind hactive hrows hpostings hbudgets hp =>
  have hmem := (findReservation_id hfind).1
  refine .persisted hp (hc.cap.extend_advanced hbudgets (fun budgetID => ?_)
    fun _ limit hlimit => ⟨limit, hlimit, le_rfl⟩)
  refine committed_settle_le hrows hpostings hmem hactive ?_ rfl
    (charge_le_bound hbound hcost hfind) budgetID
  rw [← Bool.not_eq_true, posted_iff]
  rintro ⟨posting, hmemp, hid⟩
  have := (hc.linked.posting_budget hmemp hmem hid).2
  rw [hactive] at this
  cases this

theorem raise_cap {input : RaiseProviderBudget} {approval : Option ApprovalRow}
    (h : Changes ledger micros (.raise input approval) ledger') : ledger'.CommittedWithinCap := by
  cases h with
  | unchanged => exact hc.cap
  | @raised _ _ _ _ warning hard current limits _ hcurrent hmonotone hlimits hbudgets hp =>
  obtain ⟨own, ownLimit, hd⟩ := computeBudgetSnapshot_ok hcurrent
  refine .persisted hp (hc.cap.extend_advanced hbudgets (fun _ => le_rfl)
    fun budgetID limit hlimit => ?_)
  change latestLimit { ledger with limits } budgetID = some limit at hlimit
  by_cases hown : input.budgetID = budgetID
  · subst hown
    have hnew : ∀ other ∈ ledger.limitsOf input.budgetID,
        other.revision < current.limitRevision + 1 := by
      intro other hother
      rw [hd.limitRevision]
      exact Nat.lt_succ_of_le (latestLimit_max hd.latestLimit other hother)
    have howner : (limitRow input warning hard (current.limitRevision + 1) micros).budgetID =
        input.budgetID := rfl
    rw [latestLimit_append hlimits howner hnew] at hlimit
    cases hlimit
    refine ⟨ownLimit, hd.latestLimit, ?_⟩
    rwa [hd.hardCost, exactCostRat_inCurrency] at hmonotone
  · rw [latestLimit_append_of_ne hlimits hown] at hlimit
    exact ⟨limit, hlimit, le_rfl⟩

theorem legacyReserve_cap {input : ReserveBudget}
    (h : Changes ledger micros (.legacyReserve input) ledger') : ledger'.CommittedWithinCap := by
  cases h with
  | unchanged => exact hc.cap
  | @legacyReserved _ snapshot _ _ _ hcompute hcap hexposure htotal hcompare hbudgets =>
  intro budget' hb' limit hlimit
  change _ + ledger.committed budget'.id ≤ _
  rw [hbudgets, mem_map] at hb'
  obtain ⟨budget, hb, rfl⟩ := hb'
  split_ifs at hlimit ⊢ with hown
  · obtain ⟨own, ownLimit, hd⟩ := computeBudgetSnapshot_ok hcompute
    have hpending : snapshot.reconciliationPending = false := by
      by_contra hp
      rw [Bool.not_eq_false] at hp
      rw [hd.hardCap hp] at hcap
      cases hcap
    have hle := hc.add_le hcompute hpending hexposure htotal hcompare hb hown.1 hlimit
    rw [exactCostRat_wholeCost] at hle
    push_cast
    linarith
  · exact hc.cap budget hb limit hlimit

theorem legacyPost_cap {input : PostActualCost}
    (hbound : input.actual.minorUnits ≤ input.releaseReservedMinor)
    (h : Changes ledger micros (.legacyPost input) ledger') : ledger'.CommittedWithinCap := by
  cases h with
  | unchanged => exact hc.cap
  | @legacyPosted _ current _ hfind hnonneg hrelease hbudgets =>
  refine hc.cap.extend (fun budget' hb' => ?_) (fun _ => le_rfl)
    fun _ limit hlimit => ⟨limit, hlimit, le_rfl⟩
  rw [hbudgets, mem_map] at hb'
  obtain ⟨budget, hb, rfl⟩ := hb'
  refine ⟨budget, hb, ?_⟩
  split_ifs with hown
  · have hsame : current = budget :=
      Option.some.inj (hfind.symm.trans (findBudget_iff.2 ⟨hb, hown.1⟩))
    subst hsame
    refine ⟨rfl, ?_⟩
    simp only
    omega
  · exact ⟨rfl, le_rfl⟩

end

end Step

/-! ### Whole runs -/

theorem Changes.billed (h : Changes ledger micros operation ledger') (hc : ledger.Covered)
    (hbound : operation.WithinBound ledger) : ledger'.BilledWithinBound := by
  cases h with
  | unchanged => exact hc.billed
  | created _ _ _ _ _ _ _ hrest =>
    rw [hrest]
    exact hc.billed
  | reserved _ _ _ hadmits hrows _ hp =>
    rw [hp.rest]
    refine hc.billed.ofReservations rfl fun row' hr' => ?_
    rw [hrows, mem_append, mem_singleton] at hr'
    rcases hr' with hold | rfl
    · exact .inl ⟨row', hold, rfl, rfl⟩
    · exact .inr (hc.linked.fresh hadmits).2
  | settled _ _ _ hrows _ _ hp | released _ _ hrows _ hp =>
    rw [hp.rest]
    refine hc.billed.ofReservations rfl fun row' hr' => .inl ?_
    rw [hrows, mem_map] at hr'
    obtain ⟨row, hr, rfl⟩ := hr'
    exact ⟨row, hr, closeRow_keeps.1.symm, closeRow_keeps.2.2.2.symm⟩
  | intended hcost hfind _ _ _ hintents _ hp =>
    rw [hp.rest]
    intro intent hi row hr hid
    rw [hintents, mem_append, mem_singleton] at hi
    rcases hi with hold | rfl
    · exact hc.billed intent hold row hr hid
    · obtain rfl := ledger.reservation_eq (findReservation_id hfind).1 hr hid
      exact charge_le_bound hbound hcost hfind
  | raised _ _ _ _ hp =>
    rw [hp.rest]
    exact hc.billed
  | legacyReserved | legacyPosted => exact hc.billed

theorem Changes.cap (h : Changes ledger micros operation ledger') (hc : ledger.Covered)
    (hbound : operation.WithinBound ledger) : ledger'.CommittedWithinCap := by
  cases operation with
  | create input => exact create_cap hc h
  | reserve input => exact reserve_cap hc h
  | settle input => exact settle_cap hc hbound h
  | release input =>
    cases h with
    | unchanged => exact hc.cap
    | released hfind hactive hrows hbudgets hp =>
      have hmem := (findReservation_id hfind).1
      exact .persisted hp (hc.cap.extend_advanced hbudgets
        (committed_release_le hrows hmem hactive) fun _ limit hlimit => ⟨limit, hlimit, le_rfl⟩)
  | intent input =>
    cases h with
    | unchanged => exact hc.cap
    | intended _ hfind hactive _ _ hintents hbudgets hp =>
      have hmem := (findReservation_id hfind).1
      exact .persisted hp (hc.cap.extend_advanced hbudgets
        (fun id => (committed_addIntent hintents hmem hactive rfl id).le)
        fun _ limit hlimit => ⟨limit, hlimit, le_rfl⟩)
  | raise input approval => exact raise_cap hc h
  | legacyReserve input => exact legacyReserve_cap hc h
  | legacyPost input => exact legacyPost_cap hc hbound h

/-- The invariants of the cap hold in every reachable state. -/
theorem LedgerReachable.covered
    (h : LedgerReachable engine (fun ledger op => op.WithinBound ledger) ledger) :
    ledger.Covered := by
  refine h.invariant ⟨.empty, by rintro _ ⟨⟩, .empty⟩ ?_
  intro l l' operation micros hc hbound h
  exact ⟨h.linked hc.linked, h.billed hc hbound, h.cap hc hbound⟩

/-- **The hard cost cap.** In every state reached by transactions that bill at most what was
reserved, the exact exposure of each budget is at most its current hard cost: the exposure of the
stored rows, and the exposure of every snapshot that is computed. -/
theorem exposure_le_hardCost
    (h : LedgerReachable engine (fun ledger operation => operation.WithinBound ledger) ledger) :
    (∀ budget ∈ ledger.budgets.rows, ∀ limit, ledger.latestLimit budget.id = some limit →
      ledger.exposure budget ≤ exactCostRat limit.hardCost) ∧
    ∀ budgetID snapshot, computeBudgetSnapshot ledger budgetID = .ok snapshot →
      ∃ limit, ledger.latestLimit budgetID = some limit ∧
        exactCostRat snapshot.hardCost = exactCostRat limit.hardCost ∧
        exactCostRat snapshot.reservedCost + exactCostRat snapshot.chargedCost ≤
          exactCostRat limit.hardCost := by
  have hc := h.covered
  have hrows : ∀ budget ∈ ledger.budgets.rows, ∀ limit,
      ledger.latestLimit budget.id = some limit →
        ledger.exposure budget ≤ exactCostRat limit.hardCost := fun budget hb limit hlimit =>
    (exposure_le_committed hc.linked hc.billed budget).trans (hc.cap budget hb limit hlimit)
  refine ⟨hrows, fun budgetID snapshot hcompute => ?_⟩
  obtain ⟨budget, limit, hd⟩ := computeBudgetSnapshot_ok hcompute
  obtain ⟨hb, hid⟩ := findBudget_id hd.findBudget
  refine ⟨limit, hd.latestLimit, by rw [hd.hardCost, exactCostRat_inCurrency], ?_⟩
  rw [hd.reserved, hd.charged]
  exact hrows budget hb limit (by rw [hid]; exact hd.latestLimit)

/-- Validators that know the two documents of the sample run. -/
def sampleEngine : Engine :=
  let valid := fun text =>
    decide (text ∈ ["\x7b\x7d", "\x7b\"schema_version\":1,\"source\":\"fixed-policy\"\x7d"])
  ⟨valid, valid⟩

/-- A budget. -/
def sampleBudgetID : BudgetID :=
  ⟨"bdg_0190a5b0-0000-7000-8000-000000000001", .inr (by decide)⟩

/-- A task. -/
def sampleTaskID : TaskID :=
  ⟨"tsk_0190a5b0-0000-7000-8000-000000000002", .inr (by decide)⟩

/-- Its creation. -/
def sampleCreate : CreateBudget where
  taskID := sampleTaskID
  budget := {
    id := sampleBudgetID
    warningCost := ⟨"USD", 80⟩
    hardStopCost := ⟨"USD", 100⟩
    warningTokens := 800
    hardStopTokens := 1000
    warningWallClock := 60
    hardStopWallClock := 120
    maximumProviderCalls := 4
    maximumRepairRounds := 2
    maximumToolExecutions := 4 }

/-- A reservation. -/
def sampleReserve : ReserveProviderBudget where
  id := "reservation-1"
  budgetID := sampleBudgetID
  expectedRevision := 0
  operationID := "operation-1"
  attemptID := none
  retryOrdinal := 0
  category := .model
  providerCallSlots := 1
  costBound := ⟨61, 2, "USD"⟩
  tokenBound := some 300
  idempotencyKey := "reserve-1"
  provenanceJSON := "\x7b\x7d"

/-- Its settlement. -/
def sampleSettle : SettleProviderBudget where
  id := "posting-1"
  reservationID := "reservation-1"
  actualCost := some ⟨121, 4, "USD"⟩
  actualTokens := some 200
  actualProviderCallSlots := 1
  idempotencyKey := "settle-1"
  provenanceJSON := "\x7b\x7d"

/-- A budget is created, one call reserved at 61/2 cents and settled at 121/4 cents. -/
def sampleRun : List (Operation × Int) :=
  [(.create sampleCreate, 1), (.reserve sampleReserve, 2), (.settle sampleSettle, 3)]

theorem exposure_le_hardCost_sample :
    ∃ (snapshot : BudgetSnapshot) (limit : LimitRow),
      computeBudgetSnapshot (runAll (Ledger.empty sampleEngine) sampleRun) sampleBudgetID =
        .ok snapshot ∧
      (runAll (Ledger.empty sampleEngine) sampleRun).latestLimit sampleBudgetID = some limit ∧
      exactCostRat snapshot.chargedCost = 121 / 4 ∧
      exactCostRat snapshot.reservedCost + exactCostRat snapshot.chargedCost ≤
        exactCostRat limit.hardCost := by
  have hallowed : AllowedRun (fun ledger operation => operation.WithinBound ledger)
      (Ledger.empty sampleEngine) sampleRun := by decide +kernel
  have hrun : (exactCostRat ·.chargedCost) <$> computeBudgetSnapshot
      (runAll (Ledger.empty sampleEngine) sampleRun) sampleBudgetID = .ok (121 / 4) := by
    decide +kernel
  have hreach := LedgerReachable.runAll (.init rfl) hallowed
  obtain ⟨snapshot, hcompute, hcharged⟩ := map_ok_iff.1 hrun
  obtain ⟨limit, hlimit, _, hle⟩ := (exposure_le_hardCost hreach).2 _ _ hcompute
  exact ⟨snapshot, limit, hcompute, hlimit, hcharged, hle⟩

end Codeflux.Storage
