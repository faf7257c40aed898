import Codeflux.Storage.Budget.Aggregate
import Mathlib.Tactic.Linarith

/-!
# Commitments and exposure

The exposure a snapshot reports is compared with a sum over reservations alone: the *commitment* of
a reservation is its bound until usage is posted for it and the posted charge from then on.
-/

namespace Codeflux.Storage

open Library Go Domain Ledger List

variable {engine : Engine} {ledger : Ledger engine}

variable {id : String}

theorem Ledger.findReservation_iff {row : ReservationRow} :
    ledger.findReservation id = some row ↔ row ∈ ledger.reservations.rows ∧ row.id = id := by
  rw [findReservation, Table.find_eq_some_iff (by simp +contextual [reservationSchema]),
    decide_eq_true_eq]

theorem Ledger.findBudget_iff {id : BudgetID} {row : BudgetRow} :
    ledger.findBudget id = some row ↔ row ∈ ledger.budgets.rows ∧ row.id = id := by
  rw [findBudget, Table.find_eq_some_iff (by simp +contextual [budgetSchema]), decide_eq_true_eq]

theorem Ledger.reservation_eq {a b : ReservationRow} (ha : a ∈ ledger.reservations.rows)
    (hb : b ∈ ledger.reservations.rows) (h : a.id = b.id) : a = b :=
  Table.eq_of_conflict ha hb (by simp [reservationSchema, h])

theorem Ledger.reservation_ids_nodup : (ledger.reservations.rows.map (·.id)).Nodup := by
  rw [List.Nodup, pairwise_map]
  refine ledger.reservations.distinct.imp fun {a b} h hab => ?_
  simp [reservationSchema, hab] at h

/-- The references between the tables, and the state of a reservation with a posting. -/
structure Ledger.Linked (ledger : Ledger engine) : Prop where
  limit_budget : ∀ limit ∈ ledger.limits.rows, ∃ budget ∈ ledger.budgets.rows,
    budget.id = limit.budgetID
  reservation_budget : ∀ row ∈ ledger.reservations.rows, ∃ budget ∈ ledger.budgets.rows,
    budget.id = row.budgetID
  intent_reservation : ∀ intent ∈ ledger.intents.rows, ∃ row ∈ ledger.reservations.rows,
    row.id = intent.reservationID ∧ row.budgetID = intent.budgetID
  posting_reservation : ∀ posting ∈ ledger.postings.rows, ∃ row ∈ ledger.reservations.rows,
    row.id = posting.reservationID ∧ row.budgetID = posting.budgetID ∧
      row.category = posting.category ∧ row.state = .committed

/-! ### Commitments -/

namespace Ledger

section

variable (ledger : Ledger engine)

/-- The charges posted for a reservation. -/
def postedAmount (reservationID : String) : ℚ :=
  ((ledger.postings.rows.filter fun row => decide (row.reservationID = reservationID)).map
    fun row => exactCostRat row.chargedCost).sum

/-- What a reservation may still cost. -/
def commitment (row : ReservationRow) : ℚ :=
  if ledger.posted row.id then ledger.postedAmount row.id
  else if row.state = .active ∨ ledger.hasIntent row.id then exactCostRat row.costBound
  else 0

/-- What the reservations of a budget may still cost. -/
def committed (budgetID : BudgetID) : ℚ :=
  (ledger.reservations.rows.map fun row =>
    if row.budgetID = budgetID then ledger.commitment row else 0).sum

/-- The exact amount that a snapshot reports as reserved or charged. -/
def exposure (budget : BudgetRow) : ℚ :=
  ledger.reservedAmount budget + ledger.chargedAmount budget

/-- What the query of active reservations finds for one reservation. -/
def reportedActive (budgetID : BudgetID) (row : ReservationRow) : ℚ :=
  if row.budgetID = budgetID ∧ row.state = .active ∧ ledger.pending row.id = false then
    exactCostRat row.costBound
  else 0

/-- What the query of pending intents finds for one reservation. -/
def reportedPending (budgetID : BudgetID) (row : ReservationRow) : ℚ :=
  (((ledger.intents.rows.filter fun intent =>
      decide (intent.budgetID = budgetID ∧ ledger.posted intent.reservationID = false)).filter
    fun intent => decide (intent.reservationID = row.id)).map fun intent =>
      exactCostRat (pendingCost intent row)).sum

/-- What the query of postings finds for one reservation. -/
def reportedPosted (budgetID : BudgetID) (row : ReservationRow) : ℚ :=
  (((ledger.postings.rows.filter fun posting => decide (posting.budgetID = budgetID)).filter
    fun posting => decide (posting.reservationID = row.id)).map fun posting =>
      exactCostRat posting.chargedCost).sum

end

end Ledger

/-- A sum over joined rows, regrouped by reservation. -/
theorem sum_joinReservation {α : Type} (ledger : Ledger engine) (time : α → Int)
    (id reservationID : α → String) (f : α → ReservationRow → ℚ) (rows : List α) :
    ((ledger.joinReservation reservationID (orderBy time id rows)).map
        fun p => f p.1 p.2).sum =
      (ledger.reservations.rows.map fun row =>
        ((rows.filter fun a => decide (reservationID a = row.id)).map (f · row)).sum).sum := by
  rw [← sum_join (·.id) reservationID f _ reservation_ids_nodup rows]
  exact (((orderBy_perm time id rows).filterMap _).map _).sum_eq

/-- The exposure of a budget is what the queries find, reservation by reservation, and the legacy
aggregate. -/
theorem exposure_eq_reported (budget : BudgetRow) :
    ledger.exposure budget = budget.reservedCostMinor + budget.actualCostMinor +
      (ledger.reservations.rows.map fun row => ledger.reportedActive budget.id row +
        ledger.reportedPending budget.id row + ledger.reportedPosted budget.id row).sum := by
  have hactive : ((ledger.activeReservations budget.id).map fun row =>
        exactCostRat row.costBound).sum =
      (ledger.reservations.rows.map (ledger.reportedActive budget.id)).sum := by
    rw [activeReservations, ((orderBy_perm _ _ _).map _).sum_eq, sum_filter]
    simp only [decide_eq_true_eq]
    rfl
  have hpending : ((ledger.pendingIntents budget.id).map fun row =>
        exactCostRat (pendingCharge row).cost).sum =
      (ledger.reservations.rows.map (ledger.reportedPending budget.id)).sum :=
    sum_joinReservation ledger IntentRow.createdAt IntentRow.id IntentRow.reservationID
      (fun intent row => exactCostRat (pendingCost intent row)) _
  have hposted : ((ledger.usagePostings budget.id).map fun row =>
        exactCostRat (postedCharge row).cost).sum =
      (ledger.reservations.rows.map (ledger.reportedPosted budget.id)).sum :=
    sum_joinReservation ledger PostingRow.createdAt PostingRow.id PostingRow.reservationID
      (fun posting _ => exactCostRat posting.chargedCost) _
  have hcharges : ((ledger.charges budget.id).map fun x => exactCostRat x.cost).sum =
      ((ledger.pendingIntents budget.id).map fun row =>
        exactCostRat (pendingCharge row).cost).sum +
      ((ledger.usagePostings budget.id).map fun row =>
        exactCostRat (postedCharge row).cost).sum := by
    simp only [charges, map_append, sum_append, map_map]
    rfl
  simp only [Ledger.exposure, reservedAmount, chargedAmount, hcharges, hactive,
    hpending, hposted, sum_map_add]
  ring

section Pointwise

variable {budgetID : BudgetID} {row : ReservationRow}

theorem Ledger.posted_iff :
    ledger.posted id = true ↔ ∃ posting ∈ ledger.postings.rows, posting.reservationID = id := by
  simp [posted]

theorem Ledger.hasIntent_iff :
    ledger.hasIntent id = true ↔ ∃ intent ∈ ledger.intents.rows, intent.reservationID = id := by
  simp [hasIntent]

theorem Ledger.pending_iff :
    ledger.pending id = true ↔ ledger.hasIntent id = true ∧ ledger.posted id = false := by
  simp [pending]

theorem Ledger.Linked.intent_budget (hl : ledger.Linked) {intent : IntentRow}
    (hi : intent ∈ ledger.intents.rows) (hr : row ∈ ledger.reservations.rows)
    (h : intent.reservationID = row.id) : intent.budgetID = row.budgetID := by
  obtain ⟨other, hother, hid, hbudget⟩ := hl.intent_reservation intent hi
  rw [← hbudget, ledger.reservation_eq hother hr (hid.trans h)]

theorem Ledger.Linked.posting_budget (hl : ledger.Linked) {posting : PostingRow}
    (hp : posting ∈ ledger.postings.rows) (hr : row ∈ ledger.reservations.rows)
    (h : posting.reservationID = row.id) :
    posting.budgetID = row.budgetID ∧ row.state = .committed := by
  obtain ⟨other, hother, hid, hbudget, _, hstate⟩ := hl.posting_reservation posting hp
  obtain rfl := ledger.reservation_eq hother hr (hid.trans h)
  exact ⟨hbudget.symm, hstate⟩

/-- A sum over the rows that meet two conditions, the second decided for all by the first. -/
theorem sum_filter_filter {α : Type} {rows : List α} {p q : α → Bool} {c : Prop} [Decidable c]
    (f : α → ℚ) (h : ∀ a ∈ rows, p a = true → (q a = true ↔ c)) :
    (((rows.filter q).filter p).map f).sum = if c then ((rows.filter p).map f).sum else 0 := by
  rw [filter_filter]
  split_ifs with hc
  · congr 2
    refine filter_congr fun a ha => ?_
    cases hp : p a with
    | false => rfl
    | true => exact (h a ha hp).2 hc
  · rw [filter_eq_nil_iff.2 fun a ha hboth => ?_]
    · rfl
    · rw [Bool.and_eq_true] at hboth
      exact hc ((h a ha hboth.1).1 hboth.2)

theorem postedAmount_of_not_posted (h : ledger.posted id = false) : ledger.postedAmount id = 0 := by
  have hnone : (ledger.postings.rows.filter fun posting => decide (posting.reservationID = id)) =
      [] := by
    simpa [posted] using h
  rw [postedAmount, hnone]
  rfl

theorem intents_eq_singleton {intent : IntentRow} (hi : intent ∈ ledger.intents.rows)
    (hid : intent.reservationID = id) :
    (ledger.intents.rows.filter fun intent => decide (intent.reservationID = id)) = [intent] :=
  Table.filter_eq_singleton hi (by simpa using hid) (by simp +contextual [intentSchema])

theorem intents_of_not_hasIntent (h : ledger.hasIntent id = false) :
    (ledger.intents.rows.filter fun intent => decide (intent.reservationID = id)) = [] := by
  simpa [hasIntent] using h

variable (hl : ledger.Linked) (hr : row ∈ ledger.reservations.rows)

include hl hr

theorem reportedPending_eq :
    ledger.reportedPending budgetID row =
      if row.budgetID = budgetID ∧ ledger.posted row.id = false then
        ((ledger.intents.rows.filter fun intent => decide (intent.reservationID = row.id)).map
          fun intent => exactCostRat (pendingCost intent row)).sum
      else 0 :=
  sum_filter_filter _ fun intent hi hid => by
    rw [decide_eq_true_eq] at hid
    simp [hid, hl.intent_budget hi hr hid]

theorem reportedPosted_eq :
    ledger.reportedPosted budgetID row =
      if row.budgetID = budgetID then ledger.postedAmount row.id else 0 :=
  sum_filter_filter _ fun posting hp hid => by
    simp [(hl.posting_budget hp hr (of_decide_eq_true hid)).1]

/-- Without a pending intent, what the queries find for a reservation is its commitment. -/
theorem reported_eq_commitment (hpending : ledger.pending row.id = false) :
    ledger.reportedActive budgetID row + ledger.reportedPending budgetID row +
        ledger.reportedPosted budgetID row =
      if row.budgetID = budgetID then ledger.commitment row else 0 := by
  rw [reportedPending_eq hl hr, reportedPosted_eq hl hr]
  unfold reportedActive commitment
  by_cases hb : row.budgetID = budgetID
  · cases hposted : ledger.posted row.id with
    | true =>
      obtain ⟨posting, hp, hid⟩ := posted_iff.1 hposted
      simp [hb, (hl.posting_budget hp hr hid).2]
    | false =>
      have hintent : ledger.hasIntent row.id = false := by
        simpa [pending, hposted] using hpending
      simp [hb, hintent, hpending, intents_of_not_hasIntent hintent,
        postedAmount_of_not_posted hposted]
  · simp [hb]

/-- With a pending intent, the queries find what was billed, and the commitment is the bound. -/
theorem reported_eq_billed (budgetID : BudgetID) (hpending : ledger.pending row.id = true) :
    ∃ intent ∈ ledger.intents.rows, intent.reservationID = row.id ∧
      ledger.reportedActive budgetID row + ledger.reportedPending budgetID row +
          ledger.reportedPosted budgetID row =
        (if row.budgetID = budgetID then exactCostRat (pendingCost intent row) else 0) ∧
      ledger.commitment row = exactCostRat row.costBound := by
  obtain ⟨hintent, hposted⟩ := pending_iff.1 hpending
  obtain ⟨intent, hi, hid⟩ := hasIntent_iff.1 hintent
  refine ⟨intent, hi, hid, ?_, ?_⟩
  · rw [reportedPending_eq hl hr, reportedPosted_eq hl hr]
    unfold reportedActive
    by_cases hb : row.budgetID = budgetID
    · simp [hb, hpending, hposted, intents_eq_singleton hi hid, postedAmount_of_not_posted hposted]
    · simp [hb]
  · simp [commitment, hposted, hintent]

end Pointwise

/-! ### Exposure and commitment -/

/-- Every intent bills at most the bound of its reservation. -/
def Ledger.BilledWithinBound (ledger : Ledger engine) : Prop :=
  ∀ intent ∈ ledger.intents.rows, ∀ row ∈ ledger.reservations.rows,
    intent.reservationID = row.id →
      exactCostRat (pendingCost intent row) ≤ exactCostRat row.costBound

/-- The exposure is at most what the reservations may still cost, with the legacy aggregate. -/
theorem exposure_le_committed (hl : ledger.Linked) (hb : ledger.BilledWithinBound)
    (budget : BudgetRow) :
    ledger.exposure budget ≤
      budget.reservedCostMinor + budget.actualCostMinor + ledger.committed budget.id := by
  rw [exposure_eq_reported, add_le_add_iff_left]
  refine sum_le_sum fun row hr => ?_
  cases hpending : ledger.pending row.id with
  | false => exact (reported_eq_commitment hl hr hpending).le
  | true =>
    obtain ⟨intent, hi, hid, hreported, hcommitment⟩ :=
      reported_eq_billed hl hr budget.id hpending
    rw [hreported, hcommitment]
    split_ifs
    · exact hb intent hi row hr hid
    · exact le_rfl

/-- When nothing is pending, the exposure is what the reservations may still cost, with the legacy
aggregate. -/
theorem exposure_eq_committed (hl : ledger.Linked) (budget : BudgetRow)
    (hnone : ledger.pendingIntents budget.id = []) :
    ledger.exposure budget =
      budget.reservedCostMinor + budget.actualCostMinor + ledger.committed budget.id := by
  rw [exposure_eq_reported]
  congr 2
  refine map_congr_left fun row hr => ?_
  by_cases hb : row.budgetID = budget.id
  · refine reported_eq_commitment hl hr ?_
    by_contra hpending
    rw [Bool.not_eq_false] at hpending
    obtain ⟨hintent, hposted⟩ := pending_iff.1 hpending
    obtain ⟨intent, hi, hid⟩ := hasIntent_iff.1 hintent
    have hmem : (intent, row) ∈ ledger.pendingIntents budget.id := by
      simp only [pendingIntents, joinReservation, mem_filterMap, mem_orderBy,
        mem_filter, decide_eq_true_eq, Option.map_eq_some_iff]
      exact ⟨intent, ⟨hi, (hl.intent_budget hi hr hid).trans hb, by rw [hid]; exact hposted⟩, row,
        findReservation_iff.2 ⟨hr, hid.symm⟩, rfl⟩
    rw [hnone] at hmem
    cases hmem
  · cases hpending : ledger.pending row.id with
    | false => exact reported_eq_commitment hl hr hpending
    | true =>
      obtain ⟨intent, _, _, hreported, _⟩ := reported_eq_billed hl hr budget.id hpending
      rw [hreported, if_neg hb, if_neg hb]

end Codeflux.Storage
