import Codeflux.Storage.Budget.Links

/-!
# What a transaction leaves alone

A transaction on one budget changes no row of another, so the snapshots of the other budgets stay as
they were.
-/

namespace Codeflux.Storage

open Library Go Domain List Ledger

variable {engine : Engine} {ledger ledger' mid : Ledger engine} {budgetID : BudgetID}

namespace Ledger

/-- A budget's reservations. -/
def reservationsOf (ledger : Ledger engine) (budgetID : BudgetID) : List ReservationRow :=
  ledger.reservations.rows.filter fun row => decide (row.budgetID = budgetID)

/-- A budget's intents. -/
def intentsOf (ledger : Ledger engine) (budgetID : BudgetID) : List IntentRow :=
  ledger.intents.rows.filter fun row => decide (row.budgetID = budgetID)

/-- A budget's postings. -/
def postingsOf (ledger : Ledger engine) (budgetID : BudgetID) : List PostingRow :=
  ledger.postings.rows.filter fun row => decide (row.budgetID = budgetID)

theorem mem_reservationsOf {row : ReservationRow} :
    row ∈ ledger.reservationsOf budgetID ↔
      row ∈ ledger.reservations.rows ∧ row.budgetID = budgetID := by
  simp [reservationsOf]

theorem mem_intentsOf {row : IntentRow} :
    row ∈ ledger.intentsOf budgetID ↔ row ∈ ledger.intents.rows ∧ row.budgetID = budgetID := by
  simp [intentsOf]

end Ledger

/-- The two ledgers hold the same rows of one budget. -/
structure SameBudget (ledger ledger' : Ledger engine) (budgetID : BudgetID) : Prop where
  budget : ledger'.findBudget budgetID = ledger.findBudget budgetID
  limits : ledger'.limitsOf budgetID = ledger.limitsOf budgetID
  reservations : ledger'.reservationsOf budgetID = ledger.reservationsOf budgetID
  intents : ledger'.intentsOf budgetID = ledger.intentsOf budgetID
  postings : ledger'.postingsOf budgetID = ledger.postingsOf budgetID

namespace SameBudget

variable {row : ReservationRow}

theorem any_eq_any_filter {α : Type} {rows : List α} {p q : α → Prop} [DecidablePred p]
    [DecidablePred q] (h : ∀ a ∈ rows, q a → p a) :
    (rows.any fun a => q a) = (rows.filter fun a => p a).any fun a => q a := by
  rw [Bool.eq_iff_iff]
  simp only [any_filter, any_eq_true, Bool.and_eq_true, decide_eq_true_eq]
  exact exists_congr fun a => and_congr_right fun ha => (and_iff_right_of_imp (h a ha)).symm

/-- Whether a reservation is billed is decided by the intents of its own budget. -/
theorem hasIntent_eq (hl : ledger.Linked) (hr : row ∈ ledger.reservations.rows) :
    ledger.hasIntent row.id =
      (ledger.intentsOf row.budgetID).any fun intent => decide (intent.reservationID = row.id) :=
  any_eq_any_filter fun _ hi => hl.intent_budget hi hr

theorem posted_eq (hl : ledger.Linked) (hr : row ∈ ledger.reservations.rows) :
    ledger.posted row.id =
      (ledger.postingsOf row.budgetID).any fun posting =>
        decide (posting.reservationID = row.id) :=
  any_eq_any_filter fun _ hp hid => (hl.posting_budget hp hr hid).1

theorem filter_and_congr {α : Type} {rows rows' : List α} {p q q' : α → Prop} [DecidablePred p]
    [DecidablePred q] [DecidablePred q']
    (hrows : (rows'.filter fun a => p a) = rows.filter fun a => p a)
    (h : ∀ a ∈ rows.filter fun a => p a, (q' a ↔ q a)) :
    (rows'.filter fun a => decide (p a ∧ q' a)) = rows.filter fun a => decide (p a ∧ q a) := by
  simp only [Bool.decide_and, Bool.and_comm (decide (p _)), ← filter_filter, hrows]
  exact filter_congr fun a ha => decide_eq_decide.2 (h a ha)

variable (h : SameBudget ledger ledger' budgetID) (hl : ledger.Linked) (hl' : ledger'.Linked)

include h

theorem mem_reservations (hbudget : row.budgetID = budgetID) :
    row ∈ ledger'.reservations.rows ↔ row ∈ ledger.reservations.rows := by
  have := congrArg (row ∈ ·) h.reservations
  simpa [mem_reservationsOf, hbudget] using this

theorem findReservation (hr : row ∈ ledger.reservations.rows) (hbudget : row.budgetID = budgetID) :
    ledger'.findReservation row.id = ledger.findReservation row.id := by
  rw [findReservation_iff.2 ⟨hr, rfl⟩,
    findReservation_iff.2 ⟨(h.mem_reservations hbudget).2 hr, rfl⟩]

include hl hl'

theorem posted (hr : row ∈ ledger.reservations.rows) (hbudget : row.budgetID = budgetID) :
    ledger'.posted row.id = ledger.posted row.id := by
  rw [posted_eq hl hr, posted_eq hl' ((h.mem_reservations hbudget).2 hr), hbudget, h.postings]

theorem pending (hr : row ∈ ledger.reservations.rows) (hbudget : row.budgetID = budgetID) :
    ledger'.pending row.id = ledger.pending row.id := by
  unfold Ledger.pending
  rw [h.posted hl hl' hr hbudget, hasIntent_eq hl hr,
    hasIntent_eq hl' ((h.mem_reservations hbudget).2 hr), hbudget, h.intents]

theorem activeReservations :
    ledger'.activeReservations budgetID = ledger.activeReservations budgetID := by
  unfold Ledger.activeReservations
  refine congrArg (orderBy _ _) (filter_and_congr h.reservations fun row hr => ?_)
  obtain ⟨hmem, hbudget⟩ := mem_reservationsOf.1 hr
  rw [h.pending hl hl' hmem hbudget]

theorem pendingIntents : ledger'.pendingIntents budgetID = ledger.pendingIntents budgetID := by
  have hreservation : ∀ intent ∈ ledger.intentsOf budgetID, ∃ row ∈ ledger.reservations.rows,
      row.id = intent.reservationID ∧ row.budgetID = budgetID := by
    intro intent hi
    obtain ⟨hmem, hbudget⟩ := mem_intentsOf.1 hi
    obtain ⟨row, hr, hid, hrow⟩ := hl.intent_reservation intent hmem
    exact ⟨row, hr, hid, hrow.trans hbudget⟩
  unfold Ledger.pendingIntents Ledger.joinReservation
  refine (congrArg (filterMap _) (congrArg (orderBy _ _)
    (filter_and_congr h.intents fun intent hi => ?_))).trans
      (filterMap_congr fun intent hi => ?_)
  · obtain ⟨row, hr, hid, hbudget⟩ := hreservation intent hi
    rw [← hid, h.posted hl hl' hr hbudget]
  · simp only [mem_orderBy, mem_filter, decide_eq_true_eq] at hi
    obtain ⟨row, hr, hid, hbudget⟩ := hreservation intent (mem_intentsOf.2 ⟨hi.1, hi.2.1⟩)
    simp [← hid, h.findReservation hr hbudget]

omit hl' in
theorem usagePostings : ledger'.usagePostings budgetID = ledger.usagePostings budgetID := by
  unfold Ledger.usagePostings Ledger.joinReservation
  have hpostings := h.postings
  unfold Ledger.postingsOf at hpostings
  rw [hpostings]
  refine filterMap_congr fun posting hp => ?_
  simp only [mem_orderBy, mem_filter, decide_eq_true_eq] at hp
  obtain ⟨row, hr, hid, hrow, _⟩ := hl.posting_reservation posting hp.1
  simp [← hid, h.findReservation hr (hrow.trans hp.2)]

/-- **A snapshot reads only the rows of its budget.** -/
theorem computeBudgetSnapshot :
    Storage.computeBudgetSnapshot ledger' budgetID =
      Storage.computeBudgetSnapshot ledger budgetID := by
  have hlimit : ledger'.latestLimit budgetID = ledger.latestLimit budgetID := by
    unfold Ledger.latestLimit
    rw [h.limits]
  unfold Storage.computeBudgetSnapshot
  rw [h.budget, hlimit]
  cases hbudget : ledger.findBudget budgetID with
  | none => rfl
  | some budget =>
    have hid := (findBudget_id hbudget).2
    have hload : ∀ currency, loadBudgetCategorySnapshots ledger' budget currency =
        loadBudgetCategorySnapshots ledger budget currency := by
      intro currency
      unfold loadBudgetCategorySnapshots
      rw [hid, h.activeReservations hl hl', h.pendingIntents hl hl', h.usagePostings hl]
    cases ledger.latestLimit budgetID with
    | none => rfl
    | some limit => simp only [hload]

end SameBudget

section Writes

variable {other : BudgetID} {micros : Int} {snapshot : BudgetSnapshot}

variable {expected : Nat}

theorem advanceRow_of_ne {row : BudgetRow} (h : row.id ≠ budgetID) :
    advanceRow budgetID expected micros row = row :=
  if_neg fun hboth => h hboth.1

theorem findBudget_advance {budgets : Table budgetSchema}
    (hrows : budgets.rows = ledger.budgets.rows.map (advanceRow budgetID expected micros))
    (h : budgetID ≠ other) :
    Ledger.findBudget { ledger with budgets } other = ledger.findBudget other := by
  rw [findBudget_map hrows (advanceRow_id expected)]
  cases hfind : ledger.findBudget other with
  | none => rfl
  | some row =>
    have hid := (findBudget_id hfind).2
    rw [Option.map_some, advanceRow_of_ne (by rw [hid]; exact h.symm)]

theorem filter_append_of_ne {α : Type} {rows rows' : List α} {row : α} (owner : α → BudgetID)
    (hrows : rows' = rows ++ [row]) (h : owner row ≠ other) :
    (rows'.filter fun x => decide (owner x = other)) =
      rows.filter fun x => decide (owner x = other) := by
  simp [hrows, h]

theorem filter_closeRow {rows : List ReservationRow} {reservation : ReservationRow}
    {state : BudgetReservationState} {reason json : String}
    (hrows : rows = ledger.reservations.rows.map (closeRow reservation state reason json micros))
    (hmem : reservation ∈ ledger.reservations.rows) (h : reservation.budgetID ≠ other) :
    (rows.filter fun x => decide (x.budgetID = other)) = ledger.reservationsOf other := by
  have hcomp : ((fun x : ReservationRow => decide (x.budgetID = other)) ∘
      closeRow reservation state reason json micros) =
      fun x => decide (x.budgetID = other) := by
    funext x
    simp
  rw [hrows, filter_map, hcomp]
  refine (map_congr_left fun row hr => ?_).trans (map_id _)
  obtain ⟨hrow, hbudget⟩ := mem_reservationsOf.1 hr
  refine closeRow_of_ne fun hid => h ?_
  rw [← ledger.reservation_eq hrow hmem hid, hbudget]

theorem Persisted.sameBudget (hp : Persisted mid ledger' budgetID micros snapshot)
    (other : BudgetID) : SameBudget mid ledger' other := by
  rw [hp.rest]
  exact ⟨rfl, rfl, rfl, rfl, rfl⟩

end Writes

end Codeflux.Storage
