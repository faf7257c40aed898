import Codeflux.Library.Run
import Codeflux.Storage.Budget.Commitment
import Codeflux.Storage.Budget.Effects

/-!
# Runs of the ledger

A run starts from the empty database and takes transactions one after another, each at its own clock
reading; a failed transaction leaves the database as it was.
-/

namespace Codeflux.Storage

open Library Go Domain List

variable {engine : Engine} {ledger ledger' : Ledger engine}

/-- The state after a transaction. -/
def Operation.run (ledger : Ledger engine) (micros : Int) (operation : Operation) : Ledger engine :=
  settled ledger (operation.apply ledger micros)

/-- The states reached from the empty database by transactions that meet a condition. -/
def LedgerReachable (engine : Engine) (allowed : Ledger engine → Operation → Prop) :
    Ledger engine → Prop :=
  Reachable (· = Ledger.empty engine) fun ledger ledger' =>
    ∃ operation micros, allowed ledger operation ∧ ledger' = operation.run ledger micros

/-- The state after a list of transactions, each at its clock reading. -/
def runAll (ledger : Ledger engine) : List (Operation × Int) → Ledger engine
  | [] => ledger
  | (operation, micros) :: rest => runAll (operation.run ledger micros) rest

/-- Each transaction of the list meets the condition in the state it finds. -/
def AllowedRun (allowed : Ledger engine → Operation → Prop) (ledger : Ledger engine) :
    List (Operation × Int) → Prop
  | [] => True
  | (operation, micros) :: rest =>
    allowed ledger operation ∧ AllowedRun allowed (operation.run ledger micros) rest

instance AllowedRun.decidable (allowed : Ledger engine → Operation → Prop)
    [∀ ledger operation, Decidable (allowed ledger operation)] (ledger : Ledger engine) :
    (operations : List (Operation × Int)) → Decidable (AllowedRun allowed ledger operations)
  | [] => isTrue trivial
  | (operation, micros) :: rest =>
    have := AllowedRun.decidable allowed (operation.run ledger micros) rest
    inferInstanceAs (Decidable (allowed ledger operation ∧
      AllowedRun allowed (operation.run ledger micros) rest))

variable {allowed : Ledger engine → Operation → Prop}

theorem LedgerReachable.runAll {operations : List (Operation × Int)}
    (h : LedgerReachable engine allowed ledger) (hrun : AllowedRun allowed ledger operations) :
    LedgerReachable engine allowed (runAll ledger operations) := by
  induction operations generalizing ledger with
  | nil => exact h
  | cons first rest ih => exact ih (.step h ⟨first.1, first.2, hrun.1, rfl⟩) hrun.2

/-- **Invariant rule for the ledger.** It is enough that the empty database has the property and
that each committed transaction keeps it. -/
theorem LedgerReachable.invariant {I : Ledger engine → Prop}
    (h : LedgerReachable engine allowed ledger) (start : I (Ledger.empty engine))
    (keep : ∀ ledger ledger' operation micros, I ledger → allowed ledger operation →
      Changes ledger micros operation ledger' → I ledger') : I ledger := by
  refine Reachable.invariant h (by rintro _ rfl; exact start) ?_
  rintro s t hs ⟨operation, micros, hallowed, rfl⟩
  rcases settled_cases s (operation.apply s micros) with hsame | hok
  · rwa [Operation.run, hsame]
  · exact keep s _ operation micros hs hallowed (Operation.apply_changes hok)

/-! ### Closing a reservation -/

section CloseRow

variable {reservation row : ReservationRow} {state : BudgetReservationState}
  {reason provenanceJSON : String} {micros : Int}

@[simp] theorem closeRow_keeps :
    let row' := closeRow reservation state reason provenanceJSON micros row
    row'.id = row.id ∧ row'.budgetID = row.budgetID ∧ row'.category = row.category ∧
      row'.costBound = row.costBound := by
  unfold closeRow
  split_ifs <;> exact ⟨rfl, rfl, rfl, rfl⟩

theorem closeRow_of_ne (h : row.id ≠ reservation.id) :
    closeRow reservation state reason provenanceJSON micros row = row :=
  if_neg fun hall => h hall.1

theorem closeRow_self (h : reservation.state = .active) :
    (closeRow reservation state reason provenanceJSON micros reservation).state = state := by
  simp [closeRow, h]

theorem closeRow_of_committed (h : row.state = .committed) :
    closeRow reservation state reason provenanceJSON micros row = row :=
  if_neg fun hall => by rw [h] at hall; cases hall.2.1

end CloseRow

/-! ### References -/

variable {micros : Int} {reservation : ReservationRow}

namespace Ledger.Linked

variable {budgets : Table budgetSchema} {reservations : Table (reservationSchema engine)}

/-- The references survive when rows are only added, or updated in columns that no reference
uses. -/
theorem extend (hl : ledger.Linked)
    (hbudgets : ∀ budget ∈ ledger.budgets.rows, ∃ budget' ∈ budgets.rows, budget'.id = budget.id)
    (hreservations : ∀ row ∈ ledger.reservations.rows, ∃ row' ∈ reservations.rows,
      row'.id = row.id ∧ row'.budgetID = row.budgetID ∧ row'.category = row.category ∧
        (row.state = .committed → row'.state = .committed))
    (hreservation : ∀ row' ∈ reservations.rows,
      (∃ row ∈ ledger.reservations.rows, row.budgetID = row'.budgetID) ∨
        ∃ budget ∈ budgets.rows, budget.id = row'.budgetID) :
    Ledger.Linked { ledger with budgets, reservations } := by
  constructor
  · intro limit hmem
    obtain ⟨budget, hb, hid⟩ := hl.limit_budget limit hmem
    obtain ⟨budget', hb', hid'⟩ := hbudgets budget hb
    exact ⟨budget', hb', hid'.trans hid⟩
  · intro row' hmem
    rcases hreservation row' hmem with ⟨row, hr, hid⟩ | hnew
    · obtain ⟨budget, hb, hbid⟩ := hl.reservation_budget row hr
      obtain ⟨budget', hb', hid'⟩ := hbudgets budget hb
      exact ⟨budget', hb', hid'.trans (hbid.trans hid)⟩
    · exact hnew
  · intro intent hmem
    obtain ⟨row, hr, hid, hbudget⟩ := hl.intent_reservation intent hmem
    obtain ⟨row', hr', hid', hbudget', _⟩ := hreservations row hr
    exact ⟨row', hr', hid'.trans hid, hbudget'.trans hbudget⟩
  · intro posting hmem
    obtain ⟨row, hr, hid, hbudget, hcategory, hstate⟩ := hl.posting_reservation posting hmem
    obtain ⟨row', hr', hid', hbudget', hcategory', hstate'⟩ := hreservations row hr
    exact ⟨row', hr', hid'.trans hid, hbudget'.trans hbudget, hcategory'.trans hcategory,
      hstate' hstate⟩

theorem empty : (Ledger.empty engine).Linked := by
  constructor <;> rintro _ ⟨⟩

theorem persisted {budgetID : BudgetID} {snapshot : BudgetSnapshot}
    (h : Persisted ledger ledger' budgetID micros snapshot) (hl : ledger.Linked) :
    ledger'.Linked := by
  rw [h.rest]
  exact { hl with }

section

variable (hl : ledger.Linked)

include hl

theorem mapBudgets {change : BudgetRow → BudgetRow}
    (hrows : budgets.rows = ledger.budgets.rows.map change) (hid : ∀ row, (change row).id = row.id)
    : Ledger.Linked { ledger with budgets } := by
  refine hl.extend (fun budget hb => ⟨change budget, ?_, hid budget⟩)
    (fun row hr => ⟨row, hr, rfl, rfl, rfl, id⟩) (fun row hr => .inl ⟨row, hr, rfl⟩)
  rw [hrows]
  exact mem_map_of_mem hb

theorem addReservation {row : ReservationRow}
    (hrows : reservations.rows = ledger.reservations.rows ++ [row])
    (hbudget : ∃ budget ∈ ledger.budgets.rows, budget.id = row.budgetID) :
    Ledger.Linked { ledger with reservations } := by
  refine hl.extend (fun budget hb => ⟨budget, hb, rfl⟩)
    (fun old ho => ⟨old, ?_, rfl, rfl, rfl, id⟩) (fun new hn => ?_)
  · rw [hrows]
    exact mem_append_left _ ho
  · rw [hrows, mem_append, mem_singleton] at hn
    rcases hn with hold | rfl
    · exact .inl ⟨new, hold, rfl⟩
    · exact .inr hbudget

theorem closeReservation {state : BudgetReservationState} {reason json : String}
    (hrows : reservations.rows =
      ledger.reservations.rows.map (closeRow reservation state reason json micros)) :
    Ledger.Linked { ledger with reservations } := by
  refine hl.extend (fun budget hb => ⟨budget, hb, rfl⟩) (fun old ho =>
      ⟨closeRow reservation state reason json micros old, ?_, closeRow_keeps.1,
        closeRow_keeps.2.1, closeRow_keeps.2.2.1, fun hcommitted => ?_⟩) (fun new hn => .inl ?_)
  · rw [hrows]
    exact mem_map_of_mem ho
  · rw [closeRow_of_committed hcommitted, hcommitted]
  · rw [hrows, mem_map] at hn
    obtain ⟨old, ho, rfl⟩ := hn
    exact ⟨old, ho, closeRow_keeps.2.1.symm⟩

theorem addPosting {postings : Table (postingSchema engine)} {posting : PostingRow}
    (hrows : postings.rows = ledger.postings.rows ++ [posting])
    (hreservation : ∃ row ∈ ledger.reservations.rows, row.id = posting.reservationID ∧
      row.budgetID = posting.budgetID ∧ row.category = posting.category ∧
        row.state = .committed) : Ledger.Linked { ledger with postings } := by
  refine { hl with posting_reservation := ?_ }
  simp only [hrows, forall_mem_append, forall_mem_singleton]
  exact ⟨hl.posting_reservation, hreservation⟩

theorem addIntent {intents : Table (intentSchema engine)} {intent : IntentRow}
    (hrows : intents.rows = ledger.intents.rows ++ [intent])
    (hreservation : ∃ row ∈ ledger.reservations.rows, row.id = intent.reservationID ∧
      row.budgetID = intent.budgetID) : Ledger.Linked { ledger with intents } := by
  refine { hl with intent_reservation := ?_ }
  simp only [hrows, forall_mem_append, forall_mem_singleton]
  exact ⟨hl.intent_reservation, hreservation⟩

theorem addLimit {limits : Table (limitSchema engine)}
    {limit : LimitRow} (hrows : limits.rows = ledger.limits.rows ++ [limit])
    (hbudget : ∃ budget ∈ ledger.budgets.rows, budget.id = limit.budgetID) :
    Ledger.Linked { ledger with limits } := by
  refine { hl with limit_budget := ?_ }
  simp only [hrows, forall_mem_append, forall_mem_singleton]
  exact ⟨hl.limit_budget, hbudget⟩

theorem addBudget {budget : BudgetRow} (hrows : budgets.rows = ledger.budgets.rows ++ [budget]) :
    Ledger.Linked { ledger with budgets } := by
  refine hl.extend (fun old ho => ⟨old, ?_, rfl⟩) (fun row hr => ⟨row, hr, rfl, rfl, rfl, id⟩)
    (fun row hr => .inl ⟨row, hr, rfl⟩)
  rw [hrows]
  exact mem_append_left _ ho

end

end Ledger.Linked

/-- A reservation identifier that the table can still take in was never used. -/
theorem Ledger.Linked.fresh (hl : ledger.Linked) {row : ReservationRow}
    (h : ledger.reservations.Admits row) :
    ledger.posted row.id = false ∧ ledger.hasIntent row.id = false := by
  have hnew : ∀ other ∈ ledger.reservations.rows, other.id ≠ row.id := by
    intro other ho hid
    have := h.2 other ho
    simp [reservationSchema, hid] at this
  constructor
  · rw [← Bool.not_eq_true, Ledger.posted_iff]
    rintro ⟨posting, hp, hid⟩
    obtain ⟨other, ho, hother, _⟩ := hl.posting_reservation posting hp
    exact hnew other ho (hother.trans hid)
  · rw [← Bool.not_eq_true, Ledger.hasIntent_iff]
    rintro ⟨intent, hi, hid⟩
    obtain ⟨other, ho, hother, _⟩ := hl.intent_reservation intent hi
    exact hnew other ho (hother.trans hid)

theorem Changes.linked {operation : Operation} (h : Changes ledger micros operation ledger')
    (hl : ledger.Linked) : ledger'.Linked := by
  cases h with
  | unchanged => exact hl
  | created _ _ hlimit _ hbudgets hlimits _ hrest =>
    rw [hrest]
    have hl := (hl.addBudget hbudgets).addLimit hlimits ⟨_, by simp [hbudgets], hlimit.symm⟩
    exact { hl with }
  | reserved _ hbudget _ _ hrows hbudgets hp =>
    obtain ⟨hmem, hid⟩ := Ledger.findBudget_id hbudget
    exact .persisted hp ((hl.addReservation hrows ⟨_, hmem, hid⟩).mapBudgets hbudgets
      (advanceRow_id _))
  | settled _ hfind hactive hrows hpostings hbudgets hp =>
    -- the posting refers to the row that the settlement commits
    refine .persisted hp (((hl.closeReservation hrows).addPosting hpostings ?_).mapBudgets hbudgets
      (advanceRow_id _))
    simp only [hrows, mem_map, exists_exists_and_eq_and]
    exact ⟨_, (Ledger.findReservation_id hfind).1, closeRow_keeps.1, closeRow_keeps.2.1,
      closeRow_keeps.2.2.1, closeRow_self hactive⟩
  | released _ _ hrows hbudgets hp =>
    exact .persisted hp ((hl.closeReservation hrows).mapBudgets hbudgets (advanceRow_id _))
  | intended _ hfind _ _ _ hintents hbudgets hp =>
    have hmem := (Ledger.findReservation_id hfind).1
    exact .persisted hp ((hl.addIntent hintents ⟨_, hmem, rfl, rfl⟩).mapBudgets hbudgets
      (advanceRow_id _))
  | raised hcurrent _ hlimits hbudgets hp =>
    obtain ⟨budget, limit, hdescribes⟩ := computeBudgetSnapshot_ok hcurrent
    obtain ⟨hmem, hid⟩ := Ledger.findBudget_id hdescribes.findBudget
    exact .persisted hp ((hl.addLimit hlimits ⟨budget, hmem, hid⟩).mapBudgets hbudgets
      (advanceRow_id _))
  | legacyReserved _ _ _ _ _ hbudgets | legacyPosted _ _ _ hbudgets =>
    exact hl.mapBudgets hbudgets fun row => by split_ifs <;> rfl

/-- **The references between the tables hold in every reachable state.** -/
theorem LedgerReachable.linked (h : LedgerReachable engine allowed ledger) : ledger.Linked :=
  h.invariant .empty fun _ _ _ _ hl _ hchanges => hchanges.linked hl

/-- A later ledger has the postings and the closed reservations, as they were. -/
def Ledger.Stands (ledger ledger' : Ledger engine) : Prop :=
  ledger.postings.rows ⊆ ledger'.postings.rows ∧ ∀ row ∈ ledger.reservations.rows,
    row.state ≠ .active → row ∈ ledger'.reservations.rows

theorem Ledger.Stands.refl (ledger : Ledger engine) : ledger.Stands ledger :=
  ⟨Subset.refl _, fun _ hrow _ => hrow⟩

theorem Changes.stands {operation : Operation} (h : Changes ledger micros operation ledger') :
    ledger.Stands ledger' := by
  have hclosed : ∀ {reservation state reason json}, ∀ row ∈ ledger.reservations.rows,
      row.state ≠ .active →
      row ∈ ledger.reservations.rows.map (closeRow reservation state reason json micros) :=
    fun row hrow hstate => mem_map.2 ⟨row, hrow, if_neg fun hall => hstate hall.2.1⟩
  cases h with
  | unchanged | legacyReserved | legacyPosted => exact .refl ledger
  | created _ _ _ _ _ _ _ hrest =>
    rw [hrest]
    exact .refl ledger
  | intended _ _ _ _ _ _ _ hp | raised _ _ _ _ hp =>
    rw [hp.rest]
    exact .refl ledger
  | reserved _ _ _ _ hrows _ hp =>
    rw [hp.rest]
    exact ⟨Subset.refl _, fun row hrow _ => hrows ▸ mem_append_left _ hrow⟩
  | settled _ _ _ hrows hpostings _ hp =>
    rw [hp.rest]
    exact ⟨hpostings ▸ subset_append_left _ _, hrows ▸ hclosed⟩
  | released _ _ hrows _ hp =>
    rw [hp.rest]
    exact ⟨Subset.refl _, hrows ▸ hclosed⟩

/-- **What was posted or closed stays.** Whatever transactions follow, committed, repeated or rolled
back, no posting and no closed reservation is changed or removed. -/
theorem runAll_stands (ledger : Ledger engine) (operations : List (Operation × Int)) :
    ledger.Stands (runAll ledger operations) := by
  induction operations generalizing ledger with
  | nil => exact .refl ledger
  | cons first rest ih =>
    have hrest := ih (first.1.run ledger first.2)
    rw [runAll]
    rcases settled_cases ledger (first.1.apply ledger first.2) with hsame | hok
    · rwa [Operation.run, hsame] at hrest ⊢
    · have hfirst := (Operation.apply_changes hok).stands
      exact ⟨Subset.trans hfirst.1 hrest.1, fun row hrow hstate =>
        hrest.2 row (hfirst.2 row hrow hstate) hstate⟩

end Codeflux.Storage
