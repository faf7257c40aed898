import Codeflux.Storage.Budget.Aggregate
import Codeflux.Storage.Budget.Operations

/-!
# What a committed transaction writes

When a transaction commits, either the ledger is as before, because the request was a repetition, or
exactly these rows were added and updated, under these checks.
-/

namespace Codeflux.Storage

open Library Go Domain

variable {engine : Engine} {ledger ledger' : Ledger engine} {budgetID : BudgetID}
  {snapshot : BudgetSnapshot} {micros : Int}

/-! ### Parts of a transaction -/

variable {expected : Nat} {reservation : ReservationRow} {operation : String}
  {budgets : Table budgetSchema} {change : BudgetRow → BudgetRow} {budget row : BudgetRow}
  {id : BudgetID}

theorem advanceBudgetRevision_ok
    (h : advanceBudgetRevision ledger budgetID expected micros = .ok ledger') :
    ∃ budgets : Table budgetSchema,
      budgets.rows = ledger.budgets.rows.map (advanceRow budgetID expected micros) ∧
      ledger' = { ledger with budgets } := by
  simp only [advanceBudgetRevision, run_ok_iff, repositoryWriteError_ok_iff] at h
  obtain ⟨budgets, hupdate, _, _, rfl⟩ := h
  exact ⟨budgets, Table.update_ok hupdate, rfl⟩

theorem closeReservation_ok {state : BudgetReservationState} {reason provenanceJSON : String}
    {changed : Failure}
    (h : closeReservation ledger reservation state reason provenanceJSON micros operation
      changed = .ok ledger') :
    ∃ reservations : Table (reservationSchema engine),
      reservations.rows =
        ledger.reservations.rows.map (closeRow reservation state reason provenanceJSON micros) ∧
      ledger' = { ledger with reservations } := by
  simp only [closeReservation, run_ok_iff, repositoryWriteError_ok_iff] at h
  obtain ⟨reservations, hupdate, _, _, rfl⟩ := h
  exact ⟨reservations, Table.update_ok hupdate, rfl⟩

theorem persistBudgetSnapshot_ok (h : persistBudgetSnapshot ledger snapshot = .ok ledger') :
    ∃ snapshots : Table snapshotSchema,
      ledger.snapshots.Admits (snapshotRow snapshot) ∧
      snapshots.rows = ledger.snapshots.rows ++ [snapshotRow snapshot] ∧
      ledger' = { ledger with snapshots } := by
  simp only [persistBudgetSnapshot, run_ok_iff, repositoryWriteError_ok_iff] at h
  obtain ⟨snapshots, hinsert, rfl⟩ := h
  obtain ⟨hadmits, hrows⟩ := Table.insert_ok_iff.1 hinsert
  exact ⟨snapshots, hadmits, hrows, rfl⟩

theorem insertBudgetEvent_ok {kind : BudgetEventKind} {key : String}
    (h : insertBudgetEvent ledger snapshot kind key micros = .ok ledger') :
    ∃ events : Table eventSchema, ledger' = { ledger with events } := by
  unfold insertBudgetEvent at h
  split_ifs at h
  · cases h
    exact ⟨ledger.events, rfl⟩
  · simp only [run_ok_iff, repositoryWriteError_ok_iff] at h
    obtain ⟨events, _, rfl⟩ := h
    exact ⟨events, rfl⟩

theorem persistBudgetBoundaryEvents_ok
    (h : persistBudgetBoundaryEvents ledger snapshot micros = .ok ledger') :
    ∃ events : Table eventSchema, ledger' = { ledger with events } := by
  simp only [persistBudgetBoundaryEvents, bind_ok_iff] at h
  obtain ⟨exposure, _, h⟩ := h
  refine foldlM_keeps (P := fun l => ∃ events, l = { ledger with events })
    (fun mid kind next hnext hmid => ?_) h ⟨ledger.events, rfl⟩
  obtain ⟨_, rfl⟩ := hmid
  obtain ⟨events, rfl⟩ := insertBudgetEvent_ok hnext
  exact ⟨events, rfl⟩

/-- The snapshot of `mid` was computed and stored, and apart from that only events were added. -/
structure Persisted (mid ledger' : Ledger engine) (budgetID : BudgetID) (micros : Int)
    (snapshot : BudgetSnapshot) : Prop where
  computed : ∃ current, computeBudgetSnapshot mid budgetID = .ok current ∧
    snapshot = { current with createdAt := micros }
  admits : mid.snapshots.Admits (snapshotRow snapshot)
  snapshots : ledger'.snapshots.rows = mid.snapshots.rows ++ [snapshotRow snapshot]
  rest : ledger' = { mid with snapshots := ledger'.snapshots, events := ledger'.events }

theorem persistCurrent_ok (h : persistCurrent ledger budgetID micros = .ok (ledger', snapshot)) :
    Persisted ledger ledger' budgetID micros snapshot := by
  simp only [persistCurrent, run_ok_iff, Prod.mk.injEq] at h
  obtain ⟨current, hcompute, l, hpersist, rfl, rfl⟩ := h
  obtain ⟨snapshots, hadmits, hrows, rfl⟩ := persistBudgetSnapshot_ok hpersist
  exact ⟨⟨current, hcompute, rfl⟩, hadmits, hrows, rfl⟩

theorem Persisted.withEvents (h : Persisted ledger ledger' budgetID micros snapshot)
    (events : Table eventSchema) :
    Persisted ledger { ledger' with events } budgetID micros snapshot := by
  obtain ⟨hcomputed, hadmits, hrows, hrest⟩ := h
  refine ⟨hcomputed, hadmits, hrows, ?_⟩
  rw [hrest]

@[simp] theorem advanceRow_id (expected : Nat) (row : BudgetRow) :
    (advanceRow budgetID expected micros row).id = row.id := by
  unfold advanceRow
  split_ifs <;> rfl

theorem findBudget_map (hrows : budgets.rows = ledger.budgets.rows.map change)
    (hid : ∀ row, (change row).id = row.id) (id : BudgetID) :
    Ledger.findBudget { ledger with budgets } id =
      (ledger.findBudget id).map change := by
  simp only [Ledger.findBudget, hrows, List.find?_map]
  congr 2
  funext row
  simp [hid]

/-- A snapshot sees of an update to the budget's row only the columns it reads. -/
theorem computeBudgetSnapshot_congr_budget (hold : ledger.findBudget budgetID = some budget)
    (hnew : Ledger.findBudget { ledger with budgets } budgetID = some row)
    (hsame : row.id = budget.id ∧ row.taskID = budget.taskID ∧
      row.reservedCostMinor = budget.reservedCostMinor ∧
      row.actualCostMinor = budget.actualCostMinor ∧ row.actualTokens = budget.actualTokens) :
    computeBudgetSnapshot { ledger with budgets } budgetID =
      (fun current => { current with revision := row.revision, createdAt := row.updatedAt }) <$>
        computeBudgetSnapshot ledger budgetID := by
  obtain ⟨hid, htask, hres, hact, htok⟩ := hsame
  have hlimit : Ledger.latestLimit { ledger with budgets } budgetID =
      ledger.latestLimit budgetID := rfl
  have hload : ∀ currency, loadBudgetCategorySnapshots { ledger with budgets } row
      currency = loadBudgetCategorySnapshots ledger budget currency := by
    intro currency
    have hlegacy : legacyCategories row currency = legacyCategories budget currency := by
      simp [legacyCategories, hres, hact, htok]
    unfold loadBudgetCategorySnapshots
    rw [hlegacy, hid]
    rfl
  unfold computeBudgetSnapshot
  rw [hold, hnew, hlimit]
  cases ledger.latestLimit budgetID with
  | none => rfl
  | some limit =>
    simp [hload, snapshotOf, hid, htask]

theorem computeBudgetSnapshot_advance (hold : ledger.findBudget budgetID = some budget)
    (hrevision : budget.revision = expected)
    (hrows : budgets.rows = ledger.budgets.rows.map (advanceRow budgetID expected micros)) :
    computeBudgetSnapshot { ledger with budgets } budgetID =
      (fun current => { current with revision := expected + 1, createdAt := micros }) <$>
        computeBudgetSnapshot ledger budgetID := by
  have hid := (Ledger.findBudget_id hold).2
  have hnew := findBudget_map hrows (advanceRow_id expected) budgetID
  have hadvance : advanceRow budgetID expected micros budget =
      { budget with revision := expected + 1, updatedAt := micros } := by
    simp [advanceRow, hid, hrevision]
  rw [hold, Option.map_some, hadvance] at hnew
  exact computeBudgetSnapshot_congr_budget hold hnew ⟨rfl, rfl, rfl, rfl, rfl⟩

/-! ### The transactions -/

/-- What a committed transaction writes: nothing when the request repeats an earlier one, and the
rows of its kind otherwise. -/
inductive Changes (ledger : Ledger engine) (micros : Int) : Operation → Ledger engine → Prop
  | unchanged (operation : Operation) : Changes ledger micros operation ledger
  /-- A new budget gets a row, its initial limits and a first snapshot. -/
  | created {input : CreateBudget} {ledger' row limit stored}
      (hadmits : ledger.budgets.Admits row)
      (hrow : row.reservedCostMinor = 0 ∧ row.actualCostMinor = 0 ∧ row.revision = 0)
      (hlimit : limit.budgetID = row.id)
      (hstored : stored.budgetID = row.id ∧ stored.revision = 0)
      (hbudgets : ledger'.budgets.rows = ledger.budgets.rows ++ [row])
      (hlimits : ledger'.limits.rows = ledger.limits.rows ++ [limit])
      (hsnapshots : ledger'.snapshots.rows = ledger.snapshots.rows ++ [stored])
      (hrest : ledger' = { ledger with budgets := ledger'.budgets, limits := ledger'.limits,
                                       snapshots := ledger'.snapshots }) :
      Changes ledger micros (.create input) ledger'
  /-- A reservation adds an active row under all the checks. -/
  | reserved {input ledger' snapshot cost current budget reservations budgets}
      (hcurrent : computeBudgetSnapshot ledger input.budgetID = .ok current)
      (hbudget : ledger.findBudget input.budgetID = some budget)
      (hcheck : checkReservation ledger input budget current cost = .ok ())
      (hadmits : ledger.reservations.Admits (reservationRow input current.taskID cost micros))
      (hrows : reservations.rows =
        ledger.reservations.rows ++ [reservationRow input current.taskID cost micros])
      (hbudgets : budgets.rows = ledger.budgets.rows.map
        (advanceRow input.budgetID input.expectedRevision micros))
      (hpersisted : Persisted { ledger with reservations, budgets }
        ledger' input.budgetID micros snapshot) :
      Changes ledger micros (.reserve input) ledger'
  /-- A settlement commits an active reservation and posts its usage. -/
  | settled {input ledger' snapshot actualCost reservation slots expected reservations postings
        budgets}
      (hcost : normalizeActualCost input.actualCost = .ok actualCost)
      (hfind : ledger.findReservation input.reservationID = some reservation)
      (hactive : reservation.state = .active)
      (hrows : reservations.rows = ledger.reservations.rows.map (closeRow reservation .committed
        "usage committed" input.provenanceJSON micros))
      (hpostings : postings.rows =
        ledger.postings.rows ++ [postingRow input reservation actualCost slots micros])
      (hbudgets : budgets.rows = ledger.budgets.rows.map
        (advanceRow reservation.budgetID expected micros))
      (hpersisted : Persisted { ledger with reservations, postings,
                                            budgets }
        ledger' reservation.budgetID micros snapshot) :
      Changes ledger micros (.settle input) ledger'
  /-- A release closes an active reservation without usage. -/
  | released {input ledger' snapshot reservation reservations budgets}
      (hfind : ledger.findReservation input.reservationID = some reservation)
      (hactive : reservation.state = .active)
      (hrows : reservations.rows = ledger.reservations.rows.map (closeRow reservation .released
        input.reasonRedacted input.provenanceJSON micros))
      (hbudgets : budgets.rows = ledger.budgets.rows.map
        (advanceRow reservation.budgetID input.expectedRevision micros))
      (hpersisted : Persisted { ledger with reservations, budgets }
        ledger' reservation.budgetID micros snapshot) :
      Changes ledger micros (.release input) ledger'
  /-- An intent adds the billed usage of an active reservation that has no posting. -/
  | intended {input ledger' snapshot actualCost reservation slots expected intents budgets}
      (hcost : normalizeActualCost input.actualCost = .ok actualCost)
      (hfind : ledger.findReservation input.reservationID = some reservation)
      (hactive : reservation.state = .active)
      (hcurrency : actualCost.all (·.currency = reservation.costBound.currency) = true)
      (hslots : normalizedActualProviderCallSlots reservation input.actualProviderCallSlots =
        .ok slots)
      (hintents : intents.rows =
        ledger.intents.rows ++ [intentRow input reservation actualCost slots micros])
      (hbudgets : budgets.rows = ledger.budgets.rows.map
        (advanceRow reservation.budgetID expected micros))
      (hpersisted : Persisted { ledger with intents, budgets }
        ledger' reservation.budgetID micros snapshot) :
      Changes ledger micros (.intent input) ledger'
  /-- A raise adds limits whose hard cost is no lower. -/
  | raised {input approval ledger' snapshot warning hard current limits budgets}
      (hcurrent : computeBudgetSnapshot ledger input.budgetID = .ok current)
      (hmonotone : exactCostRat current.hardCost ≤ exactCostRat hard)
      (hlimits : limits.rows = ledger.limits.rows ++
        [limitRow input warning hard (current.limitRevision + 1) micros])
      (hbudgets : budgets.rows = ledger.budgets.rows.map
        (advanceRow input.budgetID input.expectedRevision micros))
      (hpersisted : Persisted { ledger with limits, budgets }
        ledger' input.budgetID micros snapshot) :
      Changes ledger micros (.raise input approval) ledger'
  /-- A legacy reservation adds to the legacy aggregate, under the check of the exact exposure. -/
  | legacyReserved {input snapshot exposure total budgets}
      (hcompute : computeBudgetSnapshot ledger input.id = .ok snapshot)
      (hcap : snapshot.hardCapReached = false)
      (hexposure : addExactCosts snapshot.reservedCost snapshot.chargedCost = .ok exposure)
      (htotal : addExactCosts exposure
        (wholeCost input.amount.minorUnits.toNat input.amount.currency) = .ok total)
      (hcompare : compareExactCosts total snapshot.hardCost ≠ .gt)
      (hbudgets : budgets.rows = ledger.budgets.rows.map fun row =>
        if row.id = input.id ∧ row.revision = input.expectedRevision then
          { row with
            reservedCostMinor := row.reservedCostMinor + input.amount.minorUnits.toNat
            updatedAt := micros
            revision := row.revision + 1 }
        else row) :
      Changes ledger micros (.legacyReserve input) { ledger with budgets }
  /-- A legacy posting moves an amount from the reserved to the actual side of the legacy
  aggregate. -/
  | legacyPosted {input : PostActualCost} {current : BudgetRow} {budgets}
      (hfind : ledger.findBudget input.id = some current)
      (hnonneg : 0 ≤ input.actual.minorUnits ∧ 0 ≤ input.releaseReservedMinor)
      (hrelease : input.releaseReservedMinor ≤ current.reservedCostMinor)
      (hbudgets : budgets.rows = ledger.budgets.rows.map fun row =>
        if row.id = input.id ∧ row.revision = input.expectedRevision then
          { row with
            reservedCostMinor := current.reservedCostMinor - input.releaseReservedMinor.toNat
            actualCostMinor := current.actualCostMinor + input.actual.minorUnits.toNat
            actualTokens := row.actualTokens + input.tokens
            updatedAt := micros
            revision := row.revision + 1 }
        else row) :
      Changes ledger micros (.legacyPost input) { ledger with budgets }

theorem createBudget_changes {input : CreateBudget}
    (h : createBudget ledger input micros = .ok ledger') :
    Changes ledger micros (.create input) ledger' := by
  simp only [createBudget, run_ok_iff, repositoryWriteError_ok_iff] at h
  obtain ⟨_, _, _, _, _, _, budgets, hbudgets, limits, hlimits, snapshots, hsnapshots, rfl⟩ := h
  obtain ⟨hadmits, hrows⟩ := Table.insert_ok_iff.1 hbudgets
  exact .created hadmits ⟨rfl, rfl, rfl⟩ rfl ⟨rfl, rfl⟩ hrows (Table.insert_ok_iff.1 hlimits).2
    (Table.insert_ok_iff.1 hsnapshots).2 rfl

theorem reserveProviderBudget_changes {input : ReserveProviderBudget}
    (h : reserveProviderBudget ledger input micros = .ok (ledger', snapshot)) :
    Changes ledger micros (.reserve input) ledger' := by
  simp only [reserveProviderBudget, bind_ok_iff] at h
  obtain ⟨cost, -, h⟩ := h
  split at h
  · simp only [run_ok_iff, Prod.mk.injEq] at h
    obtain ⟨_, _, _, _, _, _, rfl, _⟩ := h
    exact .unchanged _
  · simp only [bind_ok_iff] at h
    obtain ⟨current, hcurrent, h⟩ := h
    split at h
    · cases h
    · next budget hbudget =>
      simp only [run_ok_iff, repositoryWriteError_ok_iff, Prod.mk.injEq] at h
      obtain ⟨_, hcheck, reservations, hinsert, mid, hadvance, ⟨l, s⟩, hpersist, l', hevents,
        rfl, rfl⟩ := h
      obtain ⟨hadmits, hrows⟩ := Table.insert_ok_iff.1 hinsert
      obtain ⟨budgets, hbudgets, rfl⟩ := advanceBudgetRevision_ok hadvance
      obtain ⟨events, rfl⟩ := persistBudgetBoundaryEvents_ok hevents
      exact .reserved hcurrent hbudget hcheck hadmits hrows hbudgets
        ((persistCurrent_ok hpersist).withEvents events)

theorem getBudgetReservation_ok {id : String}
    (h : getBudgetReservation ledger id = .ok reservation) :
    ledger.findReservation id = some reservation := by
  unfold getBudgetReservation at h
  split at h
  · next row hrow =>
    cases h
    exact hrow
  · cases h

theorem settleProviderBudget_changes {input : SettleProviderBudget}
    (h : settleProviderBudget ledger input micros = .ok (ledger', snapshot)) :
    Changes ledger micros (.settle input) ledger' := by
  simp only [settleProviderBudget, bind_ok_iff] at h
  obtain ⟨_, _, actualCost, hcost, reservation, hget, h⟩ := h
  have hfind := getBudgetReservation_ok hget
  split at h
  · simp only [run_ok_iff, Prod.mk.injEq] at h
    obtain ⟨_, _, _, _, _, _, rfl, _⟩ := h
    exact .unchanged _
  · simp only [run_ok_iff, repositoryWriteError_ok_iff, Prod.mk.injEq] at h
    obtain ⟨_, hactive, slots, _, current, _, _, _, l₁, hclose, postings, hinsert, l₂, hadvance,
      ⟨l₃, s⟩, hpersist, l₄, hevents, rfl, rfl⟩ := h
    obtain ⟨reservations, hreservations, rfl⟩ := closeReservation_ok hclose
    obtain ⟨budgets, hbudgets, rfl⟩ := advanceBudgetRevision_ok hadvance
    obtain ⟨events, rfl⟩ := persistBudgetBoundaryEvents_ok hevents
    exact .settled hcost hfind hactive hreservations (Table.insert_ok_iff.1 hinsert).2 hbudgets
      ((persistCurrent_ok hpersist).withEvents events)

theorem releaseProviderBudget_changes {input : ReleaseProviderBudget}
    (h : releaseProviderBudget ledger input micros = .ok (ledger', snapshot)) :
    Changes ledger micros (.release input) ledger' := by
  simp only [releaseProviderBudget, bind_ok_iff] at h
  obtain ⟨_, _, reservation, hget, h⟩ := h
  have hfind := getBudgetReservation_ok hget
  split_ifs at h
  · simp only [run_ok_iff, Prod.mk.injEq] at h
    obtain ⟨_, _, _, _, rfl, _⟩ := h
    exact .unchanged _
  · simp only [run_ok_iff] at h
    obtain ⟨_, hactive, current, _, _, _, l₁, hclose, l₂, hadvance, hpersist⟩ := h
    obtain ⟨reservations, hreservations, rfl⟩ := closeReservation_ok hclose
    obtain ⟨budgets, hbudgets, rfl⟩ := advanceBudgetRevision_ok hadvance
    exact .released hfind hactive hreservations hbudgets (persistCurrent_ok hpersist)

theorem recordBudgetReconciliationIntent_changes {input : RecordBudgetReconciliationIntent}
    (h : recordBudgetReconciliationIntent ledger input micros = .ok (ledger', snapshot)) :
    Changes ledger micros (.intent input) ledger' := by
  simp only [recordBudgetReconciliationIntent, bind_ok_iff] at h
  obtain ⟨_, _, actualCost, hcost, reservation, hget, h⟩ := h
  have hfind := getBudgetReservation_ok hget
  split at h
  · simp only [run_ok_iff, Prod.mk.injEq] at h
    obtain ⟨_, _, _, _, _, _, rfl, _⟩ := h
    exact .unchanged _
  · split_ifs at h
    · simp only [run_ok_iff, Prod.mk.injEq] at h
      obtain ⟨_, _, rfl, _⟩ := h
      exact .unchanged _
    · simp only [run_ok_iff, repositoryWriteError_ok_iff, Prod.mk.injEq] at h
      obtain ⟨_, hactive, slots, hslots, _, hcurrency, intents, hinsert, current, hcurrent, l₁,
        hadvance, l₂, hpersist, l₃, hevents, rfl, rfl⟩ := h
      obtain ⟨budgets, hbudgets, rfl⟩ := advanceBudgetRevision_ok hadvance
      obtain ⟨events, rfl⟩ := persistBudgetBoundaryEvents_ok hevents
      obtain ⟨snapshots, hsnap, hsnaprows, rfl⟩ := persistBudgetSnapshot_ok hpersist
      obtain ⟨budget, limit, hdescribes⟩ := computeBudgetSnapshot_ok hcurrent
      have hcompute := computeBudgetSnapshot_advance hdescribes.findBudget
        hdescribes.revision.symm hbudgets
      rw [hcurrent] at hcompute
      exact .intended hcost hfind hactive hcurrency hslots (Table.insert_ok_iff.1 hinsert).2
        hbudgets ⟨⟨_, hcompute, rfl⟩, hsnap, hsnaprows, rfl⟩

theorem raiseProviderBudget_changes {input : RaiseProviderBudget} {approval : Option ApprovalRow}
    (h : raiseProviderBudget ledger input approval micros = .ok (ledger', snapshot)) :
    Changes ledger micros (.raise input approval) ledger' := by
  simp only [raiseProviderBudget, bind_ok_iff] at h
  obtain ⟨⟨warning, hard⟩, _, h⟩ := h
  split at h
  · simp only [run_ok_iff, Prod.mk.injEq] at h
    obtain ⟨_, _, _, _, _, _, rfl, _⟩ := h
    exact .unchanged _
  · simp only [run_ok_iff, repositoryWriteError_ok_iff, Prod.mk.injEq] at h
    obtain ⟨current, hcurrent, _, _, _, ⟨_, hcurrency⟩, _, ⟨hmonotone, _⟩, _, _, limits,
      hinsert, l₁, hadvance, ⟨l₂, s⟩, hpersist, l₃, hevent, rfl, rfl⟩ := h
    obtain ⟨budgets, hbudgets, rfl⟩ := advanceBudgetRevision_ok hadvance
    obtain ⟨events, rfl⟩ := insertBudgetEvent_ok hevent
    exact .raised hcurrent ((compareExactCosts_ne_lt hcurrency).1 hmonotone)
      (Table.insert_ok_iff.1 hinsert).2 hbudgets ((persistCurrent_ok hpersist).withEvents events)

theorem updateBudget_ok (h : updateBudget ledger id expected operation change = .ok ledger') :
    ∃ budgets : Table budgetSchema,
      budgets.rows = (ledger.budgets.rows.map fun row =>
        if row.id = id ∧ row.revision = expected then change row else row) ∧
      ledger' = { ledger with budgets } := by
  simp only [updateBudget, run_ok_iff, repositoryWriteError_ok_iff] at h
  obtain ⟨budgets, hupdate, rfl⟩ := h
  exact ⟨budgets, Table.update_ok hupdate, rfl⟩

theorem scanBudget_ok (h : scanBudget ledger id operation = .ok row) :
    ledger.findBudget id = some row := by
  unfold scanBudget at h
  split at h
  · next found hfound =>
    cases h
    exact hfound
  · cases h

theorem reserveBudget_changes {input : ReserveBudget}
    (h : reserveBudget ledger input micros = .ok ledger') :
    Changes ledger micros (.legacyReserve input) ledger' := by
  simp only [reserveBudget, run_ok_iff] at h
  obtain ⟨_, _, _, _, _, _, _, _, _, _, _, _, snapshot, hcompute, _, _, _, hcap, exposure,
    hexposure, total, htotal, _, hcompare, _, _, hupdate⟩ := h
  obtain ⟨budgets, hrows, rfl⟩ := updateBudget_ok hupdate
  exact .legacyReserved hcompute hcap hexposure htotal hcompare hrows

theorem postActualCost_changes {input : PostActualCost}
    (h : postActualCost ledger input micros = .ok ledger') :
    Changes ledger micros (.legacyPost input) ledger' := by
  simp only [postActualCost, run_ok_iff] at h
  obtain ⟨_, _, _, _, _, hnonneg, _, _, current, hscan, _, _, _, _, _, hrelease, _, _, _, _, _, _,
    hupdate⟩ := h
  obtain ⟨budgets, hrows, rfl⟩ := updateBudget_ok hupdate
  exact .legacyPosted (scanBudget_ok hscan) hnonneg hrelease hrows

/-- **A committed transaction makes the changes of its kind.** -/
theorem Operation.apply_changes {operation : Operation}
    (h : operation.apply ledger micros = .ok ledger') :
    Changes ledger micros operation ledger' := by
  cases operation with
  | create input => exact createBudget_changes h
  | reserve input =>
    obtain ⟨⟨_, snapshot⟩, hok, rfl⟩ := map_ok_iff.1 h
    exact reserveProviderBudget_changes hok
  | settle input =>
    obtain ⟨⟨_, snapshot⟩, hok, rfl⟩ := map_ok_iff.1 h
    exact settleProviderBudget_changes hok
  | release input =>
    obtain ⟨⟨_, snapshot⟩, hok, rfl⟩ := map_ok_iff.1 h
    exact releaseProviderBudget_changes hok
  | intent input =>
    obtain ⟨⟨_, snapshot⟩, hok, rfl⟩ := map_ok_iff.1 h
    exact recordBudgetReconciliationIntent_changes hok
  | raise input approval =>
    obtain ⟨⟨_, snapshot⟩, hok, rfl⟩ := map_ok_iff.1 h
    exact raiseProviderBudget_changes hok
  | legacyReserve input => exact reserveBudget_changes h
  | legacyPost input => exact postActualCost_changes h

end Codeflux.Storage
