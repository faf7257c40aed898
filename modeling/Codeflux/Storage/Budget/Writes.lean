import Codeflux.Storage.Budget.Snapshot

/-!
# Shared parts of the ledger's transactions

Validation of texts, the writes that several transactions make, and the reads that answer a repeated
request.
-/

namespace Codeflux.Storage

open Library Go Domain

variable {engine : Engine}

/-- The cap would be passed. -/
def errBudgetExhausted : Failure := .new "task budget exhausted"
/-- Some usage is unknown. -/
def errBudgetAccountingUnknown : Failure := .new "task budget accounting unknown"
/-- A raise needs an approval. -/
def errBudgetApprovalRequired : Failure := .new "task budget approval required"
/-- Some usage is not settled. -/
def errBudgetReconciliationPending : Failure := .new "task budget reconciliation pending"

/-- Check an optional text. -/
def validateOptionalBounded (label : String) (value : Option String) (maximum : Nat) :
    Result Unit :=
  match value with
  | some value => validateBounded label value maximum
  | none => .ok ()

/-- Check a JSON column. -/
def validateJSONBounded (engine : Engine) (value : String) (maximum : Nat) : Result Unit :=
  ensure (2 ≤ byteLength value ∧ byteLength value ≤ maximum ∧ engine.jsonValid value = true)
    (.new "value must be bounded valid JSON")

/-! ### Writes -/

/-- The update of `advanceBudgetRevision`, row by row. -/
def advanceRow (budgetID : BudgetID) (expected : Nat) (micros : Int) (row : BudgetRow) :
    BudgetRow :=
  if row.id = budgetID ∧ row.revision = expected then
    { row with revision := row.revision + 1, updatedAt := micros }
  else row

variable (ledger : Ledger engine)

/-- Move a budget to its next revision. -/
def advanceBudgetRevision (budgetID : BudgetID) (expected : Nat)
    (micros : Int) : Result (Ledger engine) := do
  let budgets ← repositoryWriteError "advance budget revision" <|
    ledger.budgets.update (advanceRow budgetID expected micros)
  ensure (∃ row ∈ ledger.budgets.rows, row.id = budgetID ∧ row.revision = expected)
    (.typed errStaleRevision "advance budget revision" (.new "budget revision changed"))
  return { ledger with budgets }

/-- The update that moves an active reservation to a final state, row by row. -/
def closeRow (reservation : ReservationRow) (state : BudgetReservationState)
    (reason provenanceJSON : String) (micros : Int) (row : ReservationRow) : ReservationRow :=
  if row.id = reservation.id ∧ row.state = .active ∧ row.revision = reservation.revision then
    { row with
      state
      settlement := some reason
      settlementProvenanceJSON := some provenanceJSON
      settledAt := some micros
      revision := row.revision + 1 }
  else row

/-- Move an active reservation to a final state. Settlement and release use the same update. -/
def closeReservation (reservation : ReservationRow)
    (state : BudgetReservationState) (reason provenanceJSON : String) (micros : Int)
    (operation : String) (changed : Failure) : Result (Ledger engine) := do
  let reservations ← repositoryWriteError operation <|
    ledger.reservations.update (closeRow reservation state reason provenanceJSON micros)
  ensure (∃ row ∈ ledger.reservations.rows, row.id = reservation.id ∧ row.state = .active ∧
    row.revision = reservation.revision) changed
  return { ledger with reservations }

variable (snapshot : BudgetSnapshot)

/-- The columns of a persisted snapshot. -/
def snapshotRow : SnapshotRow :=
  { snapshot with
    currency := snapshot.hardCost.currency
    modelReservations := snapshot.categories.model.reservationCount
    toolReservations := snapshot.categories.tool.reservationCount
    infrastructureReservations := snapshot.categories.infrastructure.reservationCount }

/-- Store a snapshot. -/
def persistBudgetSnapshot : Result (Ledger engine) := do
  let snapshots ← repositoryWriteError "persist budget snapshot" <|
    ledger.snapshots.insert (snapshotRow snapshot)
  return { ledger with snapshots }

/-- Announce an event once per limit revision. The conflict clause of the insert covers only the
key of kind and limit revision; an idempotency key of another event still fails the write. The row
in `task_events` is left out. -/
def insertBudgetEvent
    (kind : BudgetEventKind) (idempotencyKey : String) (micros : Int) : Result (Ledger engine) :=
  if ∃ row ∈ ledger.events.rows, row.budgetID = snapshot.budgetID ∧
      row.limitRevision = snapshot.limitRevision ∧ row.kind = kind then
    .ok ledger
  else do
    let events ← repositoryWriteError "insert budget event" <| ledger.events.insert
      { snapshot with kind, idempotencyKey, createdAt := micros }
    return { ledger with events }

/-- The boundaries a snapshot reaches. -/
def reachedBoundaries (exposure : StoredCost) : List BudgetEventKind :=
  let tokenExposure := snapshot.reservedTokens + snapshot.chargedTokens
  [(decide (compareExactCosts exposure snapshot.warningCost ≠ .lt), .warningCost),
   (decide (snapshot.warningTokens ≤ tokenExposure), .warningTokens),
   (decide (compareExactCosts exposure snapshot.hardCost ≠ .lt), .hardCapCost),
   (decide (snapshot.hardTokens ≤ tokenExposure), .hardCapTokens),
   (snapshot.costAccountingUnknown || snapshot.tokenAccountingUnknown, .accountingUnknown),
   (snapshot.reconciliationPending, .reconciliationPending)].filterMap
    fun boundary : Bool × BudgetEventKind => if boundary.1 then some boundary.2 else none

/-- The key of an announcement. -/
def boundaryKey (limitRevision : Nat) (kind : BudgetEventKind) : String :=
  "budget-boundary-" ++ toString limitRevision ++ "-" ++ kind.text

/-- Announce the boundaries that are reached. -/
def persistBudgetBoundaryEvents (micros : Int) : Result (Ledger engine) := do
  let exposure ← addExactCosts snapshot.reservedCost snapshot.chargedCost
  (reachedBoundaries snapshot exposure).foldlM
    (fun ledger kind =>
      insertBudgetEvent ledger snapshot kind (boundaryKey snapshot.limitRevision kind) micros)
    ledger

/-! ### Reads -/

/-- The call slots a model reservation counts towards the maximum: the reserved bound while it is
active, afterwards what was posted or, failing that, billed. -/
def consumedSlots (row : ReservationRow) : Nat :=
  if row.state = .active then row.providerCallSlots.toNat
  else
    let posted := (ledger.postings.rows.find? (·.reservationID = row.id)).map
      (·.actualProviderCallSlots.toNat)
    let billed := (ledger.intents.rows.find? (·.reservationID = row.id)).map
      (·.actualProviderCallSlots.toNat)
    ((posted.filter (· ≠ 0)).orElse fun _ => billed.filter (· ≠ 0)).getD
      row.providerCallSlots.toNat

section

variable (budgetID : BudgetID)

/-- The reservations of a category that count towards its maximum. -/
def countedReservations (category : BudgetCostCategory) : List ReservationRow :=
  ledger.reservations.rows.filter fun row =>
    row.budgetID = budgetID ∧ row.category = category ∧ row.state ≠ .released

/-- Is an operation of this category left? -/
def verifyBudgetOperationLimit (budget : BudgetRow)
    (category : BudgetCostCategory) (providerCallSlots : UInt32) : Result Unit :=
  let exhausted := Failure.typed errBudgetExhausted "reserve provider budget"
    (.new "budget operation-count hard cap reached")
  match category with
  | .model =>
    let used := ((countedReservations ledger budget.id .model).map (consumedSlots ledger)).sum
    ensure ((used : Int) ≤ budget.maximumProviderCalls.toNat - providerCallSlots.toNat) exhausted
  | .tool =>
    let used := (countedReservations ledger budget.id .tool).length
    ensure ((used : Int) ≤ budget.maximumToolExecutions.toNat - 1) exhausted
  | .infrastructure => .ok ()

/-- The row with the given identifier or, failing that, with the given idempotency key. -/
def findByIdentity {α : Type} (rowID rowKey : α → String) (rows : List α)
    (id idempotencyKey : String) : Option α :=
  (rows.find? (rowID · = id)).orElse fun _ => rows.find? (rowKey · = idempotencyKey)

/-- The reservation of a repeated request. -/
def findBudgetReservationByIdentity : String → String → Option ReservationRow :=
  findByIdentity (·.id) (·.idempotencyKey)
    (ledger.reservations.rows.filter (·.budgetID = budgetID))

/-- The posting of a repeated request. -/
def findBudgetPostingByIdentity : String → String → Option PostingRow :=
  findByIdentity (·.id) (·.idempotencyKey) (ledger.postings.rows.filter (·.budgetID = budgetID))

/-- The intent of a repeated request. -/
def findBudgetIntentByIdentity : String → String → Option IntentRow :=
  findByIdentity (·.id) (·.idempotencyKey) (ledger.intents.rows.filter (·.budgetID = budgetID))

/-- Read a reservation. -/
def getBudgetReservation (id : String) : Result ReservationRow :=
  match ledger.findReservation id with
  | some row => .ok row
  | none => .error (.typed errNotFound "get budget reservation" errNoRows)

/-- The persisted snapshot of the greatest revision. -/
def latestSnapshot : Option SnapshotRow :=
  let rows := ledger.snapshots.rows.filter (·.budgetID = budgetID)
  rows.find? fun row => decide (∀ other ∈ rows, other.revision ≤ row.revision)

/-- Read the latest stored snapshot. -/
def scanLatestBudgetSnapshot : Result BudgetSnapshot := do
  let notFound := Failure.typed errNotFound "read budget snapshot" errNoRows
  let some row := latestSnapshot ledger budgetID | .error notFound
  let some limit := (ledger.limitsOf budgetID).find? (·.revision = row.limitRevision)
    | .error notFound
  let some budget := ledger.findBudget budgetID | .error notFound
  let reservedCost := row.reservedCost.inCurrency row.currency
  let chargedCost := row.chargedCost.inCurrency row.currency
  let hardCost := limit.hardCost.inCurrency row.currency
  let exposure ← addExactCosts reservedCost chargedCost
  let categories ← loadBudgetCategorySnapshots ledger budget row.currency
  return { row with
    providerCallSlots := (categories.toList.map (·.providerCallSlots)).foldl (· + ·) 0
    reservedCost
    chargedCost
    actualKnownCost := row.actualKnownCost.inCurrency row.currency
    budgetID
    warningCost := limit.warningCost.inCurrency row.currency
    hardCost
    warningTokens := limit.warningTokens
    hardTokens := limit.hardTokens
    remainingCost :=
      if row.costAccountingUnknown then none
      else some (subtractExactCostsFloorZero hardCost exposure)
    remainingTokens :=
      if row.tokenAccountingUnknown then none
      else some (tokensLeft limit.hardTokens (row.reservedTokens + row.chargedTokens))
    categories }

end

end Codeflux.Storage
