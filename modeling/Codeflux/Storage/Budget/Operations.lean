import Codeflux.Domain.States
import Codeflux.Storage.Budget.Writes

/-!
# The transactions of the budget ledger

Each operation is one transaction: it either returns the new state of the database, or an error
and the database stays as it was. The clock reading of a transaction is an argument.
-/

namespace Codeflux.Storage

open Library Go Domain

variable {engine : Engine}

/-! ### Creating a budget -/

/-- A request for a new budget. -/
structure CreateBudget where
  taskID : TaskID
  budget : TaskBudget

variable (ledger : Ledger engine)

/-- A new budget. That its task exists is not checked: tasks are left out. -/
def createBudget (input : CreateBudget) (micros : Int) : Result (Ledger engine) := do
  ensure (input.taskID.isZero = false) (.new "task ID must not be empty")
  input.budget.validate
  ensure (input.budget.warningTokens.toNat ≤ maxInt64 ∧
      input.budget.hardStopTokens.toNat ≤ maxInt64)
    (.new "budget token threshold exceeds SQLite integer range")
  let currency := input.budget.warningCost.currency
  let warningCost := input.budget.warningCost.minorUnits.toNat
  let hardStopCost := input.budget.hardStopCost.minorUnits.toNat
  let budgets ← repositoryWriteError "create budget" <| ledger.budgets.insert {
    id := input.budget.id
    taskID := input.taskID
    currency
    warningCostMinor := warningCost
    hardStopCostMinor := hardStopCost
    warningTokens := input.budget.warningTokens
    hardStopTokens := input.budget.hardStopTokens
    maximumProviderCalls := input.budget.maximumProviderCalls
    maximumToolExecutions := input.budget.maximumToolExecutions
    reservedCostMinor := 0
    actualCostMinor := 0
    actualTokens := 0
    createdAt := micros
    updatedAt := micros
    revision := 0 }
  -- the trigger `budgets_initialize_exact_ledger`
  let limits ← repositoryWriteError "create budget" <| ledger.limits.insert {
    budgetID := input.budget.id
    revision := 0
    warningCost := wholeCost warningCost currency
    hardCost := wholeCost hardStopCost currency
    currency
    warningTokens := input.budget.warningTokens
    hardTokens := input.budget.hardStopTokens
    approvalID := none
    actorKind := "system"
    actorReference := "fixed-policy"
    reason := "initial exact budget limit"
    idempotencyKey := "initial-budget-limit"
    provenanceJSON := "\x7b\"schema_version\":1,\"source\":\"fixed-policy\"\x7d"
    createdAt := micros }
  let snapshots ← repositoryWriteError "create budget" <| ledger.snapshots.insert {
    budgetID := input.budget.id
    revision := 0
    taskID := input.taskID
    limitRevision := 0
    currency
    reservedCost := wholeCost 0 currency
    chargedCost := wholeCost 0 currency
    actualKnownCost := wholeCost 0 currency
    costAccountingUnknown := false
    reservedTokens := 0
    chargedTokens := 0
    actualTokens := 0
    tokenAccountingUnknown := false
    modelReservations := 0
    toolReservations := 0
    infrastructureReservations := 0
    providerCallSlots := 0
    warningReached := warningCost = 0 ∨ input.budget.warningTokens = 0
    reconciliationPending := false
    hardCapReached := hardStopCost = 0 ∨ input.budget.hardStopTokens = 0
    createdAt := micros }
  return { ledger with budgets, limits, snapshots }

/-! ### Reserving -/

/-- A request for a reservation. -/
structure ReserveProviderBudget where
  id : String
  budgetID : BudgetID
  expectedRevision : Nat
  operationID : String
  attemptID : Option String
  retryOrdinal : UInt64
  category : BudgetCostCategory
  providerCallSlots : UInt32
  costBound : ExactMinorCost
  tokenBound : Option TokenCount
  (idempotencyKey provenanceJSON : String)

/-- The checks of a reservation's request. The source reads the three texts from a map, so which
of several faults it reports first is not determined; here the order is the written one. -/
def validateReserveProviderBudget (engine : Engine) (input : ReserveProviderBudget) :
    Result StoredCost := do
  ensure (input.budgetID.isZero = false) (.new "budget ID must not be empty")
  ensure (input.category = .model ∨ input.providerCallSlots = 0)
    (.new "only model reservations may consume provider-call slots")
  ensure (input.retryOrdinal.toNat ≤ maxInt64)
    (.new "budget retry ordinal exceeds SQLite range")
  validateBounded "budget reservation ID" input.id 255
  validateBounded "budget operation ID" input.operationID 255
  validateBounded "budget reservation idempotency key" input.idempotencyKey 255
  validateOptionalBounded "budget physical attempt ID" input.attemptID 255
  ensure (input.tokenBound.all (·.toNat ≤ maxInt64) = true)
    (.new "budget token bound exceeds SQLite integer range")
  (validateJSONBounded engine input.provenanceJSON 65536).mapError
    (.wrap "budget reservation provenance")
  normalizeExactCost input.costBound

variable (input : ReserveProviderBudget)

/-- The slots a reservation takes. -/
def normalizedProviderCallSlots : UInt32 :=
  if input.category ≠ .model then 0
  else if input.providerCallSlots = 0 then 1
  else input.providerCallSlots

/-- The equality of two optional costs, in lowest terms. -/
def exactCostEqual (left right : Option StoredCost) : Bool :=
  match left, right with
  | none, none => true
  | some left, some right =>
    match normalizeExactCost left.toExactMinorCost, normalizeExactCost right.toExactMinorCost with
    | .ok left, .ok right => left = right
    | _, _ => false
  | _, _ => false

/-- Does the request repeat the stored one? -/
def budgetReservationMatches (existing : ReservationRow) (input : ReserveProviderBudget)
    (normalized : StoredCost) : Bool :=
  existing.budgetID = input.budgetID && existing.operationID = input.operationID &&
  existing.attemptID = input.attemptID && existing.retryOrdinal = input.retryOrdinal &&
  existing.category = input.category &&
  existing.providerCallSlots = normalizedProviderCallSlots input &&
  exactCostEqual (some existing.costBound) (some normalized) &&
  existing.tokenBound = input.tokenBound && existing.idempotencyKey = input.idempotencyKey &&
  existing.provenanceJSON = input.provenanceJSON

/-- The row a reservation's request inserts. -/
def reservationRow (taskID : TaskID) (cost : StoredCost) (micros : Int) : ReservationRow :=
  { input with
    taskID
    providerCallSlots := normalizedProviderCallSlots input
    state := .active
    costBound := cost
    settlement := none
    settlementProvenanceJSON := none
    createdAt := micros
    settledAt := none
    revision := 0 }

/-- The token bound fits below the hard cap. The differences are taken in unsigned 64-bit
arithmetic. -/
def verifyTokenBound (current : BudgetSnapshot) : Result Unit :=
  match input.tokenBound with
  | some bound =>
    ensure (bound ≤ current.hardTokens - current.reservedTokens - current.chargedTokens)
      (.typed errBudgetExhausted "reserve provider budget"
        (.new "reservation exceeds approved hard token cap"))
  | none =>
    ensure (input.category ≠ .model) (.new "model reservation requires an exact token bound")

/-- The checks of a new reservation against the current snapshot. -/
def checkReservation
    (budget : BudgetRow) (current : BudgetSnapshot) (cost : StoredCost) : Result Unit := do
  let operation := "reserve provider budget"
  ensure (current.revision = input.expectedRevision)
    (.typed errStaleRevision operation (.new "budget revision changed"))
  ensure (current.reconciliationPending = false)
    (.typed errBudgetReconciliationPending operation
      (.new "prior billed usage still requires reconciliation"))
  ensure (current.costAccountingUnknown = false ∧ current.tokenAccountingUnknown = false)
    (.typed errBudgetAccountingUnknown operation (.new "prior settled usage is unknown"))
  ensure (cost.currency = current.hardCost.currency)
    (.typed errConstraint operation (.new "reservation currency differs from budget"))
  ensure (current.hardCapReached = false)
    (.typed errBudgetExhausted operation (.new "task hard cap is already reached"))
  let exposure ← addExactCosts current.reservedCost current.chargedCost
  let exposure ← addExactCosts exposure cost
  ensure (compareExactCosts exposure current.hardCost ≠ .gt)
    (.typed errBudgetExhausted operation (.new "reservation exceeds approved hard cost cap"))
  verifyTokenBound input current
  verifyBudgetOperationLimit ledger budget input.category (normalizedProviderCallSlots input)

/-- Recompute the snapshot under the advanced revision, and persist it. -/
def persistCurrent (budgetID : BudgetID) (micros : Int) :
    Result (Ledger engine × BudgetSnapshot) := do
  let snapshot ← computeBudgetSnapshot ledger budgetID
  let snapshot := { snapshot with createdAt := micros }
  let ledger ← persistBudgetSnapshot ledger snapshot
  return (ledger, snapshot)

/-- `ReserveProviderBudget`, once per identity. -/
def reserveProviderBudget (micros : Int) : Result (Ledger engine × BudgetSnapshot) := do
  let cost ← validateReserveProviderBudget engine input
  let operation := "reserve provider budget"
  match findBudgetReservationByIdentity ledger input.budgetID input.id input.idempotencyKey with
  | some existing => do
    ensure (budgetReservationMatches existing input cost = true)
      (.typed errConflict operation
        (.new "reservation identity was reused with different bounds"))
    let snapshot ← computeBudgetSnapshot ledger input.budgetID
    ensure (snapshot.reconciliationPending = false)
      (.typed errBudgetReconciliationPending operation
        (.new "billed reservation still requires reconciliation"))
    return (ledger, snapshot)
  | none => do
    let current ← computeBudgetSnapshot ledger input.budgetID
    match ledger.findBudget input.budgetID with
    | none => .error (.typed errNotFound operation errNoRows)
    | some budget => do
      checkReservation ledger input budget current cost
      let reservations ← repositoryWriteError operation <|
        ledger.reservations.insert (reservationRow input current.taskID cost micros)
      let ledger := { ledger with reservations }
      let ledger ← advanceBudgetRevision ledger input.budgetID input.expectedRevision micros
      let (ledger, snapshot) ← persistCurrent ledger input.budgetID micros
      let ledger ← persistBudgetBoundaryEvents ledger snapshot micros
      return (ledger, snapshot)

/-! ### Settling -/

/-- The usage of a reservation. -/
structure SettleProviderBudget where
  (id reservationID : String)
  actualCost : Option ExactMinorCost
  actualTokens : Option TokenCount
  actualProviderCallSlots : UInt32
  (idempotencyKey provenanceJSON : String)

/-- The slots that were used. -/
def normalizedActualProviderCallSlots (reservation : ReservationRow) (requested : UInt32) :
    Result UInt32 :=
  if reservation.category ≠ .model then do
    ensure (requested = 0) (.new "only model settlements may record provider-call slots")
    return 0
  else if requested = 0 then .ok reservation.providerCallSlots
  else .ok requested

/-- Check a settlement. -/
def validateSettleProviderBudget (engine : Engine) (input : SettleProviderBudget) :
    Result Unit := do
  validateBounded "budget posting ID" input.id 255
  validateBounded "budget reservation ID" input.reservationID 255
  validateBounded "budget posting idempotency key" input.idempotencyKey 255
  ensure (input.actualTokens.all (·.toNat ≤ maxInt64) = true)
    (.new "actual token usage exceeds SQLite integer range")
  (validateJSONBounded engine input.provenanceJSON 65536).mapError
    (.wrap "budget posting provenance")

/-- Normalise an optional cost. -/
def normalizeActualCost (actual : Option ExactMinorCost) : Result (Option StoredCost) :=
  match actual with
  | some cost => some <$> normalizeExactCost cost
  | none => .ok none

/-- The posting a settlement inserts. -/
def postingRow (input : SettleProviderBudget) (reservation : ReservationRow)
    (actualCost : Option StoredCost) (slots : UInt32) (micros : Int) : PostingRow :=
  { input, reservation with
    reservationID := reservation.id
    actualProviderCallSlots := slots
    actualCost
    chargedCost := actualCost.getD reservation.costBound
    chargedTokens := input.actualTokens.orElse fun _ => reservation.tokenBound
    createdAt := micros }

/-- `SettleProviderBudget`, once per identity. -/
def settleProviderBudget (input : SettleProviderBudget)
    (micros : Int) : Result (Ledger engine × BudgetSnapshot) := do
  validateSettleProviderBudget engine input
  let actualCost ← normalizeActualCost input.actualCost
  let operation := "settle provider budget"
  let reservation ← getBudgetReservation ledger input.reservationID
  match findBudgetPostingByIdentity ledger reservation.budgetID input.id
      input.idempotencyKey with
  | some existing => do
    let slots ← normalizedActualProviderCallSlots reservation input.actualProviderCallSlots
    ensure (existing.reservationID = input.reservationID ∧
        exactCostEqual existing.actualCost actualCost = true ∧
        existing.actualTokens = input.actualTokens ∧ existing.actualProviderCallSlots = slots)
      (.typed errConflict operation
        (.new "posting identity was reused with different actual usage"))
    let snapshot ← scanLatestBudgetSnapshot ledger existing.budgetID
    return (ledger, snapshot)
  | none => do
    ensure (reservation.state = .active)
      (.typed errConflict operation (.new "reservation is not active"))
    let slots ← normalizedActualProviderCallSlots reservation input.actualProviderCallSlots
    let current ← computeBudgetSnapshot ledger reservation.budgetID
    ensure (actualCost.all (·.currency = reservation.costBound.currency) = true)
      (.typed errConstraint operation (.new "actual cost currency differs from reservation"))
    let ledger ← closeReservation ledger reservation .committed "usage committed"
      input.provenanceJSON micros "settle provider budget reservation"
      (.typed errConflict operation (.new "reservation changed during settlement"))
    let postings ← repositoryWriteError operation <|
      ledger.postings.insert (postingRow input reservation actualCost slots micros)
    let ledger := { ledger with postings }
    let ledger ← advanceBudgetRevision ledger reservation.budgetID current.revision micros
    let (ledger, snapshot) ← persistCurrent ledger reservation.budgetID micros
    let ledger ← persistBudgetBoundaryEvents ledger snapshot micros
    return (ledger, snapshot)

/-- The end of an unused reservation. -/
structure ReleaseProviderBudget where
  reservationID : String
  expectedRevision : Nat
  (reasonRedacted provenanceJSON : String)

/-- Check a release. -/
def validateReleaseProviderBudget (engine : Engine) (input : ReleaseProviderBudget) :
    Result Unit := do
  validateBounded "budget reservation ID" input.reservationID 255
  validateBounded "budget release reason" input.reasonRedacted 2048
  (validateJSONBounded engine input.provenanceJSON 65536).mapError
    (.wrap "budget release provenance")

/-- `ReleaseProviderBudget`. -/
def releaseProviderBudget (input : ReleaseProviderBudget)
    (micros : Int) : Result (Ledger engine × BudgetSnapshot) := do
  validateReleaseProviderBudget engine input
  let operation := "release provider budget"
  let reservation ← getBudgetReservation ledger input.reservationID
  if reservation.state = .released then do
    ensure (reservation.settlement = some input.reasonRedacted ∧
        reservation.settlementProvenanceJSON = some input.provenanceJSON)
      (.typed errConflict operation (.new "released reservation reason changed"))
    let snapshot ← scanLatestBudgetSnapshot ledger reservation.budgetID
    return (ledger, snapshot)
  else do
    ensure (reservation.state = .active)
      (.typed errConflict operation (.new "committed reservation cannot be released"))
    let current ← computeBudgetSnapshot ledger reservation.budgetID
    ensure (current.revision = input.expectedRevision)
      (.typed errStaleRevision operation (.new "budget revision changed"))
    let ledger ← closeReservation ledger reservation .released input.reasonRedacted
      input.provenanceJSON micros operation
      (.typed errConflict operation (.new "reservation changed during release"))
    let ledger ← advanceBudgetRevision ledger reservation.budgetID input.expectedRevision micros
    persistCurrent ledger reservation.budgetID micros

/-! ### Reconciliation intents -/

/-- Billed usage that is not settled. -/
structure RecordBudgetReconciliationIntent where
  (id reservationID : String)
  actualCost : Option ExactMinorCost
  actualTokens : Option TokenCount
  actualProviderCallSlots : UInt32
  (reasonRedacted idempotencyKey provenanceJSON : String)

/-- Check an intent. -/
def validateBudgetReconciliationIntent (engine : Engine)
    (input : RecordBudgetReconciliationIntent) : Result Unit := do
  validateBounded "budget reconciliation intent ID" input.id 255
  validateBounded "budget reservation ID" input.reservationID 255
  validateBounded "budget reconciliation reason" input.reasonRedacted 2048
  validateBounded "budget reconciliation idempotency key" input.idempotencyKey 255
  ensure (input.actualTokens.all (·.toNat ≤ maxInt64) = true)
    (.new "budget reconciliation tokens exceed SQLite integer range")
  (validateJSONBounded engine input.provenanceJSON 65536).mapError
    (.wrap "budget reconciliation provenance")

/-- The intent a request inserts. -/
def intentRow (input : RecordBudgetReconciliationIntent) (reservation : ReservationRow)
    (actualCost : Option StoredCost) (slots : UInt32) (micros : Int) : IntentRow :=
  { input, reservation with
    reservationID := reservation.id
    actualProviderCallSlots := slots
    actualCost
    currency := reservation.costBound.currency
    reason := input.reasonRedacted
    createdAt := micros }

/-- `RecordBudgetReconciliationIntent`. -/
def recordBudgetReconciliationIntent (input : RecordBudgetReconciliationIntent) (micros : Int) :
    Result (Ledger engine × BudgetSnapshot) := do
  validateBudgetReconciliationIntent engine input
  let actualCost ← normalizeActualCost input.actualCost
  let operation := "record budget reconciliation intent"
  let reservation ← getBudgetReservation ledger input.reservationID
  match findBudgetIntentByIdentity ledger reservation.budgetID input.id input.idempotencyKey with
  | some existing => do
    let slots ← normalizedActualProviderCallSlots reservation input.actualProviderCallSlots
    ensure (existing.reservationID = input.reservationID ∧
        existing.actualProviderCallSlots = slots ∧
        exactCostEqual existing.actualCost actualCost = true ∧
        existing.actualTokens = input.actualTokens ∧ existing.reason = input.reasonRedacted ∧
        existing.provenanceJSON = input.provenanceJSON)
      (.typed errConflict operation
        (.new "reconciliation intent identity was reused with different billed usage"))
    let snapshot ← scanLatestBudgetSnapshot ledger reservation.budgetID
    return (ledger, snapshot)
  | none =>
    if ledger.posted reservation.id then do
      let snapshot ← scanLatestBudgetSnapshot ledger reservation.budgetID
      return (ledger, snapshot)
    else do
      ensure (reservation.state = .active)
        (.typed errConflict operation
          (.new "only an unsettled active reservation needs reconciliation"))
      let slots ← normalizedActualProviderCallSlots reservation input.actualProviderCallSlots
      ensure (actualCost.all (·.currency = reservation.costBound.currency) = true)
        (.typed errConstraint operation (.new "billed cost currency differs from reservation"))
      let intents ← repositoryWriteError operation <|
        ledger.intents.insert (intentRow input reservation actualCost slots micros)
      let ledger := { ledger with intents }
      let current ← computeBudgetSnapshot ledger reservation.budgetID
      let ledger ← advanceBudgetRevision ledger reservation.budgetID current.revision micros
      let snapshot := { current with revision := current.revision + 1, createdAt := micros }
      let ledger ← persistBudgetSnapshot ledger snapshot
      let ledger ← persistBudgetBoundaryEvents ledger snapshot micros
      return (ledger, snapshot)

/-! ### Raising the limits -/

/-- The request of higher limits. -/
structure RaiseProviderBudget where
  budgetID : BudgetID
  expectedRevision : Nat
  (warningCost hardCost : ExactMinorCost)
  (warningTokens hardTokens : TokenCount)
  approvalID : ApprovalID
  (actorKind actorReference reasonRedacted idempotencyKey provenanceJSON : String)

/-- What the raise reads of the approval it names. -/
structure ApprovalRow where
  taskID : TaskID
  state : ApprovalRequestState
  scope : String

/-- Check a raise. -/
def validateRaiseProviderBudget (engine : Engine) (input : RaiseProviderBudget) :
    Result (StoredCost × StoredCost) := do
  ensure (input.budgetID.isZero = false) (.new "budget ID must not be empty")
  ensure (input.approvalID.isZero = false)
    (.typed errBudgetApprovalRequired "raise provider budget"
      (.new "approval ID must not be empty"))
  ensure (input.warningTokens ≤ input.hardTokens) (.new "budget token warning exceeds hard cap")
  ensure (input.hardTokens.toNat ≤ maxInt64) (.new "budget hard token cap exceeds SQLite range")
  ensure (input.actorKind = "user" ∨ input.actorKind = "coordinator")
    (.new "budget raise actor kind is invalid")
  validateBounded "budget raise actor" input.actorReference 255
  validateBounded "budget raise reason" input.reasonRedacted 2048
  validateBounded "budget raise idempotency key" input.idempotencyKey 255
  (validateJSONBounded engine input.provenanceJSON 65536).mapError
    (.wrap "budget raise provenance")
  let warning ← normalizeExactCost input.warningCost
  let hard ← normalizeExactCost input.hardCost
  ensure (warning.currency = hard.currency ∧ compareExactCosts warning hard ≠ .gt)
    (.new "budget cost warning must not exceed same-currency hard cap")
  return (warning, hard)

/-- The immutable approval scope of one exact proposed limit revision. -/
def budgetRaiseApprovalScope (budgetID : BudgetID) (warning hard : StoredCost)
    (warningTokens hardTokens : TokenCount) : String :=
  "budget.raise:" ++ budgetID.value ++ ":" ++ hard.currency ++ ":" ++
    toString warning.numerator ++ "/" ++ toString warning.denominator ++ ":" ++
    toString hard.numerator ++ "/" ++ toString hard.denominator ++ ":" ++
    toString warningTokens ++ ":" ++ toString hardTokens

/-- Is the approval granted for this raise? -/
def verifyGrantedBudgetApproval (approval : Option ApprovalRow) (taskID : TaskID)
    (scope : String) : Result Unit :=
  let operation := "raise provider budget"
  match approval with
  | none => .error (.typed errBudgetApprovalRequired operation errNoRows)
  | some row =>
    ensure (row.taskID = taskID ∧ row.state = .granted ∧ row.scope = scope)
      (.typed errBudgetApprovalRequired operation
        (.new "approval is not granted for this task, budget, and exact limit revision"))

/-- The limits a raise inserts. -/
def limitRow (input : RaiseProviderBudget) (warning hard : StoredCost) (revision : Nat)
    (micros : Int) : LimitRow :=
  { input with
    revision
    warningCost := warning
    hardCost := hard
    currency := hard.currency
    approvalID := some input.approvalID
    reason := input.reasonRedacted
    createdAt := micros }

/-- A repeated raise has to repeat the limits and the authority. -/
def limitMatches (existing : LimitRow) (input : RaiseProviderBudget)
    (warning hard : StoredCost) : Bool :=
  exactCostEqual (some (existing.warningCost.inCurrency existing.currency)) (some warning) &&
  exactCostEqual (some (existing.hardCost.inCurrency existing.currency)) (some hard) &&
  existing.warningTokens = input.warningTokens && existing.hardTokens = input.hardTokens &&
  existing.approvalID = some input.approvalID && existing.actorKind = input.actorKind &&
  existing.actorReference = input.actorReference && existing.reason = input.reasonRedacted &&
  existing.provenanceJSON = input.provenanceJSON

/-- The raise reads the approval's row, which other transactions write, as an argument. -/
def raiseProviderBudget (input : RaiseProviderBudget)
    (approval : Option ApprovalRow) (micros : Int) :
    Result (Ledger engine × BudgetSnapshot) := do
  let (warning, hard) ← validateRaiseProviderBudget engine input
  let operation := "raise provider budget"
  match (ledger.limitsOf input.budgetID).find? (·.idempotencyKey = input.idempotencyKey) with
  | some existing => do
    -- the initial limits have no approval, and their empty column does not scan into a text
    ensure (existing.approvalID.isSome = true)
      (.wrap "find idempotent budget limit raise" (.new "converting NULL to string"))
    ensure (limitMatches existing input warning hard = true)
      (.typed errConflict operation
        (.new "budget raise idempotency key was reused with different authority or limits"))
    let snapshot ← scanLatestBudgetSnapshot ledger input.budgetID
    return (ledger, snapshot)
  | none => do
    let current ← computeBudgetSnapshot ledger input.budgetID
    ensure (current.revision = input.expectedRevision)
      (.typed errStaleRevision operation (.new "budget revision changed"))
    ensure (warning.currency = current.hardCost.currency ∧
        hard.currency = current.hardCost.currency)
      (.typed errConstraint operation (.new "budget currency cannot change"))
    ensure (compareExactCosts hard current.hardCost ≠ .lt ∧
        current.hardTokens ≤ input.hardTokens ∧
        compareExactCosts warning current.warningCost ≠ .lt ∧
        current.warningTokens ≤ input.warningTokens ∧
        ¬(compareExactCosts hard current.hardCost = .eq ∧
          input.hardTokens = current.hardTokens))
      (.typed errConstraint operation
        (.new "approved budget raise must monotonically raise at least one hard cap"))
    verifyGrantedBudgetApproval approval current.taskID
      (budgetRaiseApprovalScope input.budgetID warning hard input.warningTokens input.hardTokens)
    let limits ← repositoryWriteError operation <|
      ledger.limits.insert (limitRow input warning hard (current.limitRevision + 1) micros)
    let ledger := { ledger with limits }
    let ledger ← advanceBudgetRevision ledger input.budgetID input.expectedRevision micros
    let (ledger, snapshot) ← persistCurrent ledger input.budgetID micros
    let ledger ← insertBudgetEvent ledger snapshot .limitRaised input.idempotencyKey micros
    return (ledger, snapshot)

/-! ### The legacy aggregate -/

/-- A legacy reservation. -/
structure ReserveBudget where
  id : BudgetID
  expectedRevision : Nat
  amount : Money

/-- A legacy posting. -/
structure PostActualCost where
  id : BudgetID
  expectedRevision : Nat
  actual : Money
  releaseReservedMinor : Int
  tokens : TokenCount

/-- Read a budget's row. -/
def scanBudget (id : BudgetID) (operation : String) : Result BudgetRow :=
  match ledger.findBudget id with
  | some row => .ok row
  | none => .error (.typed errNotFound operation errNoRows)

/-- Update the row of one budget at its current revision. -/
def updateBudget (id : BudgetID) (expected : Nat) (operation : String)
    (change : BudgetRow → BudgetRow) : Result (Ledger engine) := do
  let budgets ← repositoryWriteError operation <| ledger.budgets.update fun row =>
    if row.id = id ∧ row.revision = expected then change row else row
  return { ledger with budgets }

/-- `ReserveBudget`. -/
def reserveBudget (input : ReserveBudget) (micros : Int) : Result (Ledger engine) := do
  ensure (input.id.isZero = false) (.new "budget ID must not be empty")
  input.amount.validate
  ensure (0 ≤ input.amount.minorUnits) (.new "reservation amount must not be negative")
  let operation := "reserve budget"
  let current ← scanBudget ledger input.id "read budget for reservation"
  ensure (current.revision = input.expectedRevision)
    (.typed errStaleRevision operation (.new "budget revision changed"))
  ensure (current.currency = input.amount.currency)
    (.typed errConstraint operation (.new "currency mismatch"))
  let snapshot ← computeBudgetSnapshot ledger input.id
  ensure (snapshot.costAccountingUnknown = false ∧ snapshot.tokenAccountingUnknown = false)
    (.typed errBudgetAccountingUnknown operation (.new "prior settled usage is unknown"))
  ensure (snapshot.hardCapReached = false)
    (.typed errBudgetExhausted operation (.new "task hard cap is already reached"))
  let exposure ← addExactCosts snapshot.reservedCost snapshot.chargedCost
  let exposure ← addExactCosts exposure
    (wholeCost input.amount.minorUnits.toNat input.amount.currency)
  ensure (compareExactCosts exposure snapshot.hardCost ≠ .gt)
    (.typed errConstraint operation (.new "hard cost cap exceeded"))
  ensure (input.amount.minorUnits ≤
      current.hardStopCostMinor - current.reservedCostMinor - current.actualCostMinor)
    (.typed errConstraint operation (.new "hard cost cap exceeded"))
  updateBudget ledger input.id input.expectedRevision operation fun row =>
    { row with
      reservedCostMinor := row.reservedCostMinor + input.amount.minorUnits.toNat
      updatedAt := micros
      revision := row.revision + 1 }

/-- `PostActualCost`. -/
def postActualCost (input : PostActualCost) (micros : Int) : Result (Ledger engine) := do
  ensure (input.id.isZero = false) (.new "budget ID must not be empty")
  input.actual.validate
  ensure (0 ≤ input.actual.minorUnits ∧ 0 ≤ input.releaseReservedMinor)
    (.new "actual cost and reservation release must not be negative")
  ensure (input.tokens.toNat ≤ maxInt64)
    (.new "actual token count exceeds SQLite integer range")
  let operation := "post actual cost"
  let current ← scanBudget ledger input.id "read budget for actual cost"
  ensure (current.revision = input.expectedRevision)
    (.typed errStaleRevision operation (.new "budget revision changed"))
  ensure (current.currency = input.actual.currency)
    (.typed errConstraint operation (.new "currency mismatch"))
  ensure (input.releaseReservedMinor ≤ current.reservedCostMinor)
    (.typed errConstraint operation (.new "release exceeds reservation"))
  ensure (input.actual.minorUnits ≤ maxInt64 - current.actualCostMinor)
    (.typed errConstraint operation (.new "actual cost overflow"))
  ensure (input.tokens.toNat ≤ maxInt64 - current.actualTokens.toNat)
    (.typed errConstraint operation (.new "actual token overflow"))
  let newReserved := current.reservedCostMinor - input.releaseReservedMinor.toNat
  let newActual := current.actualCostMinor + input.actual.minorUnits.toNat
  ensure (newReserved ≤ current.hardStopCostMinor ∧
      newActual ≤ current.hardStopCostMinor - newReserved)
    (.typed errConstraint operation (.new "hard cost cap exceeded"))
  updateBudget ledger input.id input.expectedRevision operation fun row =>
    { row with
      reservedCostMinor := newReserved
      actualCostMinor := newActual
      actualTokens := row.actualTokens + input.tokens
      updatedAt := micros
      revision := row.revision + 1 }

/-- The ledger's transactions. -/
inductive Operation
  | create (input : CreateBudget)
  | reserve (input : ReserveProviderBudget)
  | settle (input : SettleProviderBudget)
  | release (input : ReleaseProviderBudget)
  | intent (input : RecordBudgetReconciliationIntent)
  | raise (input : RaiseProviderBudget) (approval : Option ApprovalRow)
  | legacyReserve (input : ReserveBudget)
  | legacyPost (input : PostActualCost)

/-- Run one transaction at a clock reading. -/
def Operation.apply (micros : Int) : Operation → Result (Ledger engine)
  | .create input => createBudget ledger input micros
  | .reserve input => Prod.fst <$> reserveProviderBudget ledger input micros
  | .settle input => Prod.fst <$> settleProviderBudget ledger input micros
  | .release input => Prod.fst <$> releaseProviderBudget ledger input micros
  | .intent input => Prod.fst <$> recordBudgetReconciliationIntent ledger input micros
  | .raise input approval => Prod.fst <$> raiseProviderBudget ledger input approval micros
  | .legacyReserve input => reserveBudget ledger input micros
  | .legacyPost input => postActualCost ledger input micros

end Codeflux.Storage
