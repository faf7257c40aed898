import Codeflux.Storage.Budget.Tables

/-!
# Budget snapshots

Three queries feed a snapshot: the active reservations that carry no unsettled reconciliation
intent, the intents without a posting, and the postings; the legacy columns of the budget's row
count towards the infrastructure category.
-/

namespace Codeflux.Storage

open Library Go Domain

variable {engine : Engine}

/-! ### Queries -/

variable (ledger : Ledger engine) (budgetID : BudgetID)

namespace Ledger

/-- The row of a budget. -/
def findBudget : Option BudgetRow :=
  ledger.budgets.rows.find? (·.id = budgetID)

/-- The row of a reservation. -/
def findReservation (id : String) : Option ReservationRow :=
  ledger.reservations.rows.find? (·.id = id)

/-- The limits of a budget. -/
def limitsOf : List LimitRow :=
  ledger.limits.rows.filter (·.budgetID = budgetID)

/-- The limits of the greatest revision. -/
def latestLimit : Option LimitRow :=
  (ledger.limitsOf budgetID).find? fun row =>
    decide (∀ other ∈ ledger.limitsOf budgetID, other.revision ≤ row.revision)

/-- Does the reservation have a usage posting? -/
def posted (reservationID : String) : Bool :=
  ledger.postings.rows.any (·.reservationID = reservationID)

/-- Does the reservation have a reconciliation intent? -/
def hasIntent (reservationID : String) : Bool :=
  ledger.intents.rows.any (·.reservationID = reservationID)

/-- Does the reservation have a reconciliation intent and no usage posting? -/
def pending (reservationID : String) : Bool :=
  ledger.hasIntent reservationID && !ledger.posted reservationID

/-- The first query of a snapshot. -/
def activeReservations : List ReservationRow :=
  orderBy (·.createdAt) (·.id) <| ledger.reservations.rows.filter fun row =>
    row.budgetID = budgetID ∧ row.state = .active ∧ ledger.pending row.id = false

/-- Rows joined with the reservation they are about. -/
def joinReservation {α : Type} (reservationID : α → String)
    (rows : List α) : List (α × ReservationRow) :=
  rows.filterMap fun row => (ledger.findReservation (reservationID row)).map (row, ·)

/-- The second query. -/
def pendingIntents : List (IntentRow × ReservationRow) :=
  ledger.joinReservation (·.reservationID) <| orderBy (·.createdAt) (·.id) <|
    ledger.intents.rows.filter fun row =>
      row.budgetID = budgetID ∧ ledger.posted row.reservationID = false

/-- The third query. -/
def usagePostings : List (PostingRow × ReservationRow) :=
  ledger.joinReservation (·.reservationID) <| orderBy (·.createdAt) (·.id) <|
    ledger.postings.rows.filter (·.budgetID = budgetID)

end Ledger

/-! ### Categories -/

/-- The exposure of one category. -/
structure BudgetCategorySnapshot where
  reservationCount : UInt64 := 0
  providerCallSlots : UInt64 := 0
  (reservedCost chargedCost actualKnownCost : StoredCost)
  costUnknown : Bool := false
  reservedTokens : TokenCount := 0
  chargedTokens : TokenCount := 0
  actualTokens : TokenCount := 0
  tokensUnknown : Bool := false
  reconciliationPending : Bool := false

variable (currency : CurrencyCode)

/-- A category before any row is counted. -/
def emptyCategory : BudgetCategorySnapshot where
  reservedCost := zeroExactCost currency
  chargedCost := zeroExactCost currency
  actualKnownCost := zeroExactCost currency

/-- The three categories, in the order in which they are reported. -/
structure CategorySnapshots where
  (model tool infrastructure : BudgetCategorySnapshot)

namespace CategorySnapshots

/-- The categories in order. -/
def toList (categories : CategorySnapshots) : List BudgetCategorySnapshot :=
  [categories.model, categories.tool, categories.infrastructure]

/-- Change the entry of one category. -/
def modify (categories : CategorySnapshots) (category : BudgetCostCategory)
    (change : BudgetCategorySnapshot → Result BudgetCategorySnapshot) :
    Result CategorySnapshots :=
  match category with
  | .model => return { categories with model := ← change categories.model }
  | .tool => return { categories with tool := ← change categories.tool }
  | .infrastructure =>
    return { categories with infrastructure := ← change categories.infrastructure }

end CategorySnapshots

/-- Count an active reservation. -/
def addActiveReservation (row : ReservationRow)
    (item : BudgetCategorySnapshot) : Result BudgetCategorySnapshot := do
  let reservedCost ← addExactCosts item.reservedCost (row.costBound.inCurrency currency)
  return { item with
    reservationCount := item.reservationCount + 1
    providerCallSlots := item.providerCallSlots + row.providerCallSlots.toUInt64
    reservedCost
    reservedTokens := item.reservedTokens + row.tokenBound.getD 0 }

/-- The call slots a row counts: what was recorded, or the reserved bound when nothing was. -/
def countedSlots (actual reserved : UInt32) : UInt64 :=
  if actual = 0 then reserved.toUInt64 else actual.toUInt64

/-- The cost an intent charges while it is pending: what was billed, or the bound. -/
def pendingCost (intent : IntentRow) (reservation : ReservationRow) : StoredCost :=
  intent.actualCost.getD reservation.costBound

/-- Add a known cost to the known total, and leave the total alone for an unknown one. -/
def addKnownCost (total : StoredCost) (known : Option StoredCost) : Result StoredCost :=
  match known with
  | some cost => addExactCosts total (cost.inCurrency currency)
  | none => return total

/-- Count a pending intent. -/
def addPendingIntent (row : IntentRow × ReservationRow)
    (item : BudgetCategorySnapshot) : Result BudgetCategorySnapshot := do
  let actualKnownCost ← addKnownCost currency item.actualKnownCost row.1.actualCost
  let chargedCost ←
    addExactCosts item.chargedCost ((pendingCost row.1 row.2).inCurrency currency)
  return { item with
    reservationCount := item.reservationCount + 1
    providerCallSlots := item.providerCallSlots +
      countedSlots row.1.actualProviderCallSlots row.2.providerCallSlots
    reconciliationPending := true
    actualKnownCost
    costUnknown := item.costUnknown || row.1.actualCost.isNone
    chargedCost
    actualTokens := item.actualTokens + row.1.actualTokens.getD 0
    tokensUnknown := item.tokensUnknown || row.1.actualTokens.isNone
    chargedTokens := item.chargedTokens + row.1.actualTokens.getD (row.2.tokenBound.getD 0) }

/-- Count a posting. -/
def addUsagePosting (row : PostingRow × ReservationRow)
    (item : BudgetCategorySnapshot) : Result BudgetCategorySnapshot := do
  let chargedCost ← addExactCosts item.chargedCost (row.1.chargedCost.inCurrency currency)
  let actualKnownCost ← addKnownCost currency item.actualKnownCost row.1.actualCost
  return { item with
    reservationCount := item.reservationCount + 1
    providerCallSlots := item.providerCallSlots +
      countedSlots row.1.actualProviderCallSlots row.2.providerCallSlots
    chargedCost
    actualKnownCost
    costUnknown := item.costUnknown || row.1.actualCost.isNone
    chargedTokens := item.chargedTokens + row.1.chargedTokens.getD 0
    actualTokens := item.actualTokens + row.1.actualTokens.getD 0
    tokensUnknown := item.tokensUnknown || row.1.actualTokens.isNone }

/-- The categories before any row of the exact ledger is counted: the legacy aggregate is an
infrastructure cost. -/
def legacyCategories (budget : BudgetRow) (currency : CurrencyCode) : CategorySnapshots where
  model := emptyCategory currency
  tool := emptyCategory currency
  infrastructure := { emptyCategory currency with
    reservedCost := wholeCost budget.reservedCostMinor currency
    chargedCost := wholeCost budget.actualCostMinor currency
    actualKnownCost := wholeCost budget.actualCostMinor currency
    chargedTokens := budget.actualTokens
    actualTokens := budget.actualTokens }

/-- The three categories, counted. -/
def loadBudgetCategorySnapshots (budget : BudgetRow)
    (currency : CurrencyCode) : Result CategorySnapshots := do
  let categories := legacyCategories budget currency
  let categories ← (ledger.activeReservations budget.id).foldlM
    (fun categories row => categories.modify row.category (addActiveReservation currency row))
    categories
  let categories ← (ledger.pendingIntents budget.id).foldlM
    (fun categories row => categories.modify row.2.category (addPendingIntent currency row))
    categories
  (ledger.usagePostings budget.id).foldlM
    (fun categories row => categories.modify row.1.category (addUsagePosting currency row))
    categories

/-- The sums over the three categories. -/
structure BudgetTotals where
  providerCallSlots : UInt64 := 0
  (reservedCost chargedCost actualKnownCost : StoredCost)
  costAccountingUnknown : Bool := false
  tokenAccountingUnknown : Bool := false
  reconciliationPending : Bool := false
  reservedTokens : TokenCount := 0
  chargedTokens : TokenCount := 0
  actualTokens : TokenCount := 0

/-- The sum of two unsigned values does not wrap around. -/
def NoWrap (a b : UInt64) : Prop :=
  a.toNat + b.toNat ≤ maxUint64

instance (a b : UInt64) : Decidable (NoWrap a b) :=
  inferInstanceAs (Decidable (a.toNat + b.toNat ≤ maxUint64))

/-- Add a category to the totals. -/
def addCategory (totals : BudgetTotals) (category : BudgetCategorySnapshot) :
    Result BudgetTotals := do
  ensure (NoWrap totals.providerCallSlots category.providerCallSlots)
    (.new "budget provider-call aggregate overflow")
  let reservedCost ← addExactCosts totals.reservedCost category.reservedCost
  let chargedCost ← addExactCosts totals.chargedCost category.chargedCost
  let actualKnownCost ← addExactCosts totals.actualKnownCost category.actualKnownCost
  ensure (NoWrap totals.reservedTokens category.reservedTokens ∧
      NoWrap totals.chargedTokens category.chargedTokens ∧
      NoWrap totals.actualTokens category.actualTokens)
    (.new "budget token aggregate overflow")
  return {
    providerCallSlots := totals.providerCallSlots + category.providerCallSlots
    reservedCost
    chargedCost
    actualKnownCost
    costAccountingUnknown := totals.costAccountingUnknown || category.costUnknown
    tokenAccountingUnknown := totals.tokenAccountingUnknown || category.tokensUnknown
    reconciliationPending := totals.reconciliationPending || category.reconciliationPending
    reservedTokens := totals.reservedTokens + category.reservedTokens
    chargedTokens := totals.chargedTokens + category.chargedTokens
    actualTokens := totals.actualTokens + category.actualTokens }

/-- Totals of nothing. -/
def emptyTotals : BudgetTotals where
  reservedCost := zeroExactCost currency
  chargedCost := zeroExactCost currency
  actualKnownCost := zeroExactCost currency

/-- One revision-bound view of a budget. -/
structure BudgetSnapshot extends BudgetTotals where
  budgetID : BudgetID
  taskID : TaskID
  (revision limitRevision : Nat)
  (warningCost hardCost : StoredCost)
  (warningTokens hardTokens : TokenCount)
  remainingCost : Option StoredCost
  remainingTokens : Option TokenCount
  (warningReached hardCapReached : Bool)
  categories : CategorySnapshots
  createdAt : Int

/-- Tokens left below the hard cap, or none. -/
def tokensLeft (hard exposed : TokenCount) : TokenCount :=
  if exposed < hard then hard - exposed else 0

/-- The snapshot made of a budget's row, its current limits and its totals. -/
def snapshotOf (budget : BudgetRow) (limit : LimitRow) (categories : CategorySnapshots)
    (totals : BudgetTotals) (exposure : StoredCost) : BudgetSnapshot :=
  let hardCost := limit.hardCost.inCurrency limit.currency
  let warningCost := limit.warningCost.inCurrency limit.currency
  let exposedTokens := totals.reservedTokens + totals.chargedTokens
  { totals with
    budgetID := budget.id
    taskID := budget.taskID
    revision := budget.revision
    limitRevision := limit.revision
    warningCost
    hardCost
    warningTokens := limit.warningTokens
    hardTokens := limit.hardTokens
    remainingCost :=
      if totals.costAccountingUnknown then none
      else some (subtractExactCostsFloorZero hardCost exposure)
    remainingTokens :=
      if totals.tokenAccountingUnknown then none
      else some (tokensLeft limit.hardTokens exposedTokens)
    warningReached :=
      compareExactCosts exposure warningCost ≠ .lt || limit.warningTokens ≤ exposedTokens
    hardCapReached :=
      totals.reconciliationPending || totals.costAccountingUnknown ||
      totals.tokenAccountingUnknown || compareExactCosts exposure hardCost ≠ .lt ||
      limit.hardTokens ≤ exposedTokens
    categories
    createdAt := budget.updatedAt }

/-- The current snapshot of a budget. -/
def computeBudgetSnapshot : Result BudgetSnapshot :=
  match ledger.findBudget budgetID, ledger.latestLimit budgetID with
  | some budget, some limit => do
    let categories ← loadBudgetCategorySnapshots ledger budget limit.currency
    let totals ← categories.toList.foldlM addCategory (emptyTotals limit.currency)
    let exposure ← addExactCosts totals.reservedCost totals.chargedCost
    return snapshotOf budget limit categories totals exposure
  | _, _ => .error (.typed errNotFound "compute budget snapshot" errNoRows)

end Codeflux.Storage
