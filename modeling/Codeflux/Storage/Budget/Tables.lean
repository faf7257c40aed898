import Codeflux.Storage.Budget.Cost
import Codeflux.Storage.Database

/-!
# The tables of the budget ledger

Each table is modelled with the columns the ledger reads and with its constraints; the columns that
may not be negative are `Nat`, `UInt64` or `StoredCost`.
-/

namespace Codeflux.Storage

open Library Go Domain

/-- The JSON validators: `json.Valid` of the host language and `json_valid` of the database. -/
structure Engine where
  (jsonValid databaseJSONValid : String → Bool)

/-- The independently visible economic classes. -/
inductive BudgetCostCategory
  | model
  | tool
  | infrastructure
deriving DecidableEq

/-- The lifecycle of a reservation. -/
inductive BudgetReservationState
  | active
  | committed
  | released
deriving DecidableEq

/-- The kinds of event the ledger announces. -/
inductive BudgetEventKind
  | warningCost
  | warningTokens
  | hardCapCost
  | hardCapTokens
  | accountingUnknown
  | reconciliationPending
  | limitRaised
deriving DecidableEq

/-- The text of a kind. -/
def BudgetEventKind.text : BudgetEventKind → String
  | .warningCost => "warning-cost"
  | .warningTokens => "warning-tokens"
  | .hardCapCost => "hard-cap-cost"
  | .hardCapTokens => "hard-cap-tokens"
  | .accountingUnknown => "accounting-unknown"
  | .reconciliationPending => "reconciliation-pending"
  | .limitRaised => "limit-raised"

/-! ### Column constraints -/

variable (engine : Engine)

/-- A JSON column: between 2 and 65536 characters, and valid for the database. -/
def Engine.jsonColumn (text : String) : Bool :=
  lengthBetween 2 65536 text && engine.databaseJSONValid text

/-- A currency column: three letters between A and Z. -/
def currencyColumn (text : String) : Bool :=
  text.toList.length == 3 && text.toList.all fun c => 'A' ≤ c && c ≤ 'Z'

/-! ### Rows -/

/-- A row of `budgets`: the initial thresholds and the legacy aggregate. -/
structure BudgetRow where
  id : BudgetID
  taskID : TaskID
  currency : CurrencyCode
  (warningCostMinor hardStopCostMinor : Nat)
  (warningTokens hardStopTokens : TokenCount)
  (maximumProviderCalls maximumToolExecutions : UInt32)
  (reservedCostMinor actualCostMinor : Nat)
  actualTokens : TokenCount
  (createdAt updatedAt : Int)
  revision : Nat
deriving DecidableEq

/-- The constraints of `budgets`. -/
def budgetSchema : Schema BudgetRow where
  check row :=
    currencyColumn row.currency && row.warningCostMinor ≤ row.hardStopCostMinor &&
    fitsColumn row.hardStopTokens && row.warningTokens ≤ row.hardStopTokens &&
    fitsColumn row.actualTokens && 0 ≤ row.createdAt && row.createdAt ≤ row.updatedAt &&
    row.reservedCostMinor + row.actualCostMinor ≤ row.hardStopCostMinor
  conflict a b := a.id == b.id || a.taskID == b.taskID
  conflict_comm a b := by simp only [BEq.comm]

/-- A row of `budget_limit_revisions`: one approved set of limits. -/
structure LimitRow where
  budgetID : BudgetID
  revision : Nat
  (warningCost hardCost : StoredCost)
  currency : CurrencyCode
  (warningTokens hardTokens : TokenCount)
  approvalID : Option ApprovalID
  (actorKind actorReference reason idempotencyKey provenanceJSON : String)
  createdAt : Int

/-- The constraints of limits. -/
def limitSchema : Schema LimitRow where
  check row :=
    currencyColumn row.currency && fitsColumn row.hardTokens &&
    row.warningTokens ≤ row.hardTokens && row.actorKind ∈ ["system", "user", "coordinator"] &&
    lengthBetween 1 255 row.actorReference && lengthBetween 1 2048 row.reason &&
    lengthBetween 1 255 row.idempotencyKey && engine.jsonColumn row.provenanceJSON &&
    0 ≤ row.createdAt
  conflict a b :=
    a.budgetID == b.budgetID && a.revision == b.revision ||
    a.budgetID == b.budgetID && a.idempotencyKey == b.idempotencyKey ||
    a.approvalID.isSome && b.approvalID.isSome && a.approvalID == b.approvalID
  conflict_comm a b := by
    simp [BEq.comm (a := a.budgetID), BEq.comm (a := a.revision), BEq.comm (a := a.idempotencyKey),
      BEq.comm (a := a.approvalID), Bool.and_comm a.approvalID.isSome]

/-- A row of `budget_reservations`: one approved bound for one physical attempt. -/
structure ReservationRow where
  id : String
  budgetID : BudgetID
  taskID : TaskID
  operationID : String
  attemptID : Option String
  retryOrdinal : UInt64
  category : BudgetCostCategory
  providerCallSlots : UInt32
  state : BudgetReservationState
  costBound : StoredCost
  tokenBound : Option TokenCount
  (idempotencyKey provenanceJSON : String)
  (settlement settlementProvenanceJSON : Option String)
  createdAt : Int
  settledAt : Option Int
  revision : Nat
deriving DecidableEq

/-- The constraints of reservations. -/
def reservationSchema : Schema ReservationRow where
  check row :=
    lengthBetween 1 255 row.id && lengthBetween 1 255 row.operationID &&
    row.attemptID.all (lengthBetween 1 255) && fitsColumn row.retryOrdinal &&
    currencyColumn row.costBound.currency && row.tokenBound.all fitsColumn &&
    lengthBetween 1 255 row.idempotencyKey && engine.jsonColumn row.provenanceJSON &&
    row.settlement.all (lengthBetween 1 2048) &&
    row.settlementProvenanceJSON.all engine.jsonColumn && 0 ≤ row.createdAt &&
    row.settledAt.all (row.createdAt ≤ ·) &&
    (row.category == .model) == (1 ≤ row.providerCallSlots) &&
    (row.state == .active) == row.settledAt.isNone
  conflict a b :=
    a.id == b.id || a.budgetID == b.budgetID && a.idempotencyKey == b.idempotencyKey ||
    a.budgetID == b.budgetID && a.operationID == b.operationID &&
      a.retryOrdinal == b.retryOrdinal && a.category == b.category
  conflict_comm a b := by
    simp [BEq.comm (a := a.id), BEq.comm (a := a.budgetID), BEq.comm (a := a.idempotencyKey),
      BEq.comm (a := a.operationID), BEq.comm (a := a.retryOrdinal), BEq.comm (a := a.category)]

/-- A row of `budget_usage_postings`: the usage charged for one reservation. -/
structure PostingRow where
  (id reservationID : String)
  budgetID : BudgetID
  taskID : TaskID
  category : BudgetCostCategory
  actualProviderCallSlots : UInt32
  actualCost : Option StoredCost
  chargedCost : StoredCost
  (actualTokens chargedTokens : Option TokenCount)
  (idempotencyKey provenanceJSON : String)
  createdAt : Int

/-- The constraints of postings. -/
def postingSchema : Schema PostingRow where
  check row :=
    lengthBetween 1 255 row.id && currencyColumn row.chargedCost.currency &&
    row.actualTokens.all fitsColumn && row.chargedTokens.all fitsColumn &&
    lengthBetween 1 255 row.idempotencyKey && engine.jsonColumn row.provenanceJSON &&
    0 ≤ row.createdAt
  conflict a b :=
    a.id == b.id || a.reservationID == b.reservationID ||
    a.budgetID == b.budgetID && a.idempotencyKey == b.idempotencyKey
  conflict_comm a b := by
    simp [BEq.comm (a := a.id), BEq.comm (a := a.reservationID), BEq.comm (a := a.budgetID),
      BEq.comm (a := a.idempotencyKey)]

/-- A row of `budget_reconciliation_intents`: billed usage that still has to be settled. -/
structure IntentRow where
  (id reservationID : String)
  budgetID : BudgetID
  taskID : TaskID
  actualProviderCallSlots : UInt32
  actualCost : Option StoredCost
  currency : CurrencyCode
  actualTokens : Option TokenCount
  (reason idempotencyKey provenanceJSON : String)
  createdAt : Int

/-- The constraints of intents. -/
def intentSchema : Schema IntentRow where
  check row :=
    lengthBetween 1 255 row.id && currencyColumn row.currency &&
    row.actualTokens.all fitsColumn && lengthBetween 1 2048 row.reason &&
    lengthBetween 1 255 row.idempotencyKey && engine.jsonColumn row.provenanceJSON &&
    0 ≤ row.createdAt
  conflict a b :=
    a.id == b.id || a.reservationID == b.reservationID ||
    a.budgetID == b.budgetID && a.idempotencyKey == b.idempotencyKey
  conflict_comm a b := by
    simp [BEq.comm (a := a.id), BEq.comm (a := a.reservationID), BEq.comm (a := a.budgetID),
      BEq.comm (a := a.idempotencyKey)]

/-- A row of `budget_snapshots`: the aggregate after one operation. -/
structure SnapshotRow where
  budgetID : BudgetID
  revision : Nat
  taskID : TaskID
  limitRevision : Nat
  currency : CurrencyCode
  (reservedCost chargedCost actualKnownCost : StoredCost)
  costAccountingUnknown : Bool
  (reservedTokens chargedTokens actualTokens : TokenCount)
  tokenAccountingUnknown : Bool
  (modelReservations toolReservations infrastructureReservations providerCallSlots : UInt64)
  (warningReached reconciliationPending hardCapReached : Bool)
  createdAt : Int

/-- The constraints of snapshots. -/
def snapshotSchema : Schema SnapshotRow where
  check row :=
    currencyColumn row.currency && fitsColumn row.reservedTokens && fitsColumn row.chargedTokens &&
    fitsColumn row.actualTokens && fitsColumn row.modelReservations &&
    fitsColumn row.toolReservations && fitsColumn row.infrastructureReservations &&
    fitsColumn row.providerCallSlots && 0 ≤ row.createdAt
  conflict a b := a.budgetID == b.budgetID && a.revision == b.revision
  conflict_comm a b := by simp only [BEq.comm]

/-- A row of `budget_events`: one announced boundary or limit change. -/
structure EventRow where
  budgetID : BudgetID
  taskID : TaskID
  limitRevision : Nat
  kind : BudgetEventKind
  idempotencyKey : String
  createdAt : Int

/-- The constraints of announcements. -/
def eventSchema : Schema EventRow where
  check row := lengthBetween 1 255 row.idempotencyKey && 0 ≤ row.createdAt
  conflict a b :=
    a.budgetID == b.budgetID && a.limitRevision == b.limitRevision && a.kind == b.kind ||
    a.budgetID == b.budgetID && a.idempotencyKey == b.idempotencyKey
  conflict_comm a b := by simp only [BEq.comm]

/-- The state of the database, as far as the budget ledger reads and writes it. -/
structure Ledger (engine : Engine) where
  budgets : Table budgetSchema
  limits : Table (limitSchema engine)
  reservations : Table (reservationSchema engine)
  postings : Table (postingSchema engine)
  intents : Table (intentSchema engine)
  snapshots : Table snapshotSchema
  events : Table eventSchema

/-- The database before any budget is created. -/
def Ledger.empty : Ledger engine :=
  ⟨.empty, .empty, .empty, .empty, .empty, .empty, .empty⟩

end Codeflux.Storage
