import Codeflux.Library.Table
import Codeflux.Domain.Failure

/-!
# What the repositories share

The classes of a storage error, the column constraints that several tables have, and the error of a
write that breaks a constraint.
-/

namespace Codeflux.Storage

open Library Go

/-- There is no such row. -/
def errNotFound : Failure := .new "database entity not found"
/-- The row was changed by others. -/
def errConflict : Failure := .new "database write conflict"
/-- A constraint is broken. -/
def errConstraint : Failure := .new "database constraint"
/-- The revision is not the current one. -/
def errStaleRevision : Failure := .new "database entity revision is stale"

/-- The empty answer of a query for one row. -/
def errNoRows : Failure := .new "sql: no rows in result set"

/-- The error of a write that breaks a constraint: `repositoryWriteError`. -/
def repositoryWriteError {α : Type} (operation : String) : Except Violation α → Result α
  | .ok written => .ok written
  | .error .unique => .error (.typed errConflict operation (.new "UNIQUE constraint failed"))
  | .error .check => .error (.typed errConstraint operation (.new "CHECK constraint failed"))

@[simp] theorem repositoryWriteError_ok_iff {α : Type} {operation : String}
    {written : Except Violation α} {a : α} :
    repositoryWriteError operation written = .ok a ↔ written = .ok a := by
  rcases written with (_ | _) | b <;> simp [repositoryWriteError]

/-- `INSERT OR IGNORE`: a row that breaks a constraint is left out. -/
def insertOrIgnore {α : Type} {S : Schema α} (table : Table S) (row : α) : Table S :=
  match table.insert row with
  | .ok written => written
  | .error _ => table

theorem forall_insertOrIgnore {α : Type} {S : Schema α} {table : Table S} {row : α} {p : α → Prop}
    (hrows : ∀ r ∈ table.rows, p r) (hrow : p row) :
    ∀ r ∈ (insertOrIgnore table row).rows, p r := by
  unfold insertOrIgnore
  split
  · next written hwritten =>
    rw [(Table.insert_ok_iff.1 hwritten).2]
    simpa [or_imp, forall_and] using ⟨hrows, hrow⟩
  · exact hrows

/-- The check of a request's text: not blank, and not too long without its surrounding spaces. -/
def validateBounded (label value : String) (maximum : Nat) : Result Unit := do
  ensure (trimSpace value ≠ "") (.new (label ++ " must not be empty"))
  ensure (byteLength (trimSpace value) ≤ maximum) (.new (label ++ " exceeds maximum length"))

/-! ### Column constraints -/

/-- The database's `length`: characters before the first NUL. -/
def databaseLength (text : String) : Nat :=
  (text.toList.takeWhile (· ≠ '\x00')).length

/-- A text column constrained by `length(column) BETWEEN low AND high`. -/
def lengthBetween (low high : Nat) (text : String) : Bool :=
  low ≤ databaseLength text && databaseLength text ≤ high

/-- An unsigned value bound to a signed 64-bit column. -/
def fitsColumn (value : UInt64) : Bool :=
  value.toNat ≤ maxInt64

theorem fitsColumn_iff {value : UInt64} : fitsColumn value = true ↔ value.toNat ≤ maxInt64 := by
  simp [fitsColumn]

end Codeflux.Storage
