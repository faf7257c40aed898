import Codeflux.Domain.Policy
import Mathlib.Data.Rat.Lemmas
import Mathlib.Algebra.Order.Field.Rat
import Mathlib.Algebra.Order.Field.Basic

/-!
# Exact costs

Costs are fractions of a minor unit with a 64-bit numerator and denominator. Sums are formed
exactly, and refused when the reduced result does not fit the two columns again.
-/

namespace Codeflux.Storage

open Library Go Domain

/-- A fraction of a currency minor unit. -/
structure ExactMinorCost where
  (numerator denominator : Int)
  currency : CurrencyCode
deriving DecidableEq

/-- The amount of a cost. -/
def ExactMinorCost.amount (value : ExactMinorCost) : ℚ :=
  value.numerator / value.denominator

/-- A cost that a row can hold: the column constraints keep it from being negative and its
denominator from being zero. -/
structure StoredCost extends ExactMinorCost where
  numerator_nonneg : 0 ≤ numerator
  denominator_pos : 0 < denominator
deriving DecidableEq

variable (value : StoredCost)

/-- The amount of a stored cost. -/
def exactCostRat : ℚ :=
  value.toExactMinorCost.amount

theorem exactCostRat_nonneg : 0 ≤ exactCostRat value :=
  div_nonneg (by exact_mod_cast value.numerator_nonneg)
    (by exact_mod_cast value.denominator_pos.le)

variable (currency : CurrencyCode)

/-- The same amount in another currency; the ledger's queries read amounts into the currency of
the limit. -/
def StoredCost.inCurrency : StoredCost :=
  { value with currency }

@[simp] theorem StoredCost.inCurrency_currency :
    (value.inCurrency currency).currency = currency := rfl

@[simp] theorem exactCostRat_inCurrency :
    exactCostRat (value.inCurrency currency) = exactCostRat value :=
  rfl

/-- A whole number of minor units, as the legacy columns hold it. -/
def wholeCost (units : Nat) (currency : CurrencyCode) : StoredCost where
  numerator := units
  denominator := 1
  currency
  numerator_nonneg := Int.natCast_nonneg units
  denominator_pos := Int.one_pos

@[simp] theorem exactCostRat_wholeCost (units : Nat) (currency : CurrencyCode) :
    exactCostRat (wholeCost units currency) = units := by
  simp [exactCostRat, ExactMinorCost.amount, wholeCost]

/-- No cost. -/
def zeroExactCost : StoredCost :=
  wholeCost 0 currency

/-! ### Lowest terms -/

/-- Euclid's loop, with a bound on its rounds. -/
def euclid : Nat → Int → Int → Int
  | 0, left, _ => left
  | rounds + 1, left, right => if right = 0 then left else euclid rounds right (left.tmod right)

/-- The greatest common divisor, or one. -/
def greatestCommonDivisor (left right : Int) : Int :=
  let divisor := euclid (right.natAbs + 1) left right
  if divisor = 0 then 1 else divisor

theorem euclid_eq_gcd (rounds left right : Nat) (h : right < rounds) :
    euclid rounds left right = Nat.gcd left right := by
  induction rounds generalizing left right with
  | zero => omega
  | succ rounds ih =>
    unfold euclid
    split_ifs with hz
    · have hr : right = 0 := by exact_mod_cast hz
      simp [hr]
    · have hpos : 0 < right := Nat.pos_of_ne_zero (by exact_mod_cast hz)
      have hlt := Nat.mod_lt left hpos
      rw [← Int.ofNat_tmod, ih right (left % right) (by omega), Nat.gcd_comm right (left % right),
        ← Nat.gcd_rec, Nat.gcd_comm]

theorem greatestCommonDivisor_eq {left right : Int} (hl : 0 ≤ left) (hr : 0 < right) :
    greatestCommonDivisor left right = Int.gcd left right := by
  obtain ⟨l, rfl⟩ := Int.eq_ofNat_of_zero_le hl
  obtain ⟨r, rfl⟩ := Int.eq_ofNat_of_zero_le hr.le
  have hpos : 0 < r := by exact_mod_cast hr
  have hgcd : Nat.gcd l r ≠ 0 := (Nat.gcd_pos_of_pos_right l hpos).ne'
  unfold greatestCommonDivisor
  rw [Int.natAbs_natCast, euclid_eq_gcd (r + 1) l r (Nat.lt_succ_self r)]
  simp [hgcd]

variable {left right normalized total : StoredCost} {numerator denominator : Int}
  {cost : ExactMinorCost}

/-- Dividing both terms by their greatest common divisor leaves a cost of the same amount. -/
theorem lowestTerms (hn : 0 ≤ numerator) (hd : 0 < denominator) :
    let divisor := greatestCommonDivisor numerator denominator
    0 ≤ numerator.tdiv divisor ∧ 0 < denominator.tdiv divisor ∧
      (numerator.tdiv divisor : ℚ) / denominator.tdiv divisor = numerator / denominator := by
  have hpos : (0 : Int) < Int.gcd numerator denominator := by
    exact_mod_cast Int.gcd_pos_of_ne_zero_right _ hd.ne'
  obtain ⟨a, ha⟩ := Int.gcd_dvd_left numerator denominator
  obtain ⟨b, hb⟩ := Int.gcd_dvd_right numerator denominator
  simp only [greatestCommonDivisor_eq hn hd]
  generalize ((Int.gcd numerator denominator : Nat) : Int) = g at *
  subst ha hb
  have ha0 : 0 ≤ a := nonneg_of_mul_nonneg_right hn hpos
  have hb0 : 0 < b := (mul_pos_iff_of_pos_left hpos).1 hd
  have hgq : (g : ℚ) ≠ 0 := by exact_mod_cast hpos.ne'
  rw [Int.mul_tdiv_cancel_left _ hpos.ne', Int.mul_tdiv_cancel_left _ hpos.ne']
  refine ⟨ha0, hb0, ?_⟩
  push_cast
  rw [mul_div_mul_left _ _ hgq]

/-- The cost in lowest terms. -/
def normalizeExactCost (cost : ExactMinorCost) : Result StoredCost :=
  if h : 0 ≤ cost.numerator ∧ 0 < cost.denominator then do
    let currency ← parseCurrencyCode cost.currency
    let divisor := greatestCommonDivisor cost.numerator cost.denominator
    return { numerator := cost.numerator.tdiv divisor
             denominator := cost.denominator.tdiv divisor
             currency
             numerator_nonneg := (lowestTerms h.1 h.2).1
             denominator_pos := (lowestTerms h.1 h.2).2.1 }
  else
    .error (.new "exact provider cost must be non-negative with a positive denominator")

theorem normalizeExactCost_ok (h : normalizeExactCost cost = .ok normalized) :
    exactCostRat normalized = cost.amount ∧ normalized.currency = cost.currency := by
  unfold normalizeExactCost at h
  split_ifs at h with hs
  simp only [run_ok_iff] at h
  obtain ⟨currency, hc, rfl⟩ := h
  exact ⟨(lowestTerms hs.1 hs.2).2.2, parseCurrencyCode_ok hc⟩

theorem greatestCommonDivisor_lowestTerms (hn : 0 ≤ numerator) (hd : 0 < denominator) :
    greatestCommonDivisor
        (numerator.tdiv (greatestCommonDivisor numerator denominator))
        (denominator.tdiv (greatestCommonDivisor numerator denominator)) = 1 := by
  obtain ⟨hn', hd', _⟩ := lowestTerms hn hd
  rw [greatestCommonDivisor_eq hn' hd', greatestCommonDivisor_eq hn hd]
  have hpos : 0 < Int.gcd numerator denominator := Int.gcd_pos_of_ne_zero_right _ hd.ne'
  rw [Int.tdiv_eq_ediv_of_dvd (Int.gcd_dvd_left ..), Int.tdiv_eq_ediv_of_dvd (Int.gcd_dvd_right ..),
    Int.gcd_ediv_gcd_ediv_gcd hpos]
  rfl

theorem normalizeExactCost_idem (h : normalizeExactCost cost = .ok normalized) :
    normalizeExactCost normalized.toExactMinorCost = .ok normalized := by
  unfold normalizeExactCost at h
  split_ifs at h with hs
  simp only [run_ok_iff] at h
  obtain ⟨currency, hc, rfl⟩ := h
  obtain rfl := parseCurrencyCode_ok hc
  have hone := greatestCommonDivisor_lowestTerms hs.1 hs.2
  obtain ⟨hn', hd', _⟩ := lowestTerms hs.1 hs.2
  unfold normalizeExactCost
  rw [dif_pos ⟨hn', hd'⟩]
  simp only [run_ok_iff, hone, Int.tdiv_one]
  exact ⟨cost.currency, hc, rfl⟩

/-! ### Exact arithmetic -/

/-- The rationals that fit the numerator and denominator columns. -/
def Storable (value : ℚ) : Prop :=
  0 ≤ value ∧ value.num ≤ maxInt64 ∧ value.den ≤ maxInt64

instance (value : ℚ) : Decidable (Storable value) :=
  inferInstanceAs (Decidable (0 ≤ value ∧ value.num ≤ maxInt64 ∧ value.den ≤ maxInt64))

/-- The reduced fraction of a rational that is not negative. -/
def reducedCost (value : ℚ) (h : 0 ≤ value) : StoredCost where
  numerator := value.num
  denominator := value.den
  currency
  numerator_nonneg := Rat.num_nonneg.2 h
  denominator_pos := by exact_mod_cast value.den_pos

@[simp] theorem exactCostRat_reducedCost (value : ℚ) (h : 0 ≤ value) :
    exactCostRat (reducedCost currency value h) = value := by
  simpa [exactCostRat, ExactMinorCost.amount, reducedCost] using Rat.num_div_den value

/-- The cost of a rational, if it fits. -/
def exactCostFromRat (value : ℚ) : Result StoredCost :=
  if h : Storable value then .ok (reducedCost currency value h.1)
  else .error (.new "exact budget aggregate exceeds storage range")

/-- The sum, if it fits. -/
def addExactCosts (left right : StoredCost) : Result StoredCost := do
  ensure (left.currency = right.currency) (.new "exact budget currencies differ")
  exactCostFromRat left.currency (exactCostRat left + exactCostRat right)

/-- The comparison of two costs, by currency first. -/
def compareExactCosts (left right : StoredCost) : Ordering :=
  if left.currency = right.currency then compare (exactCostRat left) (exactCostRat right)
  else compare left.currency right.currency

/-- The difference, or zero. -/
def subtractExactCostsFloorZero (left right : StoredCost) : StoredCost :=
  if compareExactCosts left right ≠ .gt then zeroExactCost left.currency
  else
    match exactCostFromRat left.currency (exactCostRat left - exactCostRat right) with
    | .ok value => value
    | .error _ => zeroExactCost left.currency

/-- An addition succeeds exactly on one currency and a storable sum. -/
theorem addExactCosts_ok_iff :
    addExactCosts left right = .ok total ↔
      left.currency = right.currency ∧
        ∃ h : Storable (exactCostRat left + exactCostRat right),
          total = reducedCost left.currency (exactCostRat left + exactCostRat right) h.1 := by
  simp only [addExactCosts, exactCostFromRat, run_ok_iff, exists_and_left, exists_const]
  refine and_congr_right fun _ => ?_
  split_ifs with h
  · simp [h, eq_comm]
  · simp [h]

theorem addExactCosts_ok (h : addExactCosts left right = .ok total) :
    exactCostRat total = exactCostRat left + exactCostRat right ∧
      total.currency = left.currency := by
  obtain ⟨_, _, rfl⟩ := addExactCosts_ok_iff.1 h
  exact ⟨exactCostRat_reducedCost _ _ _, rfl⟩

theorem compareExactCosts_ne_gt (hc : left.currency = right.currency) :
    compareExactCosts left right ≠ .gt ↔ exactCostRat left ≤ exactCostRat right := by
  simp [compareExactCosts, hc, compare_le_iff_le]

theorem compareExactCosts_ne_lt (hc : left.currency = right.currency) :
    compareExactCosts left right ≠ .lt ↔ exactCostRat right ≤ exactCostRat left := by
  simp [compareExactCosts, hc, compare_ge_iff_ge]

end Codeflux.Storage
