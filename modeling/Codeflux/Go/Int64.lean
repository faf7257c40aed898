import Mathlib.Data.Int.ModEq

/-!
# Arithmetic of `int64`

When a sum, a difference or a product of two `int64` values does not wrap around.
-/

namespace Codeflux.Go

/-- An integer that is an `int64`. -/
def FitsInt64 (n : Int) : Prop := -2 ^ 63 ≤ n ∧ n < 2 ^ 63

theorem FitsInt64.bmod_eq {n : Int} (h : FitsInt64 n) : n.bmod (2 ^ 64) = n :=
  Int.bmod_eq_of_le (by simpa using h.1) (by simpa using h.2)

variable {a b : Int64}

theorem toInt_add_of_fits (h : FitsInt64 (a.toInt + b.toInt)) :
    (a + b).toInt = a.toInt + b.toInt := by
  rw [Int64.toInt_add, h.bmod_eq]

theorem toInt_sub_of_fits (h : FitsInt64 (a.toInt - b.toInt)) :
    (a - b).toInt = a.toInt - b.toInt := by
  rw [Int64.toInt_sub, h.bmod_eq]

theorem toInt_mul_of_fits (h : FitsInt64 (a.toInt * b.toInt)) :
    (a * b).toInt = a.toInt * b.toInt := by
  rw [Int64.toInt_mul, h.bmod_eq]

variable {n : Nat} {k m : Int}

theorem toInt_ofNat_mul (hb : b.toInt = k) (hn : n < 2 ^ 63) (h : FitsInt64 (k * n)) :
    (Int64.ofNat n * b).toInt = k * n := by
  have hcast : (Int64.ofNat n).toInt = n := Int64.toInt_ofNat_of_lt hn
  rw [toInt_mul_of_fits, hcast, hb, mul_comm]
  rwa [hcast, hb, mul_comm]

theorem toInt_add_ofNat_mul (ha : a.toInt = m) (hb : b.toInt = k) (hn : n < 2 ^ 63)
    (hmul : FitsInt64 (k * n)) (h : FitsInt64 (m + k * n)) :
    (a + Int64.ofNat n * b).toInt = m + k * n := by
  have hstep := toInt_ofNat_mul hb hn hmul
  rw [toInt_add_of_fits, ha, hstep]
  rwa [ha, hstep]

end Codeflux.Go
