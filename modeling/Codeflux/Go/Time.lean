import Mathlib.Data.Int.ModEq

/-!
# Times of the host language

A Go `time.Time` is an instant with a location. The model keeps the instant as nanoseconds since the
Unix epoch, without a bound, and of the location only whether it is UTC.
-/

namespace Codeflux.Go

/-- An instant in time. -/
structure Timestamp where
  unixNanos : Int
  utc : Bool
deriving DecidableEq

namespace Timestamp

/-- Is this the zero time, the first instant of year 1? -/
def isZero (t : Timestamp) : Bool := t.unixNanos == -62135596800 * 10 ^ 9

/-- Microseconds since the Unix epoch. The computation is one of `int64`, which wraps around. -/
def unixMicro (t : Timestamp) : Int := (t.unixNanos / 1000).bmod (2 ^ 64)

/-- No part of the instant is below a microsecond. -/
def MicrosecondPrecision (t : Timestamp) : Prop := t.unixNanos % 1000 = 0

instance (t : Timestamp) : Decidable t.MicrosecondPrecision :=
  inferInstanceAs (Decidable (_ = _))

/-- The microseconds of the instant are an `int64`. -/
def FitsMicros (t : Timestamp) : Prop :=
  -2 ^ 63 ≤ t.unixNanos / 1000 ∧ t.unixNanos / 1000 < 2 ^ 63

instance (t : Timestamp) : Decidable t.FitsMicros :=
  inferInstanceAs (Decidable (_ ∧ _))

end Timestamp

/-- The UTC instant of a count of microseconds: `time.UnixMicro(micros).UTC()`. -/
def ofUnixMicro (micros : Int) : Timestamp := ⟨micros * 1000, true⟩

theorem ofUnixMicro_unixMicro_iff {t : Timestamp} (hutc : t.utc = true)
    (hprecise : t.MicrosecondPrecision) : ofUnixMicro t.unixMicro = t ↔ t.FitsMicros := by
  obtain ⟨nanos, utc⟩ := t
  simp only [Timestamp.MicrosecondPrecision] at hutc hprecise
  subst hutc
  simp only [ofUnixMicro, Timestamp.unixMicro, Timestamp.FitsMicros, Timestamp.mk.injEq, and_true]
  have hnanos : nanos = nanos / 1000 * 1000 := by omega
  have hwrap : -2 ^ 63 ≤ (nanos / 1000).bmod (2 ^ 64) ∧ (nanos / 1000).bmod (2 ^ 64) < 2 ^ 63 :=
    ⟨Int.le_bmod (by decide), Int.bmod_lt (by decide)⟩
  constructor
  · intro h
    have : (nanos / 1000).bmod (2 ^ 64) = nanos / 1000 := by omega
    rwa [this] at hwrap
  · rintro ⟨hlow, hhigh⟩
    rw [Int.bmod_eq_of_le (by simpa using hlow) (by simpa using hhigh)]
    exact hnanos.symm

@[simp] theorem unixMicro_ofUnixMicro_unixMicro (t : Timestamp) :
    (ofUnixMicro t.unixMicro).unixMicro = t.unixMicro := by
  simp [ofUnixMicro, Timestamp.unixMicro]

end Codeflux.Go
