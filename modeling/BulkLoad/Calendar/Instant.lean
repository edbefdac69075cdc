import BulkLoad.Calendar.Date

/-!
# Instants

An instant is a number of whole seconds since 1970-01-01T00:00:00Z, rounded down, and the
nanoseconds after it. From 10⁹ nanoseconds on it lies in a leap second, which follows the last
second of a minute. Instants reach from the first second of the year -262143 to the last of 262142.
-/

namespace BulkLoad.Calendar

/-- The seconds of the first instant. -/
def firstSecond : Int := -8334601228800

/-- The seconds of the last instant. -/
def lastSecond : Int := 8210266876799

/-- A moment in time. -/
structure Instant where
  seconds : Int
  nanos : Nat
  first_le : firstSecond ≤ seconds
  le_last : seconds ≤ lastSecond
  nanos_lt : nanos < 2 * 1000000000
deriving DecidableEq

namespace Instant

/-- The instant with the given seconds and nanoseconds, if there is one. -/
def ofEpoch? (seconds : Int) (nanos : Nat) : Option Instant :=
  if h : firstSecond ≤ seconds ∧ seconds ≤ lastSecond ∧ nanos < 2 * 1000000000 then
    if 1000000000 ≤ nanos && seconds % 60 ≠ 59 then none
    else some ⟨seconds, nanos, h.1, h.2.1, h.2.2⟩
  else none

/-- The whole seconds as a signed 64-bit integer. -/
def seconds64 (t : Instant) : Int64 :=
  Int64.ofInt t.seconds

theorem toInt_seconds64 (t : Instant) : t.seconds64.toInt = t.seconds := by
  have h1 := t.first_le
  have h2 := t.le_last
  simp only [firstSecond, lastSecond] at h1 h2
  exact Int64.toInt_ofInt_of_le (by omega) (by omega)

end Instant

end BulkLoad.Calendar
