import Mathlib

/-!
# The monotonic clock

`std::time::Instant` and `std::time::Duration`, in nanoseconds. An instant counts from the origin
of the clock; the clock ends with the seconds an `i64` holds.
-/

namespace Rust

/-- `std::time::Instant`: the nanoseconds since the origin of the clock. -/
abbrev Instant := ℕ

/-- `std::time::Duration`, in nanoseconds. -/
abbrev Duration := ℕ

namespace Duration

/-- `Duration::from_millis`. -/
def fromMillis (millis : ℕ) : Duration := millis * 1000000

/-- `Duration::from_secs`. -/
def fromSecs (secs : ℕ) : Duration := secs * 1000000000

end Duration

namespace Instant

/-- The last instant of the clock. -/
def latest : Instant := 2 ^ 63 * 1000000000 - 1

/-- `Instant::checked_add`. -/
def checkedAdd (t : Instant) (d : Duration) : Option Instant :=
  if t + d ≤ latest then some (t + d) else none

/-- `Instant::saturating_duration_since`. -/
def saturatingDurationSince (t earlier : Instant) : Duration := t - earlier

end Instant

end Rust
