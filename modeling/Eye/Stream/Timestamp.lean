import Mathlib.Data.List.Basic
import Eye.Core.CommonTypes
import Eye.Lib.Increasing

/-!
# The timestamps of frames

`next_monotonic_timestamp_ms`: every `StreamFrame` of every stream takes its timestamp from one
counter, which follows the clock and never repeats. The clock is read before the lock is taken.
-/

namespace Eye

/-- `next_monotonic_timestamp_ms` under its lock, with the clock reading `now`: the value that it
returns and stores in `last_timestamp`. -/
def nextMonotonicTimestampMs (lastTimestamp now : UInt64) : UInt64 :=
  if now ≤ lastTimestamp then lastTimestamp + 1 else now

/-- The next timestamp does not wrap around. -/
def NoWrap (lastTimestamp now : UInt64) : Prop :=
  now ≤ lastTimestamp → lastTimestamp.toNat + 1 < 2 ^ 64

instance (lastTimestamp now : UInt64) : Decidable (NoWrap lastTimestamp now) :=
  inferInstanceAs (Decidable (_ → _))

variable {lastTimestamp now : UInt64}

/-- That is, the least possible timestamp fits. -/
theorem noWrap_iff :
    NoWrap lastTimestamp now ↔ Increasing.next lastTimestamp.toNat now.toNat < 2 ^ 64 := by
  have hnow := now.toNat_lt
  unfold NoWrap Increasing.next
  rw [UInt64.le_iff_toNat_le, Nat.max_lt]
  constructor
  · intro h
    refine ⟨?_, hnow⟩
    by_contra hno
    have := h (by omega)
    omega
  · intro h _
    exact h.1

/-- While it does not wrap around, the next timestamp is the least possible one. -/
theorem toNat_nextMonotonicTimestampMs (h : NoWrap lastTimestamp now) :
    (nextMonotonicTimestampMs lastTimestamp now).toNat =
      Increasing.next lastTimestamp.toNat now.toNat := by
  unfold nextMonotonicTimestampMs Increasing.next
  split_ifs with hle
  · have hfit := h hle
    rw [UInt64.le_iff_toNat_le] at hle
    rw [UInt64.toNat_add, UInt64.toNat_one, Nat.mod_eq_of_lt hfit]
    omega
  · rw [UInt64.le_iff_toNat_le] at hle
    omega

theorem lt_nextMonotonicTimestampMs (h : NoWrap lastTimestamp now) :
    lastTimestamp < nextMonotonicTimestampMs lastTimestamp now := by
  rw [UInt64.lt_iff_toNat_lt, toNat_nextMonotonicTimestampMs h]
  exact Nat.le_max_left _ _

end Eye
