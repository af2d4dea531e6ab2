import Mathlib

/-!
# Deadlines on a clock that wraps

A clock of 32 bits shows the time modulo `2 ^ 32`.  Whether a deadline is still ahead is read off
the sign of the difference between its stamp and the clock, as a number of 32 bits.

While the deadline is at most `2 ^ 31 - 1` ahead, the sign says so.  Behind the deadline the sign is
right for the next `2 ^ 31` ticks, then wrong for nearly as many, and so on:
`ahead_stamp_iff_of_le`.
-/

set_option autoImplicit false

namespace WrappingClock

/-- What the clock shows at a time. -/
def stamp (t : Nat) : UInt32 :=
  UInt32.ofNat t

/-- Does the clock show a time in front of the deadline? -/
def ahead (deadline now : UInt32) : Bool :=
  0 < (deadline - now).toInt32

theorem toInt32_pos_iff (x : UInt32) : 0 < x.toInt32 ↔ 0 < x.toNat ∧ x.toNat < 2 ^ 31 := by
  have hx := x.toNat_lt
  rw [Int32.lt_iff_toInt_lt, Int32.toInt_zero, ← Int32.toInt_toBitVec, UInt32.toBitVec_toInt32,
    BitVec.toInt_eq_toNat_cond, UInt32.toNat_toBitVec]
  split <;> omega

theorem toNat_stamp_sub (d t : Nat) :
    (stamp d - stamp t).toNat = (2 ^ 32 - t % 2 ^ 32 + d % 2 ^ 32) % 2 ^ 32 := by
  rw [UInt32.toNat_sub, stamp, stamp, UInt32.toNat_ofNat', UInt32.toNat_ofNat']

/-- A deadline that is not too far ahead shows. -/
theorem ahead_stamp_of_lt {d t : Nat} (h : t < d) (hnear : d < t + 2 ^ 31) :
    ahead (stamp d) (stamp t) = true := by
  rw [ahead, decide_eq_true_iff, toInt32_pos_iff, toNat_stamp_sub]
  omega

/-- A deadline that has passed shows as one that is ahead when the clock has come more than half of
its way round since. -/
theorem ahead_stamp_iff_of_le {d t : Nat} (h : d ≤ t) :
    ahead (stamp d) (stamp t) = true ↔ 2 ^ 31 < (t - d) % 2 ^ 32 := by
  rw [ahead, decide_eq_true_iff, toInt32_pos_iff, toNat_stamp_sub]
  omega

end WrappingClock
