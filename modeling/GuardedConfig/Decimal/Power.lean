/-!
# `Decimal.Power` — powers of two and ten

The two scales on which numbers are kept and written.

## Contents

* `twoTo`, `tenTo`
-/

namespace GuardedConfig.Decimal

/-- A power of two. -/
def twoTo (n : Nat) : Nat := Nat.pow 2 n

/-- A power of ten. -/
def tenTo (n : Nat) : Nat := Nat.pow 10 n

theorem twoTo_pos (n : Nat) : 0 < twoTo n := Nat.pow_pos (by decide)

theorem tenTo_pos (n : Nat) : 0 < tenTo n := Nat.pow_pos (by decide)

theorem twoTo_succ (n : Nat) : twoTo (n + 1) = 2 * twoTo n := by
  simp only [twoTo, Nat.pow_eq, Nat.pow_succ, Nat.mul_comm]

theorem tenTo_succ (n : Nat) : tenTo (n + 1) = 10 * tenTo n := by
  simp only [tenTo, Nat.pow_eq, Nat.pow_succ, Nat.mul_comm]

end GuardedConfig.Decimal
