import GuardedConfig.Decimal.Shortest
import GuardedConfig.Proofs.Trigger.Printing

/-!
# `Proofs.Digits` — a number has digits

The search for the shortest decimal of a number tries one grid after another and stops at the last one at the latest.
It would give no digits if the number lay below the first unit of that grid. But the guess for the power of its first
digit is made from binary lengths, and too large by less than the last grid is finer.

## Contents

* `floorAt_ne_zero_iff`, `floorAt_leadingPower` — numbers on a grid
* `shortestFrom_ne_zero`, `Digits.normal_ne_nil`, `digits_shortest_ne_nil`
-/

namespace GuardedConfig.Decimal

/-! ## Grids -/

section Grids

variable {num den : Nat} {p q : Int}

/-- A number is at least the unit of a grid. -/
theorem floorAt_ne_zero_iff (hden : 0 < den) : floorAt num den p ≠ 0 ↔ den * 10 ^ p.toNat ≤ num * 10 ^ (-p).toNat := by
  rw [← Nat.pos_iff_ne_zero, floorAt]
  split
  · have hneg : (-p).toNat = 0 := by omega
    rw [Nat.div_pos_iff, hneg]
    simp [tenTo, hden]
  · have hpos : p.toNat = 0 := by omega
    rw [Nat.div_pos_iff, hpos]
    simp [tenTo, hden]

/-- Finer grids. -/
theorem floorAt_ne_zero_mono (hden : 0 < den) (h : floorAt num den p ≠ 0) (hq : q ≤ p) : floorAt num den q ≠ 0 := by
  rw [floorAt_ne_zero_iff hden] at h ⊢
  calc den * 10 ^ q.toNat ≤ den * 10 ^ p.toNat :=
        Nat.mul_le_mul_left _ (Nat.pow_le_pow_right (by decide) (by omega))
    _ ≤ num * 10 ^ (-p).toNat := h
    _ ≤ num * 10 ^ (-q).toNat := Nat.mul_le_mul_left _ (Nat.pow_le_pow_right (by decide) (by omega))

/-- Three tenths are less than the logarithm of two. -/
theorem ten_pow_le_two_pow {r k : Nat} (h : 10 * r ≤ 3 * k) : 10 ^ r ≤ 2 ^ k := by
  refine (Nat.pow_le_pow_iff_left (n := 10) (by decide)).1 ?_
  calc (10 ^ r) ^ 10 = 10 ^ (10 * r) := by rw [← Nat.pow_mul, Nat.mul_comm]
    _ ≤ 10 ^ (3 * k) := Nat.pow_le_pow_right (by decide) h
    _ = (10 ^ 3) ^ k := Nat.pow_mul ..
    _ ≤ (2 ^ 10) ^ k := Nat.pow_le_pow_left (by decide) k
    _ = (2 ^ k) ^ 10 := by rw [← Nat.pow_mul, ← Nat.pow_mul, Nat.mul_comm]

/-- Four thirteenths are more. -/
theorem two_pow_le_ten_pow {j s : Nat} (h : 4 * j ≤ 13 * s) : 2 ^ j ≤ 10 ^ s := by
  refine (Nat.pow_le_pow_iff_left (n := 13) (by decide)).1 ?_
  calc (2 ^ j) ^ 13 = (2 ^ 13) ^ j := by rw [← Nat.pow_mul, ← Nat.pow_mul, Nat.mul_comm]
    _ ≤ (10 ^ 4) ^ j := Nat.pow_le_pow_left (by decide) j
    _ = 10 ^ (4 * j) := (Nat.pow_mul ..).symm
    _ ≤ 10 ^ (13 * s) := Nat.pow_le_pow_right (by decide) h
    _ = (10 ^ s) ^ 13 := by rw [← Nat.pow_mul, Nat.mul_comm]

/-- The guess for the first power is not so large that the finest grid is too coarse. -/
theorem floorAt_guess (hnum : 0 < num) (hden : 0 < den) (hnumLog : num.log2 ≤ 2000) (hdenLog : den.log2 ≤ 2000) :
    floorAt num den (((((num.log2 : Int) - den.log2 - 1) * 30103).fdiv 100000 - 1) - 18) ≠ 0 := by
  have hguess : (((num.log2 : Int) - den.log2 - 1) * 30103).fdiv 100000 * 100000 ≤
      ((num.log2 : Int) - den.log2 - 1) * 30103 := by
    rw [Int.fdiv_eq_ediv_of_nonneg _ (by decide)]
    omega
  generalize (((num.log2 : Int) - den.log2 - 1) * 30103).fdiv 100000 = g at hguess
  have hlow : 2 ^ num.log2 ≤ num := Nat.log2_self_le hnum.ne'
  have hhigh : den < 2 ^ (den.log2 + 1) := Nat.lt_log2_self
  generalize num.log2 = l at *
  generalize den.log2 = m at *
  rw [floorAt_ne_zero_iff hden]
  obtain ⟨r, hr⟩ | ⟨s, hs⟩ : (∃ r : Nat, g - 1 - 18 = r) ∨ ∃ s : Nat, g - 1 - 18 = -s := by
    by_cases h : 0 ≤ g - 1 - 18
    · exact .inl ⟨(g - 1 - 18).toNat, by omega⟩
    · exact .inr ⟨(-(g - 1 - 18)).toNat, by omega⟩
  · have hpow : 10 ^ r ≤ 2 ^ (l - (m + 1)) := ten_pow_le_two_pow (by omega)
    rw [hr]
    calc den * 10 ^ ((r : Int)).toNat ≤ 2 ^ (m + 1) * 2 ^ (l - (m + 1)) := Nat.mul_le_mul hhigh.le (by simpa using hpow)
      _ = 2 ^ l := by rw [← Nat.pow_add, Nat.add_sub_cancel' (by omega)]
      _ ≤ num * 10 ^ (-(r : Int)).toNat := hlow.trans (Nat.le_mul_of_pos_right num (Nat.pow_pos (by decide)))
  · have hpow : 2 ^ (m + 1 - l) ≤ 10 ^ s := two_pow_le_ten_pow (by omega)
    rw [hs]
    calc den * 10 ^ (-(s : Int)).toNat ≤ 2 ^ (m + 1) := by simpa using hhigh.le
      _ ≤ 2 ^ (l + (m + 1 - l)) := Nat.pow_le_pow_right (by decide) (by omega)
      _ = 2 ^ l * 2 ^ (m + 1 - l) := Nat.pow_add ..
      _ ≤ num * 10 ^ (- -(s : Int)).toNat := Nat.mul_le_mul hlow (by simpa using hpow)

/-- The power of the first digit is not too large either. -/
theorem floorAt_leadingPower (hnum : 0 < num) (hden : 0 < den) (hnumLog : num.log2 ≤ 2000) (hdenLog : den.log2 ≤ 2000) :
    floorAt num den (leadingPower num den - 18) ≠ 0 := by
  -- each step to a larger power has seen two digits before
  suffices hgen : ∀ (steps : List Nat) (p : Int), floorAt num den (p - 18) ≠ 0 →
      floorAt num den (steps.foldl (fun p _ => if 10 ≤ floorAt num den p then p + 1 else p) p - 18) ≠ 0 by
    unfold leadingPower
    exact hgen (List.range 4) _ (floorAt_guess hnum hden hnumLog hdenLog)
  intro steps
  induction steps with
  | nil => exact fun p hp => hp
  | cons step steps ih =>
    intro p hp
    rw [List.foldl_cons]
    refine ih _ ?_
    split
    · rename_i hlarge
      have hfloor : floorAt num den p ≠ 0 := by omega
      exact floorAt_ne_zero_mono hden hfloor (by omega)
    · exact hp

end Grids

/-! ## The digits -/

theorem shortestFrom_ne_zero {i : Interval} {first : Int} (tie : Tie) {k more : Nat}
    (h : floorAt i.value i.den (first - 18) ≠ 0) (hk : k + more = 19) : (shortestFrom i first tie k more).1 ≠ 0 := by
  induction more generalizing k with
  | zero =>
    obtain rfl : k = 19 := by omega
    exact h
  | succ more ih =>
    rw [shortestFrom]
    split
    · split <;> simp_all
    · simp_all
    · exact Nat.succ_ne_zero _
    · exact ih (by omega)

/-- Zeros alone are the digits of zero. -/
theorem natOf_eq_zero {cs : List Char} (h : ∀ c ∈ cs, c.toNat - 48 = 0) : natOf cs = 0 := by
  unfold natOf
  induction cs with
  | nil => rfl
  | cons c cs ih =>
    obtain ⟨hc, hcs⟩ := List.forall_mem_cons.1 h
    rw [List.foldl_cons, hc]
    exact ih hcs

/-- The digits of a number other than zero are not all zeros. -/
theorem Digits.normal_ne_nil {a : Nat} (ha : a ≠ 0) (p : Int) : (Digits.normal a p).digits ≠ [] := by
  intro hnil
  have hzeros : ∀ d ∈ (digitsOf a).reverse, decide (d = 0) = true :=
    List.dropWhile_eq_nil_iff.1 (List.reverse_eq_nil_iff.1 hnil)
  refine ha ?_
  rw [← Trigger.natOf_toDigits a]
  refine natOf_eq_zero fun c hc => of_decide_eq_true (hzeros _ ?_)
  exact List.mem_reverse.2 (List.mem_map_of_mem hc)

namespace Binary64

variable {x : Binary64}

theorem mantissa_pos (h : x.isZero = false) : 0 < x.mantissa := by
  have hmagnitude : x.magnitude ≠ 0 := by simpa [isZero] using h
  unfold mantissa
  split
  · omega
  · exact Nat.add_pos_left (by decide) _

theorem mantissa_lt : x.mantissa < 2 ^ 53 := by
  have hcount : fractionCount = 2 ^ 52 := by decide
  unfold mantissa
  split
  · rename_i hbiased
    have hlt : x.magnitude < fractionCount := (Nat.div_eq_zero_iff_lt (by decide)).1 hbiased
    omega
  · have hlt := Nat.mod_lt x.magnitude (show 0 < fractionCount by decide)
    omega

theorem exponent_bounds (h : x.isFinite = true) : -1074 ≤ x.exponent ∧ x.exponent ≤ 971 := by
  have hlt : x.biased < 2047 := by
    unfold biased
    have hfinite : x.magnitude < 0x7ff * fractionCount := of_decide_eq_true h
    exact (Nat.div_lt_iff_lt_mul (by decide)).2 hfinite
  unfold exponent
  split <;> omega

end Binary64

theorem twoTo_le {n k : Nat} (h : n ≤ k) : twoTo n ≤ 2 ^ k := Nat.pow_le_pow_right (by decide) h

theorem twoTo_lt {n k : Nat} (h : n ≤ k) : twoTo n < 2 ^ 1 * 2 ^ k := by
  have hle := twoTo_le h
  have hpos : 0 < 2 ^ k := Nat.pow_pos (by decide)
  omega

/-- The interval of a number is made of numbers of bounded length. -/
theorem Interval.of_bounds {x : Binary64} (hzero : x.isZero = false) (hfinite : x.isFinite = true) :
    0 < (Interval.of x).value ∧ 0 < (Interval.of x).den ∧ (Interval.of x).value.log2 ≤ 2000 ∧
      (Interval.of x).den.log2 ≤ 2000 := by
  have hpos := Binary64.mantissa_pos hzero
  have hlt := Binary64.mantissa_lt (x := x)
  obtain ⟨hlow, hhigh⟩ := Binary64.exponent_bounds hfinite
  have hlog : ∀ {n a b : Nat}, 0 < n → n < 2 ^ a * 2 ^ b → a + b ≤ 2001 → n.log2 ≤ 2000 := by
    intro n a b hn hlt hab
    rw [← Nat.pow_add] at hlt
    have hlog := (Nat.log2_lt hn.ne').2 hlt
    omega
  unfold Interval.of
  dsimp only
  split
  · have hvalue : 0 < 4 * x.mantissa * twoTo (x.exponent - 2).toNat := Nat.mul_pos (by omega) (twoTo_pos _)
    have hup : twoTo (x.exponent - 2).toNat ≤ 2 ^ 969 := twoTo_le (by omega)
    refine ⟨hvalue, Nat.one_pos, hlog hvalue ?_ (show 55 + 969 ≤ 2001 by decide), by decide⟩
    exact (Nat.mul_lt_mul_of_pos_right (by omega) (twoTo_pos _)).trans_le (Nat.mul_le_mul_left _ hup)
  · have hden : twoTo (-(x.exponent - 2)).toNat < 2 ^ 1 * 2 ^ 1076 := twoTo_lt (by omega)
    exact ⟨by omega, twoTo_pos _, hlog (by omega) (show _ < 2 ^ 55 * 2 ^ 0 by omega) (by decide),
      hlog (twoTo_pos _) hden (by decide)⟩

/-- The shortest decimal of a finite number other than zero has digits. -/
theorem digits_shortest_ne_nil {tie : Tie} {x : Binary64} (hzero : x.isZero = false) (hfinite : x.isFinite = true) :
    (shortest tie x).digits ≠ [] := by
  obtain ⟨hvalue, hden, hvalueLog, hdenLog⟩ := Interval.of_bounds hzero hfinite
  have hfloor := floorAt_leadingPower hvalue hden hvalueLog hdenLog
  have hdigits := shortestFrom_ne_zero tie hfloor (show 1 + 18 = 19 from rfl)
  unfold shortest
  exact Digits.normal_ne_nil hdigits _

end GuardedConfig.Decimal
