import GuardedConfig.Decimal.Binary64
import GuardedConfig.Sql.Affinity
import Mathlib.Data.Nat.Log
import Mathlib.Tactic.Ring

/-!
# `Proofs.Rounding` — numbers that are representable are not rounded

A column of reals keeps a whole number as a real and reads a real that is whole as a whole number first. Going back
and forth loses nothing more than the first step did: the whole number that a real is, rounded, is this real again.
So what a column has converted once, it leaves alone.

## Contents

* `scaleOf_whole`, `scaleOf_eq`, `ofFraction_of_mantissa` — rounding a number of 53 bits
* `ofInt_of_toInt?` — a whole number made from a real gives the real back
* `Affinity.store_store` — converting twice is converting once
-/

namespace GuardedConfig.Decimal

namespace Binary64

/-! ## Powers of two -/

theorem twoTo_add (n m : Nat) : twoTo (n + m) = twoTo n * twoTo m := Nat.pow_add 2 n m

theorem twoTo_log2_le {n : Nat} (hn : n ≠ 0) : twoTo n.log2 ≤ n := Nat.log2_self_le hn

theorem lt_twoTo_log2 (n : Nat) : n < twoTo (n.log2 + 1) := Nat.lt_log2_self

theorem fractionCount_eq : fractionCount = 2 ^ 52 := by decide

theorem log2_mul_twoTo {m : Nat} (hm : m ≠ 0) (e : Nat) : (m * twoTo e).log2 = m.log2 + e := by
  induction e with
  | zero => simp [twoTo]
  | succ e ih =>
    have hne : m * twoTo e ≠ 0 := Nat.mul_ne_zero hm (twoTo_pos e).ne'
    rw [twoTo_succ, Nat.mul_left_comm, Nat.log2_eq_log_two, Nat.mul_comm, Nat.log_mul_base (by decide) hne,
      ← Nat.log2_eq_log_two, ih]
    rfl

/-- A mantissa has 53 bits. -/
theorem log2_mantissa {m : Nat} (hlow : fractionCount ≤ m) (hhigh : m < 2 * fractionCount) : m.log2 = 52 := by
  rw [Nat.log2_eq_log_two]
  rw [fractionCount_eq] at hlow hhigh
  exact (Nat.log_eq_iff (.inl (by decide))).2 ⟨hlow, by omega⟩

/-! ## Rounding what needs no rounding -/

/-- The power of two at which a whole number has 53 binary digits before the point. -/
theorem scaleOf_whole {n : Nat} (hn : n ≠ 0) : scaleOf n 1 = (n.log2 : Int) - 52 := by
  have hone : Nat.log2 1 = 0 := by decide
  have hlow := twoTo_log2_le hn
  -- the guess is one too low, since the first digit stands at the binary length
  have hwide : (if 0 ≤ (n.log2 : Int) - 53 then decide (1 * twoTo (53 + ((n.log2 : Int) - 53).toNat) ≤ n)
      else decide (1 * twoTo 53 ≤ n * twoTo (-((n.log2 : Int) - 53)).toNat)) = true := by
    split
    · have hexp : 53 + ((n.log2 : Int) - 53).toNat = n.log2 := by omega
      rwa [decide_eq_true_iff, Nat.one_mul, hexp]
    · have hexp : 53 = n.log2 + (-((n.log2 : Int) - 53)).toNat := by omega
      rw [decide_eq_true_iff, Nat.one_mul]
      calc twoTo 53 = twoTo n.log2 * twoTo (-((n.log2 : Int) - 53)).toNat := by rw [← twoTo_add, ← hexp]
        _ ≤ n * twoTo (-((n.log2 : Int) - 53)).toNat := Nat.mul_le_mul_right _ hlow
  unfold scaleOf
  dsimp only
  rw [hone, Nat.cast_zero, Int.sub_zero, hwide, if_pos rfl]
  omega

theorem divideToEven_mul (m : Nat) {den : Nat} (hden : 0 < den) : divideToEven (m * den) den = m := by
  unfold divideToEven
  simp [Nat.mul_div_cancel m hden, hden]

section

variable {m n : Nat} {e : Int} (hlow : fractionCount ≤ m) (hhigh : m < 2 * fractionCount)
  (hn : n * twoTo (-e).toNat = m * twoTo e.toNat)

include hlow hhigh hn

/-- A number of 53 bits keeps them. -/
theorem scaleOf_eq : scaleOf n 1 = e := by
  have hm : m ≠ 0 := by
    intro h
    rw [h] at hlow
    exact absurd hlow (by decide)
  have hpos : n ≠ 0 := by
    intro h
    rw [h, Nat.zero_mul] at hn
    exact Nat.mul_ne_zero hm (twoTo_pos _).ne' hn.symm
  have hlog := congrArg Nat.log2 hn
  rw [log2_mul_twoTo hpos, log2_mul_twoTo hm, log2_mantissa hlow hhigh] at hlog
  rw [scaleOf_whole hpos]
  omega

/-- A number of 53 bits is not rounded. -/
theorem ofFraction_of_mantissa (negative : Bool) :
    ofFraction negative n 1 =
      ofMagnitude negative (min ((e + 1074).toNat * fractionCount + m) infinityMagnitude) := by
  have hpos : n ≠ 0 := by
    intro h
    rw [h, Nat.zero_mul] at hn
    have hm : m ≠ 0 := by
      intro hzero
      rw [hzero] at hlow
      exact absurd hlow (by decide)
    exact Nat.mul_ne_zero hm (twoTo_pos _).ne' hn.symm
  have hscaled : scaled n 1 e = m := by
    unfold scaled
    split
    · rename_i hnonneg
      have hzero : (-e).toNat = 0 := by omega
      rw [hzero, show twoTo 0 = 1 from rfl, Nat.mul_one] at hn
      rw [hn, Nat.one_mul, divideToEven_mul m (twoTo_pos _)]
    · rename_i hneg
      have hzero : e.toNat = 0 := by omega
      rw [hzero, show twoTo 0 = 1 from rfl, Nat.mul_one] at hn
      rw [hn, ← Nat.mul_one m, divideToEven_mul m Nat.one_pos, Nat.mul_one]
  unfold ofFraction
  rw [if_neg (by simp [hpos])]
  dsimp only
  rw [scaleOf_eq hlow hhigh hn, hscaled]

end

/-! ## Parts of a number -/

variable {x : Binary64}

theorem toNat_ofMagnitude (negative : Bool) {m : Nat} (hm : m < signBit) :
    (ofMagnitude negative m).bits.toNat = if negative then signBit + m else m := by
  unfold signBit at hm
  unfold ofMagnitude signBit
  apply UInt64.toNat_ofNat_of_lt'
  cases negative <;> simp [UInt64.size] <;> omega

/-- What is made of a sign and a magnitude has them. -/
theorem sign_ofMagnitude (negative : Bool) {m : Nat} (hm : m < signBit) : (ofMagnitude negative m).sign = negative := by
  unfold sign
  rw [toNat_ofMagnitude negative hm]
  cases negative
  · simpa using hm
  · simp

theorem magnitude_ofMagnitude (negative : Bool) {m : Nat} (hm : m < signBit) :
    (ofMagnitude negative m).magnitude = m := by
  unfold magnitude
  rw [toNat_ofMagnitude negative hm]
  cases negative <;> simp [Nat.mod_eq_of_lt hm]

/-- A number is its sign and its magnitude. -/
theorem ofMagnitude_eq (x : Binary64) : ofMagnitude x.sign x.magnitude = x := by
  have hlt : x.bits.toNat < 2 ^ 64 := x.bits.toNat_lt
  have hbits : (if x.sign then signBit + x.magnitude else x.magnitude) = x.bits.toNat := by
    unfold sign magnitude signBit
    simp only [decide_eq_true_eq]
    split <;> omega
  unfold ofMagnitude
  rw [hbits, UInt64.ofNat_toNat]

/-- The mantissa of a number that is not subnormal has 53 bits. -/
theorem mantissa_bounds (hb : x.biased ≠ 0) : fractionCount ≤ x.mantissa ∧ x.mantissa < 2 * fractionCount := by
  have hlt := Nat.mod_lt x.magnitude (show 0 < fractionCount by decide)
  unfold mantissa
  rw [if_neg hb]
  omega

/-! ## Whole numbers -/

/-- The whole number that a number is, without its sign, is the mantissa times a power of two. -/
theorem natAbs_of_toInt? {k : Int} (h : x.toInt? = some k) :
    x.isFinite = true ∧ k.natAbs * twoTo (-x.exponent).toNat = x.mantissa * twoTo x.exponent.toNat ∧
      k = if x.sign then -(k.natAbs : Int) else k.natAbs := by
  unfold toInt? at h
  dsimp only at h
  split at h
  · rename_i hwhole
    obtain ⟨hfinite, hmod⟩ := hwhole
    have hk : k = if x.sign then -((x.fraction.1 / x.fraction.2 : Nat) : Int) else (x.fraction.1 / x.fraction.2 : Nat) := by
      cases h
      rfl
    have habs : k.natAbs = x.fraction.1 / x.fraction.2 := by
      rw [hk]
      cases x.sign
      · exact Int.natAbs_natCast _
      · exact (Int.natAbs_neg _).trans (Int.natAbs_natCast _)
    refine ⟨hfinite, ?_, habs ▸ hk⟩
    rw [habs]
    unfold fraction at hmod ⊢
    split
    · rename_i he
      have hzero : (-x.exponent).toNat = 0 := by omega
      rw [hzero, show twoTo 0 = 1 from rfl, Nat.mul_one, Nat.div_one]
    · rename_i he
      rw [if_neg he] at hmod
      have hzero : x.exponent.toNat = 0 := by omega
      rw [hzero, show twoTo 0 = 1 from rfl, Nat.mul_one]
      exact Nat.div_mul_cancel (Nat.dvd_of_mod_eq_zero hmod)
  · cases h

/-- **The whole number that a real is gives the real back**, unless it is the zero with a sign. -/
theorem ofInt_of_toInt? {k : Int} (h : x.toInt? = some k) (hsign : x.sign = decide (k < 0)) : ofInt k = x := by
  obtain ⟨hfinite, hmantissa, -⟩ := natAbs_of_toInt? h
  have hmagnitude : x.magnitude < infinityMagnitude := of_decide_eq_true hfinite
  unfold ofInt
  rw [← hsign]
  by_cases hb : x.biased = 0
  · -- a subnormal number is whole only if it is zero
    have hsmall : x.mantissa < fractionCount := by
      unfold mantissa
      rw [if_pos hb]
      unfold biased at hb
      exact (Nat.div_eq_zero_iff_lt (by decide)).1 hb
    have hexponent : x.exponent = -1074 := by
      unfold exponent
      rw [if_pos hb]
    rw [hexponent, show (-1074 : Int).toNat = 0 from rfl, show twoTo 0 = 1 from rfl, Nat.mul_one] at hmantissa
    have hlarge : fractionCount ≤ twoTo (-(-1074 : Int)).toNat := by decide +kernel
    have hk : k.natAbs = 0 := by
      by_contra hne
      have := Nat.le_mul_of_pos_left (twoTo (-(-1074 : Int)).toNat) (Nat.pos_of_ne_zero hne)
      omega
    have hzero : x.magnitude = 0 := by
      rw [hk, Nat.zero_mul] at hmantissa
      unfold mantissa at hmantissa
      rw [if_pos hb] at hmantissa
      exact hmantissa.symm
    rw [hk]
    unfold ofFraction
    rw [if_pos (.inl rfl), ← hzero, ofMagnitude_eq]
  · obtain ⟨hlow, hhigh⟩ := mantissa_bounds hb
    have hexponent : x.exponent = (x.biased : Int) - 1075 := by
      unfold exponent
      rw [if_neg hb]
    have hplace : (x.exponent + 1074).toNat * fractionCount + x.mantissa = x.magnitude := by
      have hdiv := Nat.div_add_mod x.magnitude fractionCount
      have hb' : x.biased = (x.biased - 1) + 1 := by omega
      rw [show (x.exponent + 1074).toNat = x.biased - 1 by omega]
      unfold mantissa
      rw [if_neg hb, ← Nat.add_assoc, ← Nat.succ_mul, Nat.succ_eq_add_one, ← hb', Nat.mul_comm]
      exact hdiv
    rw [ofFraction_of_mantissa hlow hhigh hmantissa, hplace, Nat.min_eq_left (by omega), ofMagnitude_eq]

/-- The real of a whole number has the sign of the number, and it is zero only for zero. -/
theorem sign_ofInt (n : Int) : (ofInt n).sign = decide (n < 0) ∧ ((ofInt n).magnitude = 0 → n = 0) := by
  have hsignBit : infinityMagnitude < signBit := by decide
  unfold ofInt ofFraction
  by_cases hn : n = 0
  · subst hn
    decide
  rw [if_neg (by simp [hn])]
  dsimp only
  have hscale : -53 ≤ scaleOf n.natAbs 1 := by
    unfold scaleOf
    dsimp only
    rw [show Nat.log2 1 = 0 by decide]
    split <;> omega
  have hpos : 0 < (scaleOf n.natAbs 1 + 1074).toNat * fractionCount :=
    Nat.mul_pos (by omega) (by decide)
  have hinf : 0 < infinityMagnitude := by decide
  have hlt : min ((scaleOf n.natAbs 1 + 1074).toNat * fractionCount + scaled n.natAbs 1 (scaleOf n.natAbs 1))
      infinityMagnitude < signBit := by omega
  rw [sign_ofMagnitude _ hlt, magnitude_ofMagnitude _ hlt]
  refine ⟨rfl, fun hzero => ?_⟩
  omega

/-- Where a whole number has been rounded to a whole number, nothing more is rounded. -/
theorem ofInt_toInt?_ofInt {n k : Int} (h : (ofInt n).toInt? = some k) : ofInt k = ofInt n := by
  obtain ⟨hsign, hzero⟩ := sign_ofInt n
  obtain ⟨-, hmantissa, hk⟩ := natAbs_of_toInt? h
  refine ofInt_of_toInt? h ?_
  by_cases habs : k.natAbs = 0
  · -- only zero is rounded to zero
    have hm : (ofInt n).mantissa = 0 := by
      rw [habs, Nat.zero_mul] at hmantissa
      exact (Nat.mul_eq_zero.1 hmantissa.symm).resolve_right (twoTo_pos _).ne'
    have hmagnitude : (ofInt n).magnitude = 0 := by
      unfold mantissa at hm
      split at hm
      · exact hm
      · exact absurd (Nat.eq_zero_of_add_eq_zero_right hm) (by decide)
    rw [hsign, hzero hmagnitude, Int.natAbs_eq_zero.1 habs]
  · rw [hk]
    cases (ofInt n).sign
    · simp
    · simpa using habs

end Binary64

end GuardedConfig.Decimal

namespace GuardedConfig.Sql

open Decimal

/-! ## Conversions -/

/-- What a text is as a number is a number. -/
theorem numberOf?_eq_some {s : String} {v : Value} (h : numberOf? s = some v) :
    (∃ n, v = .integer n) ∨ ∃ x, v = .real x := by
  have hwhole : ∀ x, (∃ n, wholeReal x = .integer n) ∨ ∃ y, wholeReal x = .real y := by
    intro x
    unfold wholeReal
    split
    · split
      · exact .inl ⟨_, rfl⟩
      · exact .inr ⟨_, rfl⟩
    · exact .inr ⟨_, rfl⟩
  unfold numberOf? at h
  split at h
  · split at h
    · rename_i n plain _ _ _
      unfold numeralValue at h
      by_cases hplain : (plain && isInt64 n.toInt) = true
      · rw [if_pos hplain] at h
        cases h
        exact .inl ⟨_, rfl⟩
      · rw [if_neg hplain] at h
        cases h
        exact hwhole _
    · cases h
  · cases h

namespace Affinity

theorem integerIfWhole_wholeReal (x : Binary64) : integerIfWhole (wholeReal x) = wholeReal x := by
  unfold wholeReal
  cases hx : x.toInt? with
  | none => simp [integerIfWhole, wholeReal, hx]
  | some n => by_cases hn : (minInt < n && n < maxInt) = true <;> simp [integerIfWhole, wholeReal, hx, hn]

theorem integerIfWhole_self (v : Value) : integerIfWhole (integerIfWhole v) = integerIfWhole v := by
  cases v with
  | real x => exact integerIfWhole_wholeReal x
  | _ => rfl

/-- What prefers numbers is no text that is one. -/
theorem numberIfText_integerIfWhole (v : Value) :
    numberIfText (integerIfWhole (numberIfText v)) = integerIfWhole (numberIfText v) := by
  have hnumber : ∀ x, numberIfText (wholeReal x) = wholeReal x := by
    intro x
    unfold wholeReal
    split
    · split <;> rfl
    · rfl
  cases v with
  | real x => exact hnumber x
  | text s =>
    cases hs : numberOf? s with
    | none =>
      have hstays : numberIfText (.text s) = .text s := by simp [numberIfText, hs]
      rw [hstays]
      exact hstays
    | some w =>
      have hbecomes : numberIfText (.text s) = w := by simp [numberIfText, hs]
      rw [hbecomes]
      obtain ⟨n, rfl⟩ | ⟨x, rfl⟩ := numberOf?_eq_some hs
      · rfl
      · exact hnumber x
  | _ => rfl

/-- A whole number that is kept as a real is given back as this real. -/
theorem realIfInteger_self (v : Value) :
    realIfInteger (integerIfWhole (realIfInteger (integerIfWhole v))) = realIfInteger (integerIfWhole v) := by
  have hreal : ∀ n, realIfInteger (wholeReal (.ofInt n)) = .real (.ofInt n) := by
    intro n
    unfold wholeReal
    cases hk : (Binary64.ofInt n).toInt? with
    | none => rfl
    | some k =>
      dsimp only
      split
      · simp [realIfInteger, Binary64.ofInt_toInt?_ofInt hk]
      · rfl
  have hkept : integerIfWhole (integerIfWhole v) = integerIfWhole v := integerIfWhole_self v
  cases hw : integerIfWhole v with
  | integer n => exact hreal n
  | real x =>
    rw [hw] at hkept
    simp [realIfInteger, hkept]
  | _ => rfl

/-- **What a column has converted, it leaves alone.** -/
theorem store_store (a : Affinity) (v : Value) : a.store (a.store v) = a.store v := by
  have hwhole : integerIfWhole (numberIfText (integerIfWhole (numberIfText v))) = integerIfWhole (numberIfText v) := by
    rw [numberIfText_integerIfWhole, integerIfWhole_self]
  cases a with
  | blob => rfl
  | text => cases v <;> rfl
  | integer => exact hwhole
  | numeric => exact hwhole
  | real =>
    have hnumber : numberIfText (realIfInteger (integerIfWhole (numberIfText v))) =
        realIfInteger (integerIfWhole (numberIfText v)) := by
      have h := numberIfText_integerIfWhole v
      cases hw : integerIfWhole (numberIfText v) with
      | text s =>
        rw [hw] at h
        exact h
      | _ => rfl
    show realIfInteger (integerIfWhole (numberIfText (realIfInteger (integerIfWhole (numberIfText v))))) = _
    rw [hnumber, realIfInteger_self]
    rfl

end Affinity

end GuardedConfig.Sql
