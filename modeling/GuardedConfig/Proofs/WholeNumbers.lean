import GuardedConfig.Proofs.Rounding

/-!
# `Proofs.WholeNumbers` — whole numbers as double-precision numbers

A whole number that becomes a double-precision number keeps its first 53 binary digits, and what stands behind them is
rounded. The result is a whole number again, so double-precision numbers compare two whole numbers as they compare after
rounding. Rounding never turns their order around. It makes two different numbers equal only if both are beyond the 53rd
power of two, and then they are no further apart than one unit of the last digit that is kept.

## Contents

* `lastPlace`, `nearestNat`, `nearest` — rounding to 53 binary digits, on whole numbers
* `nearestNat_mono`, `nearestNat_error`, `nearestNat_of_le`, `close_of_nearestNat_eq` — what it keeps and what it loses
* `wholeMagnitude_mono`, `toInt?_ofInt` — the double-precision number of a whole number
* `compare?_ofInt`, `equal_ofInt` — comparing them
-/

namespace GuardedConfig.Decimal.Binary64

/-! ## Dividing to the nearest whole number -/

section

variable {a b num den : Nat}

theorem divideToEven_bounds (num den : Nat) :
    num / den ≤ divideToEven num den ∧ divideToEven num den ≤ num / den + 1 := by
  unfold divideToEven
  dsimp only
  split_ifs <;> omega

theorem divideToEven_mono (h : a ≤ b) : divideToEven a den ≤ divideToEven b den := by
  rcases Nat.lt_or_eq_of_le (Nat.div_le_div_right (c := den) h) with hlt | heq
  · have ha := (divideToEven_bounds a den).2
    have hb := (divideToEven_bounds b den).1
    omega
  · -- the same quotient, so the remainders have the order of the numbers
    have hrest : a % den ≤ b % den := by
      have ha := Nat.div_add_mod a den
      have hb := Nat.div_add_mod b den
      rw [heq] at ha
      omega
    unfold divideToEven
    dsimp only
    rw [heq]
    split_ifs <;> omega

/-- The nearest multiple is no further away than half a unit. -/
theorem divideToEven_error (hden : 0 < den) :
    2 * (divideToEven num den * den) ≤ 2 * num + den ∧ 2 * num ≤ 2 * (divideToEven num den * den) + den := by
  have hdiv := Nat.div_add_mod num den
  have hlt := Nat.mod_lt num hden
  have hnext : (num / den + 1) * den = den * (num / den) + den := by ring
  unfold divideToEven
  dsimp only
  split_ifs
  all_goals
    first
    | rw [hnext]
    | rw [Nat.mul_comm (num / den) den]
    omega

end

/-! ## Rounding to 53 binary digits -/

/-- The weight of the last binary digit that is kept of a whole number. -/
def lastPlace (n : Nat) : Nat := twoTo (n.log2 - 52)

/-- The nearest whole number that needs no more than 53 binary digits, the even one of two equally near. -/
def nearestNat (n : Nat) : Nat := divideToEven n (lastPlace n) * lastPlace n

/-- The nearest whole number with a sign that needs no more than 53 binary digits. -/
def nearest (n : Int) : Int := if n < 0 then -(nearestNat n.natAbs : Int) else nearestNat n.natAbs

section

variable {n m : Nat}

theorem lastPlace_pos (n : Nat) : 0 < lastPlace n := twoTo_pos _

theorem lastPlace_of_log2_le (h : n.log2 ≤ 52) : lastPlace n = 1 := by
  rw [lastPlace, Nat.sub_eq_zero_of_le h]
  rfl

theorem nearestNat_of_log2_le (h : n.log2 ≤ 52) : nearestNat n = n := by
  rw [nearestNat, lastPlace_of_log2_le h, Nat.mul_one]
  exact (congrArg (divideToEven · 1) (Nat.mul_one n).symm).trans (divideToEven_mul n Nat.one_pos)

/-- Numbers up to the 53rd power of two are kept. -/
theorem nearestNat_of_le (h : n ≤ 2 ^ 53) : nearestNat n = n := by
  rcases Nat.lt_or_eq_of_le h with hlt | rfl
  · refine nearestNat_of_log2_le ?_
    by_cases hn : n = 0
    · rw [hn]
      decide
    · have hlog := (Nat.log2_lt hn).2 hlt
      omega
  · decide +kernel

theorem nearestNat_error (n : Nat) :
    2 * nearestNat n ≤ 2 * n + lastPlace n ∧ 2 * n ≤ 2 * nearestNat n + lastPlace n :=
  divideToEven_error (lastPlace_pos n)

theorem twoTo_mono (h : n ≤ m) : twoTo n ≤ twoTo m := Nat.pow_le_pow_right (by decide) h

theorem log2_mono (h : n ≤ m) : n.log2 ≤ m.log2 := by
  rw [Nat.log2_eq_log_two, Nat.log2_eq_log_two]
  exact Nat.log_mono_right h

theorem lastPlace_mono (h : n ≤ m) : lastPlace n ≤ lastPlace m :=
  twoTo_mono (Nat.sub_le_sub_right (log2_mono h) 52)

/-- Rounding does not leave the powers of two between which a number stands. -/
theorem nearestNat_bounds (hn : n ≠ 0) : twoTo n.log2 ≤ nearestNat n ∧ nearestNat n ≤ twoTo (n.log2 + 1) := by
  have hlow := twoTo_log2_le hn
  have hhigh := lt_twoTo_log2 n
  by_cases hlog : n.log2 ≤ 52
  · rw [nearestNat_of_log2_le hlog]
    exact ⟨hlow, hhigh.le⟩
  · have hlowest : twoTo n.log2 = twoTo 52 * lastPlace n := by
      rw [lastPlace, ← twoTo_add]
      congr 1
      omega
    have hhighest : twoTo (n.log2 + 1) = twoTo 53 * lastPlace n := by
      rw [lastPlace, ← twoTo_add]
      congr 1
      omega
    rw [hlowest] at hlow ⊢
    rw [hhighest] at hhigh ⊢
    constructor
    · refine Nat.mul_le_mul_right _ ?_
      calc twoTo 52 = divideToEven (twoTo 52 * lastPlace n) (lastPlace n) := (divideToEven_mul _ (lastPlace_pos n)).symm
        _ ≤ divideToEven n (lastPlace n) := divideToEven_mono hlow
    · refine Nat.mul_le_mul_right _ ?_
      calc divideToEven n (lastPlace n) ≤ divideToEven (twoTo 53 * lastPlace n) (lastPlace n) :=
            divideToEven_mono hhigh.le
        _ = twoTo 53 := divideToEven_mul _ (lastPlace_pos n)

/-- Rounding keeps the order. -/
theorem nearestNat_mono (h : n ≤ m) : nearestNat n ≤ nearestNat m := by
  by_cases hn : n = 0
  · rw [hn, nearestNat_of_le (Nat.zero_le _)]
    exact Nat.zero_le _
  have hm : m ≠ 0 := by omega
  rcases Nat.lt_or_eq_of_le (log2_mono h) with hlog | hlog
  · calc nearestNat n ≤ twoTo (n.log2 + 1) := (nearestNat_bounds hn).2
      _ ≤ twoTo m.log2 := twoTo_mono hlog
      _ ≤ nearestNat m := (nearestNat_bounds hm).1
  · have hplace : lastPlace n = lastPlace m := by rw [lastPlace, lastPlace, hlog]
    unfold nearestNat
    rw [hplace]
    exact Nat.mul_le_mul_right _ (divideToEven_mono h)

/-- Numbers that become equal are beyond the 53rd power of two, and no further apart than one unit of the last digit. -/
theorem close_of_nearestNat_eq (hlt : n < m) (h : nearestNat n = nearestNat m) :
    2 ^ 53 ≤ n ∧ m ≤ n + lastPlace m := by
  have hlarge : 2 ^ 53 ≤ n := by
    by_contra hsmall
    have hn : nearestNat n = n := nearestNat_of_le (by omega)
    rcases Nat.le_total m (2 ^ 53) with hm | hm
    · rw [hn, nearestNat_of_le hm] at h
      omega
    · have hmono := nearestNat_mono hm
      rw [nearestNat_of_le (Nat.le_refl _), ← h, hn] at hmono
      omega
  have hplace := lastPlace_mono hlt.le
  have herror := nearestNat_error n
  have herror' := nearestNat_error m
  omega

/-! ## The double-precision number of a whole number -/

/-- The 53 binary digits of a whole number, after rounding. -/
def significand (n : Nat) : Nat := scaled n 1 ((n.log2 : Int) - 52)

theorem significand_mul (n : Nat) : significand n * lastPlace n = nearestNat n * twoTo (52 - n.log2) := by
  unfold significand scaled
  split
  · have hzero : 52 - n.log2 = 0 := by omega
    have hplace : ((n.log2 : Int) - 52).toNat = n.log2 - 52 := by omega
    rw [hzero, hplace, Nat.one_mul, show twoTo 0 = 1 from rfl, Nat.mul_one]
    rfl
  · have hlog : n.log2 ≤ 52 := by omega
    have hplace : (-((n.log2 : Int) - 52)).toNat = 52 - n.log2 := by omega
    rw [lastPlace_of_log2_le hlog, nearestNat_of_log2_le hlog, hplace, Nat.mul_one]
    conv_lhs => rw [← Nat.mul_one (n * _)]
    exact divideToEven_mul _ Nat.one_pos

theorem twoTo_mul_gap (n k : Nat) : twoTo (n.log2 + k) * twoTo (52 - n.log2) = twoTo (52 + k) * lastPlace n := by
  rw [lastPlace, ← twoTo_add, ← twoTo_add]
  congr 1
  omega

/-- There are 53 digits, or one more if all of them have been rounded up. -/
theorem significand_bounds (hn : n ≠ 0) : fractionCount ≤ significand n ∧ significand n ≤ 2 * fractionCount := by
  obtain ⟨hlow, hhigh⟩ := nearestNat_bounds hn
  constructor
  · refine Nat.le_of_mul_le_mul_right ?_ (lastPlace_pos n)
    calc fractionCount * lastPlace n = twoTo n.log2 * twoTo (52 - n.log2) := (twoTo_mul_gap n 0).symm
      _ ≤ nearestNat n * twoTo (52 - n.log2) := Nat.mul_le_mul_right _ hlow
      _ = significand n * lastPlace n := (significand_mul n).symm
  · refine Nat.le_of_mul_le_mul_right ?_ (lastPlace_pos n)
    calc significand n * lastPlace n = nearestNat n * twoTo (52 - n.log2) := significand_mul n
      _ ≤ twoTo (n.log2 + 1) * twoTo (52 - n.log2) := Nat.mul_le_mul_right _ hhigh
      _ = 2 * fractionCount * lastPlace n := twoTo_mul_gap n 1

/-- Where all digits can be kept, they are not rounded up to one more. -/
theorem log2_of_significand_eq (h : significand n = 2 * fractionCount) : 52 ≤ n.log2 := by
  by_contra hsmall
  have hplace : lastPlace n = 1 := lastPlace_of_log2_le (by omega)
  have hall : 2 * fractionCount = n * twoTo (52 - n.log2) := by
    rw [← h, ← Nat.mul_one (significand n), ← hplace, significand_mul, nearestNat_of_log2_le (by omega)]
  have hstrict : n * twoTo (52 - n.log2) < twoTo (n.log2 + 1) * twoTo (52 - n.log2) :=
    Nat.mul_lt_mul_of_pos_right (lt_twoTo_log2 n) (twoTo_pos _)
  rw [twoTo_mul_gap, hplace, ← hall] at hstrict
  exact absurd hstrict (by decide)

theorem significand_mono (hlog : n.log2 = m.log2) (h : n ≤ m) : significand n ≤ significand m := by
  have hplace : lastPlace n = lastPlace m := by rw [lastPlace, lastPlace, hlog]
  refine Nat.le_of_mul_le_mul_right ?_ (lastPlace_pos m)
  rw [significand_mul m, ← hplace, significand_mul n, hlog]
  exact Nat.mul_le_mul_right _ (nearestNat_mono h)

/-- The bit pattern of a whole number without its sign. -/
def wholeMagnitude (n : Nat) : Nat :=
  if n = 0 then 0 else min ((n.log2 + 1022) * fractionCount + significand n) infinityMagnitude

theorem ofInt_eq (k : Int) : ofInt k = ofMagnitude (decide (k < 0)) (wholeMagnitude k.natAbs) := by
  unfold ofInt ofFraction wholeMagnitude
  by_cases hk : k.natAbs = 0
  · rw [if_pos (.inl hk), if_pos hk]
  · rw [if_neg (by simp [Int.natAbs_eq_zero.not.1 hk]), if_neg hk]
    have hplace : ((k.natAbs.log2 : Int) - 52 + 1074).toNat = k.natAbs.log2 + 1022 := by omega
    dsimp only
    rw [scaleOf_whole hk, hplace, significand]

/-- Below the largest power of two, nothing is cut off. -/
theorem wholeMagnitude_of_log2_lt (hn : n ≠ 0) (hlog : n.log2 < 1023) :
    wholeMagnitude n = (n.log2 + 1022) * fractionCount + significand n := by
  have hcount : fractionCount = 4503599627370496 := rfl
  have hhigh := (significand_bounds hn).2
  rw [wholeMagnitude, if_neg hn]
  refine Nat.min_eq_left ?_
  rw [infinityMagnitude, hcount]
  rw [hcount] at hhigh
  omega

theorem wholeMagnitude_le (n : Nat) : wholeMagnitude n ≤ infinityMagnitude := by
  unfold wholeMagnitude
  split
  · exact Nat.zero_le _
  · exact Nat.min_le_right _ _

/-- Larger whole numbers have larger bit patterns, or the same. -/
theorem wholeMagnitude_mono (h : n ≤ m) : wholeMagnitude n ≤ wholeMagnitude m := by
  unfold wholeMagnitude
  by_cases hn : n = 0
  · rw [if_pos hn]
    exact Nat.zero_le _
  have hm : m ≠ 0 := by omega
  rw [if_neg hn, if_neg hm]
  refine min_le_min_right _ ?_
  rcases Nat.lt_or_eq_of_le (log2_mono h) with hlog | hlog
  · -- rounding up reaches the next power of two at the most
    calc (n.log2 + 1022) * fractionCount + significand n
        ≤ (n.log2 + 1022) * fractionCount + 2 * fractionCount := Nat.add_le_add_left (significand_bounds hn).2 _
      _ = (n.log2 + 1 + 1022) * fractionCount + fractionCount := by ring
      _ ≤ (m.log2 + 1022) * fractionCount + fractionCount :=
          Nat.add_le_add_right (Nat.mul_le_mul_right _ (by omega)) _
      _ ≤ (m.log2 + 1022) * fractionCount + significand m := Nat.add_le_add_left (significand_bounds hm).1 _
  · rw [hlog]
    exact Nat.add_le_add_left (significand_mono hlog h) _

theorem wholeMagnitude_lt_signBit (n : Nat) : wholeMagnitude n < signBit :=
  (wholeMagnitude_le n).trans_lt (by decide)

theorem magnitude_ofInt (k : Int) : (ofInt k).magnitude = wholeMagnitude k.natAbs := by
  rw [ofInt_eq, magnitude_ofMagnitude _ (wholeMagnitude_lt_signBit _)]

/-- A whole number is never rounded to no number. -/
theorem isNaN_ofInt (k : Int) : (ofInt k).isNaN = false := by
  rw [isNaN, magnitude_ofInt]
  exact decide_eq_false (Nat.not_lt.2 (wholeMagnitude_le _))

theorem key_ofInt (k : Int) :
    (ofInt k).key = if k < 0 then -(wholeMagnitude k.natAbs : Int) else wholeMagnitude k.natAbs := by
  rw [key, (sign_ofInt k).1, magnitude_ofInt]
  simp only [decide_eq_true_eq]

/-! ## Reading it back -/

/-- What a bit pattern of 53 digits and an exponent stands for. -/
theorem parts_of_magnitude {x : Binary64} {k c : Nat} (hlow : fractionCount ≤ c) (hhigh : c < 2 * fractionCount)
    (hk : k < 1024) (hx : x.magnitude = (k + 1022) * fractionCount + c) :
    x.isFinite = true ∧ x.mantissa = c ∧ x.exponent = (k : Int) - 52 := by
  have hcount : fractionCount = 4503599627370496 := rfl
  rw [hcount] at hlow hhigh hx
  have hbiased : x.biased = k + 1023 := by
    rw [biased, hcount]
    omega
  refine ⟨decide_eq_true ?_, ?_, ?_⟩
  · rw [infinityMagnitude, hcount]
    omega
  · rw [mantissa, if_neg (by omega), hcount]
    omega
  · unfold exponent
    rw [if_neg (by omega)]
    omega

/-- A number with these parts is a whole number. -/
theorem toInt?_of_parts {x : Binary64} {k c w : Nat} (hlow : fractionCount ≤ c) (hhigh : c < 2 * fractionCount)
    (hk : k < 1024) (hx : x.magnitude = (k + 1022) * fractionCount + c)
    (hw : c * twoTo (k - 52) = w * twoTo (52 - k)) : x.toInt? = some (if x.sign then -(w : Int) else w) := by
  obtain ⟨hfinite, hmantissa, hexponent⟩ := parts_of_magnitude hlow hhigh hk hx
  have hfraction : x.fraction.1 % x.fraction.2 = 0 ∧ x.fraction.1 / x.fraction.2 = w := by
    unfold fraction
    rw [hmantissa, hexponent]
    split
    · have hzero : 52 - k = 0 := by omega
      have hplace : ((k : Int) - 52).toNat = k - 52 := by omega
      rw [hzero, show twoTo 0 = 1 from rfl, Nat.mul_one] at hw
      rw [hplace, hw]
      exact ⟨Nat.mod_one _, Nat.div_one _⟩
    · have hzero : k - 52 = 0 := by omega
      have hplace : (-((k : Int) - 52)).toNat = 52 - k := by omega
      rw [hzero, show twoTo 0 = 1 from rfl, Nat.mul_one] at hw
      rw [hplace, hw]
      exact ⟨Nat.mul_mod_left _ _, Nat.mul_div_cancel _ (twoTo_pos _)⟩
  unfold toInt? truncate
  dsimp only
  rw [if_pos ⟨hfinite, hfraction.1⟩, hfraction.2]

/-- **The double-precision number of a whole number is the rounded whole number.** -/
theorem toInt?_ofInt {k : Int} (hk : k.natAbs.log2 < 1023) : (ofInt k).toInt? = some (nearest k) := by
  by_cases hzero : k.natAbs = 0
  · rw [Int.natAbs_eq_zero.1 hzero]
    decide +kernel
  have hmagnitude : (ofInt k).magnitude = (k.natAbs.log2 + 1022) * fractionCount + significand k.natAbs :=
    (magnitude_ofInt k).trans (wholeMagnitude_of_log2_lt hzero hk)
  have hnearest : nearest k = if (ofInt k).sign then -(nearestNat k.natAbs : Int) else nearestNat k.natAbs := by
    rw [nearest, (sign_ofInt k).1]
    simp only [decide_eq_true_eq]
  obtain ⟨hlow, hhigh⟩ := significand_bounds hzero
  have hmul : significand k.natAbs * twoTo (k.natAbs.log2 - 52) = nearestNat k.natAbs * twoTo (52 - k.natAbs.log2) :=
    significand_mul k.natAbs
  rw [hnearest]
  rcases Nat.lt_or_eq_of_le hhigh with hhigh | hhigh
  · exact toInt?_of_parts hlow hhigh (by omega) hmagnitude hmul
  · -- all digits have been rounded up, and the number is the next power of two
    have hlog := log2_of_significand_eq hhigh
    refine toInt?_of_parts (k := k.natAbs.log2 + 1) (c := fractionCount) (Nat.le_refl _) (by decide) (by omega) ?_ ?_
    · rw [hmagnitude, hhigh]
      ring
    · have hgap : 52 - k.natAbs.log2 = 52 - (k.natAbs.log2 + 1) := by omega
      have hplace : k.natAbs.log2 + 1 - 52 = k.natAbs.log2 - 52 + 1 := by omega
      rw [hplace, twoTo_succ, ← hgap, ← hmul, hhigh]
      ring

end

/-- It is never rounded to infinity. -/
theorem isFinite_ofInt {k : Int} (hk : k.natAbs.log2 < 1023) : (ofInt k).isFinite = true :=
  (natAbs_of_toInt? (toInt?_ofInt hk)).1

/-! ## Comparing two of them -/

theorem nearest_natCast (n : Nat) : nearest n = nearestNat n := by
  rw [nearest, if_neg (by omega), Int.natAbs_natCast]

/-- Bit patterns and rounded numbers are the same for the same pairs of numbers. -/
theorem wholeMagnitude_eq_iff {n m : Nat} (hn : n.log2 < 1023) (hm : m.log2 < 1023) :
    wholeMagnitude n = wholeMagnitude m ↔ nearestNat n = nearestNat m := by
  have hmagnitude : ∀ k : Nat, (ofInt k).magnitude = wholeMagnitude k := fun k => magnitude_ofInt k
  have hvalue : ∀ {k : Nat}, k.log2 < 1023 → (ofInt k).toInt? = some (nearestNat k : Int) := by
    intro k hk
    rw [toInt?_ofInt (by rwa [Int.natAbs_natCast]), nearest_natCast]
  constructor
  · intro h
    have hpattern : ofInt n = ofInt m := by
      rw [ofInt_eq, ofInt_eq, decide_eq_false (by omega), decide_eq_false (by omega), Int.natAbs_natCast,
        Int.natAbs_natCast, h]
    have hsame : some (nearestNat n : Int) = some (nearestNat m : Int) := by
      rw [← hvalue hn, ← hvalue hm, hpattern]
    exact Int.natCast_inj.1 (Option.some.inj hsame)
  · intro h
    have hsame : ofInt n = ofInt m := by
      rw [← ofInt_toInt?_ofInt (hvalue hn), ← ofInt_toInt?_ofInt (hvalue hm), h]
    rw [← hmagnitude n, ← hmagnitude m, hsame]

/-- Both are in the order of the numbers, so they are in one order. -/
theorem wholeMagnitude_lt_iff {n m : Nat} (hn : n.log2 < 1023) (hm : m.log2 < 1023) :
    wholeMagnitude n < wholeMagnitude m ↔ nearestNat n < nearestNat m := by
  have heq := wholeMagnitude_eq_iff hn hm
  rcases Nat.le_total n m with h | h
  · have hmagnitude := wholeMagnitude_mono h
    have hnearest := nearestNat_mono h
    omega
  · have hmagnitude := wholeMagnitude_mono h
    have hnearest := nearestNat_mono h
    omega

variable {a b : Int}

theorem key_ofInt_lt_iff (ha : a.natAbs.log2 < 1023) (hb : b.natAbs.log2 < 1023) :
    (ofInt a).key < (ofInt b).key ↔ nearest a < nearest b := by
  have hzero : Nat.log2 0 < 1023 := by decide
  have hmagnitude : wholeMagnitude 0 = 0 := rfl
  have hnearest : nearestNat 0 = 0 := nearestNat_of_le (Nat.zero_le _)
  have hlt := wholeMagnitude_lt_iff ha hb
  have hgt := wholeMagnitude_lt_iff hb ha
  have hpos := wholeMagnitude_lt_iff hzero ha
  have hpos' := wholeMagnitude_lt_iff hzero hb
  rw [hmagnitude, hnearest] at hpos hpos'
  rw [key_ofInt, key_ofInt, nearest, nearest]
  split <;> split <;> omega

theorem key_ofInt_eq_iff (ha : a.natAbs.log2 < 1023) (hb : b.natAbs.log2 < 1023) :
    (ofInt a).key = (ofInt b).key ↔ nearest a = nearest b := by
  have hlt := key_ofInt_lt_iff ha hb
  have hgt := key_ofInt_lt_iff hb ha
  omega

/-- **Two whole numbers are compared after rounding.** -/
theorem compare?_ofInt (ha : a.natAbs.log2 < 1023) (hb : b.natAbs.log2 < 1023) :
    (ofInt a).compare? (ofInt b) = some (compare (nearest a) (nearest b)) := by
  rw [compare?, isNaN_ofInt, isNaN_ofInt, Bool.or_self, if_neg Bool.false_ne_true]
  simp only [compare, compareOfLessAndEq, key_ofInt_lt_iff ha hb, key_ofInt_eq_iff ha hb]

theorem equal_ofInt (ha : a.natAbs.log2 < 1023) (hb : b.natAbs.log2 < 1023) :
    (ofInt a).equal (ofInt b) = decide (nearest a = nearest b) := by
  rw [equal, isNaN_ofInt, isNaN_ofInt, ← decide_eq_decide.2 (key_ofInt_eq_iff ha hb)]
  rfl

/-- Rounding keeps the order. -/
theorem nearest_mono (h : a ≤ b) : nearest a ≤ nearest b := by
  unfold nearest
  split <;> split
  · have hnat := @nearestNat_mono b.natAbs a.natAbs (by omega)
    omega
  · omega
  · omega
  · exact Int.ofNat_le.2 (nearestNat_mono (by omega))

/-- Rounding moves a number by half a unit of the last digit at the most. -/
theorem nearest_error (a : Int) : 2 * (nearest a - a).natAbs ≤ lastPlace a.natAbs := by
  have herror := nearestNat_error a.natAbs
  unfold nearest
  split <;> omega

theorem nearestNat_eq_zero {n : Nat} (h : nearestNat n = 0) : n = 0 := by
  by_contra hn
  exact absurd ((nearestNat_bounds hn).1.trans_eq h) (Nat.not_le.2 (twoTo_pos _))

/-- Different numbers that become equal are beyond the 53rd power of two, and no further apart than one unit of the last
digit that is kept. -/
theorem close_of_nearest_eq (hne : a ≠ b) (h : nearest a = nearest b) :
    2 ^ 53 ≤ a.natAbs ∧ 2 ^ 53 ≤ b.natAbs ∧ (a - b).natAbs ≤ max (lastPlace a.natAbs) (lastPlace b.natAbs) := by
  -- rounding keeps the signs
  have hsign : nearestNat a.natAbs = nearestNat b.natAbs ∧ (a < 0 ↔ b < 0) := by
    have hzero := @nearestNat_eq_zero a.natAbs
    have hzero' := @nearestNat_eq_zero b.natAbs
    unfold nearest at h
    split at h <;> split at h <;> omega
  obtain ⟨hnat, hsign⟩ := hsign
  rcases Nat.lt_trichotomy a.natAbs b.natAbs with hlt | heq | hgt
  · have hclose := close_of_nearestNat_eq hlt hnat
    omega
  · omega
  · have hclose := close_of_nearestNat_eq hgt hnat.symm
    omega

/-! ## Numbers of 64 bits -/

/-- A whole number of 64 bits, with or without a sign. -/
def Fits64 (n : Int) : Prop := minInt ≤ n ∧ n < wordLimit

instance (n : Int) : Decidable (Fits64 n) := inferInstanceAs (Decidable (minInt ≤ n ∧ n < wordLimit))

theorem Fits64.log2_lt (h : Fits64 a) : a.natAbs.log2 < 64 := by
  obtain ⟨hlow, hhigh⟩ := h
  by_cases hzero : a.natAbs = 0
  · rw [hzero]
    decide
  · refine (Nat.log2_lt hzero).2 ?_
    unfold minInt at hlow
    unfold wordLimit at hhigh
    omega

theorem Fits64.log2_lt_exponent (h : Fits64 a) : a.natAbs.log2 < 1023 := h.log2_lt.trans (by decide)

/-- Of 64 digits, the last eleven are not kept. -/
theorem Fits64.lastPlace_le (h : Fits64 a) : lastPlace a.natAbs ≤ 2 ^ 11 := by
  have hlog := h.log2_lt
  exact twoTo_mono (show a.natAbs.log2 - 52 ≤ 11 by omega)

end GuardedConfig.Decimal.Binary64
