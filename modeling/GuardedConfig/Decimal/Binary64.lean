import GuardedConfig.Decimal.Power

/-!
# `Decimal.Binary64` — double-precision numbers as exact fractions

A number of the binary format with 64 bits is kept as its bit pattern: one sign bit, eleven exponent bits and
52 fraction bits. Everything is computed exactly on integers and rounded once, to the nearest number and to the
even one of two equally near, so no operation depends on the machine.

## Contents

* `Binary64`, its `sign`, `magnitude`, `isNaN`, `isFinite`
* `Binary64.mantissa`, `Binary64.exponent` — a finite number is `mantissa · 2 ^ exponent` up to its sign
* `Binary64.ofFraction`, `Binary64.ofInt`, `Binary64.ofDecimal` — rounding to nearest
* `Binary64.key`, `Binary64.equal`, `Binary64.compare?` — the order of the numbers
* `Binary64.toInt?`, `Binary64.truncate` — whole numbers
* `Binary64.add`, `Binary64.sub`, `Binary64.mul`, `Binary64.div` — arithmetic
-/

namespace GuardedConfig.Decimal

/-- A double-precision number, as its bit pattern. -/
structure Binary64 where
  bits : UInt64
deriving DecidableEq, Repr

namespace Binary64

/-! ## The parts of a bit pattern -/

/-- The weight of the sign bit, the 63rd power of two. -/
def signBit : Nat := 0x8000000000000000

/-- How many fractions there are for one exponent, the 52nd power of two. -/
def fractionCount : Nat := 0x10000000000000

/-- All bits but the sign, read as a number; the magnitudes of non-negative numbers increase with them. -/
def magnitude (x : Binary64) : Nat := x.bits.toNat % signBit

/-- Whether the sign bit is set. -/
def sign (x : Binary64) : Bool := signBit ≤ x.bits.toNat

/-- The magnitude of infinity: all exponent bits set, no fraction bits. -/
def infinityMagnitude : Nat := 0x7ff * fractionCount

/-- Not a number: all exponent bits set, and some fraction bit. -/
def isNaN (x : Binary64) : Bool := infinityMagnitude < x.magnitude

/-- Neither infinite nor not a number. -/
def isFinite (x : Binary64) : Bool := x.magnitude < infinityMagnitude

/-- Both zeros. -/
def isZero (x : Binary64) : Bool := x.magnitude == 0

/-- The number with a sign and a magnitude. -/
def ofMagnitude (negative : Bool) (m : Nat) : Binary64 :=
  ⟨UInt64.ofNat (if negative then signBit + m else m)⟩

/-- Positive zero. -/
def zero : Binary64 := ofMagnitude false 0

/-- Infinity with a sign. -/
def infinity (negative : Bool) : Binary64 := ofMagnitude negative infinityMagnitude

/-- The number with the other sign. -/
def neg (x : Binary64) : Binary64 := ofMagnitude (!x.sign) x.magnitude

/-- The biased exponent; zero for zero and the subnormal numbers. -/
def biased (x : Binary64) : Nat := x.magnitude / fractionCount

/-- The whole number that a finite number is a power of two times. -/
def mantissa (x : Binary64) : Nat :=
  if x.biased = 0 then x.magnitude else fractionCount + x.magnitude % fractionCount

/-- The power of two that the mantissa is multiplied by. -/
def exponent (x : Binary64) : Int :=
  if x.biased = 0 then -1074 else (x.biased : Int) - 1075

/-- A finite number without its sign as a fraction. -/
def fraction (x : Binary64) : Nat × Nat :=
  if 0 ≤ x.exponent then (x.mantissa * twoTo x.exponent.toNat, 1)
  else (x.mantissa, twoTo (-x.exponent).toNat)

/-! ## Rounding to nearest -/

/-- The quotient rounded to nearest, to the even neighbour in the middle. -/
def divideToEven (num den : Nat) : Nat :=
  let q := num / den
  let r := num % den
  if 2 * r < den then q
  else if den < 2 * r then q + 1
  else if q % 2 = 0 then q else q + 1

/-- `num / den / 2 ^ e`, rounded to nearest. -/
def scaled (num den : Nat) (e : Int) : Nat :=
  if 0 ≤ e then divideToEven num (den * twoTo e.toNat) else divideToEven (num * twoTo (-e).toNat) den

/-- The exponent at which the mantissa of `num / den` has 53 bits, but not below that of the subnormals. -/
def scaleOf (num den : Nat) : Int :=
  let guess : Int := (num.log2 : Int) - (den.log2 : Int) - 53
  -- `num / den` has 53 or 54 bits before the point at this exponent
  let wide := if 0 ≤ guess then decide (den * twoTo (53 + guess.toNat) ≤ num)
    else decide (den * twoTo 53 ≤ num * twoTo (-guess).toNat)
  max (if wide then guess + 1 else guess) (-1074)

/-- The number nearest to `num / den`; beyond the largest finite number it is infinite. -/
def ofFraction (negative : Bool) (num den : Nat) : Binary64 :=
  if num = 0 ∨ den = 0 then ofMagnitude negative 0
  else
    let e := scaleOf num den
    let m := (e + 1074).toNat * fractionCount + scaled num den e
    ofMagnitude negative (min m infinityMagnitude)

/-- The number nearest to a whole number. -/
def ofInt (n : Int) : Binary64 := ofFraction (decide (n < 0)) n.natAbs 1

/-- The number nearest to `digits · 10 ^ power`. Powers far outside the range are decided by the number of
digits alone, so that no huge power is computed. -/
def ofDecimal (negative : Bool) (digits : Nat) (power : Int) : Binary64 :=
  if digits = 0 then ofMagnitude negative 0
  else
    let size : Int := (digits.log2 : Int) / 3 + 1
    if 400 < power then infinity negative
    else if power + size < -400 then ofMagnitude negative 0
    else if 0 ≤ power then ofFraction negative (digits * tenTo power.toNat) 1
    else ofFraction negative digits (tenTo (-power).toNat)

/-! ## Order -/

/-- An integer that orders the numbers: both zeros have key zero. -/
def key (x : Binary64) : Int := if x.sign then -(x.magnitude : Int) else x.magnitude

/-- Equality as numbers: the zeros are equal, and not-a-number equals nothing. -/
def equal (x y : Binary64) : Bool := !x.isNaN && !y.isNaN && x.key == y.key

/-- The order of two numbers; none if either is not a number. -/
def compare? (x y : Binary64) : Option Ordering :=
  if x.isNaN || y.isNaN then none else some (compare x.key y.key)

theorem equal_comm (x y : Binary64) : x.equal y = y.equal x := by
  simp only [equal, Bool.and_comm (!x.isNaN), Bool.beq_comm (a := x.key)]

theorem equal_self {x : Binary64} (h : x.isNaN = false) : x.equal x = true := by
  simp [equal, h]

/-! ## Whole numbers -/

/-- The part before the point, toward zero. -/
def truncate (x : Binary64) : Int :=
  let (num, den) := x.fraction
  let n : Int := (num / den : Nat)
  if x.sign then -n else n

/-- The whole number that a finite number is. -/
def toInt? (x : Binary64) : Option Int :=
  let (num, den) := x.fraction
  if x.isFinite ∧ num % den = 0 then some x.truncate else none

/-- Compares a whole number with a number that is not NaN, exactly. -/
def compareInt (n : Int) (x : Binary64) : Ordering :=
  if x.isFinite then
    let (num, den) := x.fraction
    let signed : Int := if x.sign then -(num : Int) else num
    compare (n * den) signed
  else if x.sign then .gt else .lt

/-! ## Arithmetic -/

/-- A finite number as a signed numerator over `twoTo 1074`. -/
def unit (x : Binary64) : Int :=
  let n : Int := (x.mantissa * twoTo (x.exponent + 1074).toNat : Nat)
  if x.sign then -n else n

/-- The quiet not-a-number. -/
def nan : Binary64 := ofMagnitude false (infinityMagnitude + fractionCount / 2)

/-- The sum, rounded to nearest. -/
def add (x y : Binary64) : Binary64 :=
  if x.isNaN || y.isNaN then nan
  else if x.isFinite && y.isFinite then
    let s := x.unit + y.unit
    if s = 0 then ofMagnitude (x.sign && y.sign) 0 else ofFraction (decide (s < 0)) s.natAbs (twoTo 1074)
  else if x.isFinite then y
  else if y.isFinite || x.sign == y.sign then x
  else nan

/-- The difference, rounded to nearest. -/
def sub (x y : Binary64) : Binary64 := x.add y.neg

/-- The product, rounded to nearest. -/
def mul (x y : Binary64) : Binary64 :=
  let negative := x.sign != y.sign
  if x.isNaN || y.isNaN then nan
  else if x.isFinite && y.isFinite then
    ofFraction negative (x.fraction.1 * y.fraction.1) (x.fraction.2 * y.fraction.2)
  else if x.isZero || y.isZero then nan
  else infinity negative

/-- The quotient, rounded to nearest. -/
def div (x y : Binary64) : Binary64 :=
  let negative := x.sign != y.sign
  if x.isNaN || y.isNaN then nan
  else if y.isFinite && !y.isZero then
    if x.isFinite then ofFraction negative (x.fraction.1 * y.fraction.2) (x.fraction.2 * y.fraction.1)
    else infinity negative
  else if y.isFinite then (if x.isZero then nan else infinity negative)
  else if x.isFinite then ofMagnitude negative 0
  else nan

example : ofInt 1 = ⟨0x3ff0000000000000⟩ := by decide +kernel
example : ofDecimal true 15 (-1) = ⟨0xbff8000000000000⟩ := by decide +kernel
example : ofDecimal false 1 (-1) = ⟨0x3fb999999999999a⟩ := by decide +kernel
example : (ofInt 9007199254740993).toInt? = some 9007199254740992 := by decide +kernel
example : ofDecimal false 5 (-324) = ⟨1⟩ ∧ ofDecimal false 18 307 = infinity false := by decide +kernel

end Binary64

end GuardedConfig.Decimal
