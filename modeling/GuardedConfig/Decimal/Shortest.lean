import GuardedConfig.Decimal.Binary64

/-!
# `Decimal.Shortest` — the fewest digits that read back

The shortest decimal of a double-precision number: of the decimals with the fewest digits that round to the
number, the one nearest to it. The reals that round to `m · 2 ^ e` form an interval, whose ends belong to it
when `m` is even. For one digit, two digits, and so on, the two neighbours of the number on that decimal grid
are tried; the first grid with a neighbour inside the interval gives the digits.

`Places` says how the digits are written out. `Decimal.rounded` is the other common text of a number: a fixed
number of significant digits.

## Contents

* `Digits`, `shortest`, `rounded` — the digits and the decimal exponent
* `Places`, `Places.write` — positional and scientific notation
-/

namespace GuardedConfig.Decimal

/-- A positive decimal in scientific form: its digits, the first one before the point, and the power of ten. -/
structure Digits where
  digits : List Nat
  power : Int
deriving DecidableEq, Repr

/-- Which of two equally near decimals is taken. -/
inductive Tie where
  | up
  | even
deriving DecidableEq, Repr

/-- The decimal digits of a number, most significant first. -/
def digitsOf (n : Nat) : List Nat := (Nat.toDigits 10 n).map fun c => c.toNat - 48

/-- Removes zeros at the end. -/
def dropZeros (ds : List Nat) : List Nat := (ds.reverse.dropWhile (· = 0)).reverse

/-- `num / den ≤ a · 10 ^ p`, computed on integers. -/
def atMost (num den a : Nat) (p : Int) : Bool :=
  if 0 ≤ p then num ≤ a * tenTo p.toNat * den else num * tenTo (-p).toNat ≤ a * den

/-- The greatest whole number `a` with `a · 10 ^ p ≤ num / den`. -/
def floorAt (num den : Nat) (p : Int) : Nat :=
  if 0 ≤ p then num / (den * tenTo p.toNat) else num * tenTo (-p).toNat / den

/-- The power of ten of the first digit of `num / den`, from a guess that is not too large. -/
def leadingPower (num den : Nat) : Int :=
  let guess : Int := (((num.log2 : Int) - den.log2 - 1) * 30103).fdiv 100000 - 1
  -- the guess is at most three too small
  (List.range 4).foldl (fun p _ => if 10 ≤ floorAt num den p then p + 1 else p) guess

/-- The interval of the reals that round to a finite positive number, as numerators over a common denominator,
with whether its ends belong to it. -/
structure Interval where
  low : Nat
  value : Nat
  high : Nat
  den : Nat
  closed : Bool

/-- The rounding interval of a number; below a power of two the neighbour is half as far. -/
def Interval.of (x : Binary64) : Interval :=
  let m := x.mantissa
  let narrow := m = Binary64.fractionCount ∧ 1 < x.biased
  let e := x.exponent - 2
  let low := if narrow then 4 * m - 1 else 4 * m - 2
  let up := if 0 ≤ e then twoTo e.toNat else 1
  let den := if 0 ≤ e then 1 else twoTo (-e).toNat
  ⟨low * up, 4 * m * up, (4 * m + 2) * up, den, m % 2 = 0⟩

/-- Whether `a · 10 ^ p` lies in the interval. -/
def Interval.holds (i : Interval) (a : Nat) (p : Int) : Bool :=
  -- both comparisons as `low/den ≤ a·10^p ≤ high/den`, strict when the ends are out
  let (l, h) :=
    if 0 ≤ p then
      let v := a * tenTo p.toNat * i.den
      (compare i.low v, compare v i.high)
    else
      let t := tenTo (-p).toNat
      (compare (i.low * t) (a * i.den), compare (a * i.den) (i.high * t))
  (l == .lt || (i.closed && l == .eq)) && (h == .lt || (i.closed && h == .eq))

/-- Whether the upper of the two neighbours `a` and `a + 1` at `10 ^ p` is to be taken. -/
def takeUpper (num den a : Nat) (p : Int) (tie : Tie) : Bool :=
  let order :=
    if 0 ≤ p then compare (2 * num) ((2 * a + 1) * tenTo p.toNat * den)
    else compare (2 * num * tenTo (-p).toNat) ((2 * a + 1) * den)
  match order with
  | .lt => false
  | .gt => true
  | .eq => match tie with
    | .up => true
    | .even => a % 2 == 1

/-- Tries grids of `k` and more digits, at most `more` of them. -/
def shortestFrom (i : Interval) (first : Int) (tie : Tie) (k more : Nat) : Nat × Int :=
  let p := first - (k - 1 : Nat)
  let a := floorAt i.value i.den p
  match more with
  | 0 => (a, p)
  | more + 1 =>
    match i.holds a p && a != 0, i.holds (a + 1) p with
    | true, true => (if takeUpper i.value i.den a p tie then a + 1 else a, p)
    | true, false => (a, p)
    | false, true => (a + 1, p)
    | false, false => shortestFrom i first tie (k + 1) more

/-- `a · 10 ^ p` in scientific form, without zeros at the end. -/
def Digits.normal (a : Nat) (p : Int) : Digits :=
  let ds := digitsOf a
  ⟨dropZeros ds, p + (ds.length - 1 : Nat)⟩

/-- The shortest decimal of a finite number other than zero, without its sign. -/
def shortest (tie : Tie) (x : Binary64) : Digits :=
  let i := Interval.of x
  let (a, p) := shortestFrom i (leadingPower i.value i.den) tie 1 18
  .normal a p

/-- The decimal with `count` digits nearest to a finite number other than zero, a half going up. -/
def rounded (count : Nat) (x : Binary64) : Digits :=
  let (num, den) := x.fraction
  let p := leadingPower num den - (count - 1 : Nat)
  let a := floorAt num den p
  .normal (if takeUpper num den a p .up then a + 1 else a) p

/-! ## Writing the digits -/

/-- How a number is written: the powers that are written positionally, and the form of an exponent. -/
structure Places where
  lowest : Int
  highest : Int
  plus : String
  leastExponentDigits : Nat
  /-- Whether a scientific form with one digit still gets a point and a zero. -/
  scientificPoint : Bool
deriving DecidableEq, Repr

/-- A digit as a character. -/
def digitChar (d : Nat) : Char := Char.ofNat (48 + d)

/-- Digits as text. -/
def digitText (ds : List Nat) : String := String.ofList (ds.map digitChar)

/-- Text of at least `width` digits, with zeros in front. -/
def paddedNat (width n : Nat) : String :=
  let ds := digitsOf n
  digitText (List.replicate (width - ds.length) 0 ++ ds)

/-- A decimal point with the digits after it, at least one. -/
def pointAnd (ds : List Nat) : String := "." ++ digitText (if ds.isEmpty then [0] else ds)

/-- Writes a positive decimal. -/
def Places.write (f : Places) (d : Digits) : String :=
  if f.lowest ≤ d.power ∧ d.power ≤ f.highest then
    if d.power < 0 then
      "0" ++ pointAnd (List.replicate ((-d.power).toNat - 1) 0 ++ d.digits)
    else
      let n := d.power.toNat + 1
      digitText (d.digits.take n ++ List.replicate (n - d.digits.length) 0) ++ pointAnd (d.digits.drop n)
  else
    let head := digitText (d.digits.take 1)
    let tail := d.digits.drop 1
    let mark := if tail.isEmpty && !f.scientificPoint then "" else pointAnd tail
    let exponentSign := if d.power < 0 then "-" else f.plus
    head ++ mark ++ "e" ++ exponentSign ++ paddedNat f.leastExponentDigits d.power.natAbs

/-- Writes a finite number with its sign, given the digits of numbers other than zero. -/
def Places.writeSigned (f : Places) (digits : Binary64 → Digits) (x : Binary64) : String :=
  let body := if x.isZero then f.write ⟨[0], 0⟩ else f.write (digits x)
  if x.sign then "-" ++ body else body

end GuardedConfig.Decimal
