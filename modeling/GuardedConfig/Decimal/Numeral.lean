import GuardedConfig.Decimal.Shortest
import GuardedConfig.Text.Word

/-!
# `Decimal.Numeral` — reading written numbers

The pieces that all number formats share: a stretch of ASCII digits, its value, an optional fraction and an
optional exponent. Each format combines them by its own rules.

## Contents

* `takeDigits`, `natOf` — digits and their value
* `Numeral` — sign, digits before and after the point, exponent
* `Numeral.toBinary64`, `Numeral.toInt` — its value
* `readInt?` — a whole number with an optional sign, within bounds
* `readReal?` — a real number in free notation
-/

namespace GuardedConfig.Decimal

open Text

/-- The digits at the front, and the rest. -/
def takeDigits (cs : List Char) : List Char × List Char :=
  (cs.takeWhile isAsciiDigit, cs.dropWhile isAsciiDigit)

/-- The value of a list of digits. -/
def natOf (ds : List Char) : Nat := ds.foldl (fun n c => 10 * n + (c.toNat - 48)) 0

/-- A written number, taken apart. -/
structure Numeral where
  negative : Bool
  whole : List Char
  fraction : List Char
  exponent : Int

namespace Numeral

/-- The double-precision number nearest to a numeral. -/
def toBinary64 (n : Numeral) : Binary64 :=
  .ofDecimal n.negative (natOf (n.whole ++ n.fraction)) (n.exponent - n.fraction.length)

/-- The whole part with its sign. -/
def toInt (n : Numeral) : Int := if n.negative then -(natOf n.whole : Int) else natOf n.whole

end Numeral

/-- The smallest and largest whole numbers with 64 bits and a sign. -/
def minInt : Int := -0x8000000000000000

@[inherit_doc minInt] def maxInt : Int := 0x7fffffffffffffff

/-- The first whole number that does not fit into 64 bits without a sign. -/
def wordLimit : Int := 0x10000000000000000

/-- Whether a whole number fits into 64 bits with a sign. -/
def isInt64 (n : Int) : Bool := minInt ≤ n && n ≤ maxInt

/-- A sign at the front: whether it is a minus, and the rest. -/
def takeSign : List Char → Bool × List Char
  | '-' :: cs => (true, cs)
  | '+' :: cs => (false, cs)
  | cs => (false, cs)

/-- A whole number of 64 bits: an optional sign and at least one digit, nothing else. -/
def readInt? (cs : List Char) : Option Int :=
  let (negative, rest) := takeSign cs
  let n : Int := if negative then -(natOf rest : Int) else natOf rest
  if !rest.isEmpty && rest.all isAsciiDigit && isInt64 n then some n else none

/-- An exponent at the front: `e` or `E`, an optional sign and at least one digit. -/
def takeExponent? : List Char → Option (Int × List Char)
  | [] => none
  | c :: cs =>
    if c = 'e' ∨ c = 'E' then
      let (negative, rest) := takeSign cs
      let (ds, rest) := takeDigits rest
      if ds.isEmpty then none
      else some (if negative then -(natOf ds : Int) else natOf ds, rest)
    else none

/-- A real number in free notation: an optional sign, digits with an optional point (some digit must stand
before or after it), and an optional exponent. -/
def readNumeral? (cs : List Char) : Option Numeral :=
  let (negative, rest) := takeSign cs
  let (whole, rest) := takeDigits rest
  let (fraction, rest) := match rest with
    | '.' :: more => takeDigits more
    | _ => ([], rest)
  if whole.isEmpty && fraction.isEmpty then none
  else if rest.isEmpty then some ⟨negative, whole, fraction, 0⟩
  else
    match takeExponent? rest with
    | some (e, []) => some ⟨negative, whole, fraction, e⟩
    | _ => none

/-- A real number in free notation; `inf`, `infinity` and `nan` in any case are numbers too. -/
def readReal? (cs : List Char) : Option Binary64 :=
  let (negative, rest) := takeSign cs
  let name := String.ofList (rest.map Char.toLower)
  if name == "inf" || name == "infinity" then some (.infinity negative)
  else if name == "nan" then some .nan
  else (readNumeral? cs).map Numeral.toBinary64

end GuardedConfig.Decimal
