import GuardedConfig.Decimal.Numeral
import GuardedConfig.Text.Utf8

/-!
# `Sql.Value` — stored values

A stored value is null, a whole number of 64 bits, a double-precision number, a text or bytes. This module also
has the two conversions between numbers and texts that columns and comparisons apply.

## Contents

* `Value`
* `realText`, `Value.text?` — numbers as text
* `numberOf?` — the number that a whole text is
* `numberPrefix`, `integerPrefix` — the number at the front of a text
* `wholeReal` — double-precision numbers that are kept as whole numbers
-/

namespace GuardedConfig.Sql

open Decimal Text

/-- A stored value. -/
inductive Value where
  | null
  | integer (n : Int)
  | real (x : Binary64)
  | text (s : String)
  | blob (bytes : List UInt8)
deriving DecidableEq, Repr, Inhabited

/-! ## Numbers as text -/

/-- Reals become text with fifteen digits: positional from four places after the point up to fifteen before
it, an exponent with a sign and two digits otherwise, and always a point. -/
def realPlaces : Places := ⟨-4, 14, "+", 2, true⟩

/-- A real as text. Zero is written without its sign. -/
def realText (x : Binary64) : String :=
  if x.isNaN then "NULL"
  else if x.isZero then realPlaces.write ⟨[0], 0⟩
  else if x.isFinite then realPlaces.writeSigned (rounded 15) x
  else if x.sign then "-Inf" else "Inf"

/-- A whole number as text. -/
def intText (n : Int) : String :=
  let digits := digitText (digitsOf n.natAbs)
  if n < 0 then "-" ++ digits else digits

/-! ## Texts as numbers -/

/-- The blanks that may stand around a number. -/
def isSpace (c : Char) : Bool := c == ' ' || (9 ≤ c.toNat && c.toNat ≤ 13)

/-- The numeral at the front of a text, after blanks, and what follows it; whether it is a plain whole number. -/
def takeNumeral (cs : List Char) : Option (Numeral × Bool × List Char) :=
  let (negative, rest) := takeSign (cs.dropWhile isSpace)
  let (whole, rest) := takeDigits rest
  let (fraction, rest, pointed) := match rest with
    | '.' :: more =>
      let (ds, after) := takeDigits more
      (ds, after, true)
    | _ => ([], rest, false)
  if whole.isEmpty && fraction.isEmpty then none
  else
    match takeExponent? rest with
    | some (e, after) => some (⟨negative, whole, fraction, e⟩, false, after)
    | none => some (⟨negative, whole, fraction, 0⟩, !pointed, rest)

/-- A double-precision number that is kept as a whole number: it is whole and strictly inside the range. -/
def wholeReal (x : Binary64) : Value :=
  match x.toInt? with
  | some n => if minInt < n && n < maxInt then .integer n else .real x
  | none => .real x

/-- The value of a numeral: whole numbers that fit stay whole, all others are double-precision. -/
def numeralValue (n : Numeral) (plain : Bool) : Value :=
  if plain && isInt64 n.toInt then .integer n.toInt else .real n.toBinary64

/-- The number that a text is, with blanks around it. -/
def numberOf? (s : String) : Option Value :=
  match takeNumeral s.toList with
  | some (n, plain, rest) =>
    if rest.all isSpace then
      match numeralValue n plain with
      | .real x => some (wholeReal x)
      | v => some v
    else none
  | none => none

/-- The number at the front of a text, zero if there is none. -/
def numberPrefix (s : String) : Value :=
  match takeNumeral s.toList with
  | some (n, plain, _) => numeralValue n plain
  | none => .integer 0

/-- The whole number at the front of a text, without fraction and exponent; zero if there is none. -/
def integerPrefix (s : String) : Int :=
  let (negative, rest) := takeSign (s.toList.dropWhile isSpace)
  let n := natOf (takeDigits rest).1
  if negative then -(n : Int) else n

namespace Value

/-- A value as text; null has none. -/
def text? : Value → Option String
  | null => none
  | integer n => some (intText n)
  | real x => some (realText x)
  | text s => some s
  | blob b => some (textOfBytes b)

/-- A value as a number: texts by their front, null stays null. -/
def toNumber : Value → Value
  | text s => numberPrefix s
  | blob b => numberPrefix (textOfBytes b)
  | v => v

/-- A number as a double-precision number; other values are zero. -/
def toReal (v : Value) : Binary64 :=
  match v.toNumber with
  | integer n => .ofInt n
  | real x => x
  | _ => .zero

/-- The nearest whole number within the range. -/
def clampInt (n : Int) : Int := max minInt (min maxInt n)

/-- A value as a whole number: fractions are cut off and numbers beyond the range are clamped. -/
def toInt (v : Value) : Int :=
  match v with
  | null => 0
  | integer n => n
  | real x =>
    if x.isNaN then 0
    else if x.isFinite then clampInt x.truncate
    else if x.sign then minInt else maxInt
  | text s => clampInt (integerPrefix s)
  | blob b => clampInt (integerPrefix (textOfBytes b))

/-- Truth: none for null, otherwise whether the number is not zero. -/
def truth? (v : Value) : Option Bool :=
  match v.toNumber with
  | null => none
  | integer n => some (n != 0)
  | real x => some (!x.isZero)
  | _ => some false

/-- A truth value as a number; unknown is null. -/
def ofTruth : Option Bool → Value
  | none => null
  | some b => integer (if b then 1 else 0)

end Value

end GuardedConfig.Sql
