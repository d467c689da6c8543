import GuardedConfig.Sql.Value
import GuardedConfig.Text.Case

/-!
# `Sql.Affinity` — what columns do to values, and how values are compared

The declared type of a column is free text; a few letters in it decide its affinity, which converts the values
that are stored and compared. Values are ordered by kind first: null, numbers, texts, bytes.

## Contents

* `Affinity`, `Affinity.ofType`, `Affinity.store`, `Affinity.toCompare`
* `Collation`, `Collation.ofName?`, `Collation.compareText`
* `compareValues` — the order of all values
-/

namespace GuardedConfig.Sql

open Decimal Text

/-! ## Affinity -/

/-- What a column prefers to hold. -/
inductive Affinity where
  | integer
  | text
  | blob
  | real
  | numeric
deriving DecidableEq, Repr, Inhabited

namespace Affinity

/-- Whether `part` occurs in `cs`. -/
def occursIn (part cs : List Char) : Bool := (cutAt? part cs).isSome

/-- The affinity of a declared type: by the first of these parts that occurs in it, in any case. -/
def ofType (type : String) : Affinity :=
  let cs := type.toList.map Char.toUpper
  let has := fun (part : String) => occursIn part.toList cs
  if has "INT" then integer
  else if has "CHAR" || has "CLOB" || has "TEXT" then text
  else if has "BLOB" || cs.isEmpty then blob
  else if has "REAL" || has "FLOA" || has "DOUB" then real
  else numeric

/-- Whether numbers are preferred. -/
def isNumeric : Affinity → Bool
  | integer | real | numeric => true
  | _ => false

/-- A text that is a number as that number; other values stay. -/
def numberIfText (v : Value) : Value :=
  match v with
  | .text s => (numberOf? s).getD v
  | v => v

/-- A number as text; other values stay. -/
def textIfNumber (v : Value) : Value :=
  match v with
  | .integer n => .text (intText n)
  | .real x => .text (Sql.realText x)
  | v => v

/-- A whole number as a real; other values stay. -/
def realIfInteger (v : Value) : Value :=
  match v with
  | .integer n => .real (.ofInt n)
  | v => v

/-- A real that is whole as a whole number; other values stay. -/
def integerIfWhole (v : Value) : Value :=
  match v with
  | .real x => wholeReal x
  | v => v

/-- The value that a column with an affinity holds for a value. Whole reals are kept as whole numbers and given
back as reals, so the zero of a column of reals has no sign. -/
def store (a : Affinity) (v : Value) : Value :=
  match a with
  | blob => v
  | text => textIfNumber v
  | integer | numeric => integerIfWhole (numberIfText v)
  | real => realIfInteger (integerIfWhole (numberIfText v))

/-- The value that takes part in a comparison under an affinity, where `other` is the value on the other side. -/
def toCompare (a : Option Affinity) (v other : Value) : Value :=
  match a with
  | some .text =>
    match v, other with
    | .text _, _ | _, .text _ => textIfNumber v
    | _, _ => v
  | some a => if a.isNumeric then numberIfText v else v
  | none => v

/-- The affinity under which two operands are compared: two columns compare as numbers if one of them prefers
numbers, and a column decides over an operand without affinity. -/
def common : Option Affinity → Option Affinity → Option Affinity
  | some a, some b => if a.isNumeric || b.isNumeric then some numeric else some blob
  | some a, none => some a
  | none, b => b

end Affinity

/-! ## Collation -/

/-- How texts are ordered. -/
inductive Collation where
  | binary
  | noCase
  | rightTrim
deriving DecidableEq, Repr, Inhabited

namespace Collation

/-- The collation with a name, in any case. -/
def ofName? (name : String) : Option Collation :=
  if equalsIgnoringAsciiCase name "BINARY" then some binary
  else if equalsIgnoringAsciiCase name "NOCASE" then some noCase
  else if equalsIgnoringAsciiCase name "RTRIM" then some rightTrim
  else none

/-- The part of a text that counts. -/
def key (c : Collation) (s : String) : List Char :=
  match c with
  | binary => s.toList
  | noCase => lowerAscii s
  | rightTrim => dropEndWhile (· == ' ') s.toList

/-- The order of two texts. -/
def compareText (c : Collation) (s t : String) : Ordering :=
  compareOfLessAndEq (c.key s) (c.key t)

end Collation

/-! ## Order -/

/-- The order of two numbers, exactly. -/
def compareNumbers : Value → Value → Ordering
  | .integer a, .integer b => compare a b
  | .integer a, .real y => Binary64.compareInt a y
  | .real x, .integer b => (Binary64.compareInt b x).swap
  | .real x, .real y => compare x.key y.key
  | _, _ => .eq

/-- The order of kinds. -/
def kindRank : Value → Nat
  | .null => 0
  | .integer _ | .real _ => 1
  | .text _ => 2
  | .blob _ => 3

/-- The order of all values under a collation. -/
def compareValues (c : Collation) (a b : Value) : Ordering :=
  match a, b with
  | .text s, .text t => c.compareText s t
  | .blob x, .blob y => compareOfLessAndEq x y
  | a, b => if kindRank a = 1 ∧ kindRank b = 1 then compareNumbers a b else compare (kindRank a) (kindRank b)

end GuardedConfig.Sql
