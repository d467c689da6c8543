import GuardedConfig.Sql.Affinity

/-!
# `Sql.Arithmetic` — operators on values

Arithmetic is on whole numbers while the result fits 64 bits, and on double-precision numbers otherwise. Null on
either side gives null, and so does a division by zero. Logic has three values.

## Contents

* `arithmetic`, `negate`, `bitwise`, `concat`
* `conjunction`, `disjunction`, `negation` — three-valued logic
-/

namespace GuardedConfig.Sql

open Decimal

/-! ## Numbers -/

/-- A real as a value; not-a-number is null. -/
def ofReal (x : Binary64) : Value := if x.isNaN then .null else .real x

/-- Applies an operation to two numbers: on whole numbers if both are whole and the result fits. -/
def withNumbers (onInts : Int → Int → Option Int) (onReals : Binary64 → Binary64 → Value) (a b : Value) :
    Value :=
  match a.toNumber, b.toNumber with
  | .null, _ | _, .null => .null
  | .integer x, .integer y =>
    match onInts x y with
    | some n => if isInt64 n then .integer n else onReals (.ofInt x) (.ofInt y)
    | none => .null
  | x, y => onReals x.toReal y.toReal

/-- The sum. -/
def addValues : Value → Value → Value := withNumbers (fun a b => some (a + b)) fun x y => ofReal (x.add y)

/-- The difference. -/
def subValues : Value → Value → Value := withNumbers (fun a b => some (a - b)) fun x y => ofReal (x.sub y)

/-- The product. -/
def mulValues : Value → Value → Value := withNumbers (fun a b => some (a * b)) fun x y => ofReal (x.mul y)

/-- The quotient; of whole numbers, toward zero. -/
def divValues : Value → Value → Value :=
  withNumbers (fun a b => if b = 0 then none else some (a.tdiv b))
    fun x y => if y.isZero then .null else ofReal (x.div y)

/-- The remainder of the whole parts, with the sign of the dividend. -/
def remValues (a b : Value) : Value :=
  match a.toNumber, b.toNumber with
  | .null, _ | _, .null => .null
  | x, y =>
    let d := b.toInt
    if d = 0 then .null
    else
      let r := a.toInt.tmod d
      match x, y with
      | .integer _, .integer _ => .integer r
      | _, _ => .real (.ofInt r)

/-- The number with the other sign. -/
def negate (v : Value) : Value := subValues (.integer 0) v

/-! ## Bits -/

/-- A whole number as 64 bits. -/
def bitsOf (n : Int) : Nat := (n % wordLimit).toNat

/-- 64 bits as a whole number with a sign. -/
def ofBits (n : Nat) : Int :=
  let m : Int := n % wordLimit
  if m ≤ maxInt then m else m - wordLimit

/-- A shift to the left, by a negative amount to the right; the sign fills up from the left. -/
def shift (n by_ : Int) : Int :=
  if 64 ≤ by_ then 0
  else if 0 ≤ by_ then ofBits (bitsOf n * twoTo by_.toNat)
  else if by_ ≤ -64 then (if n < 0 then -1 else 0)
  else n.fdiv (twoTo (-by_).toNat)

/-- Applies an operation on whole numbers to two values. -/
def withInts (f : Int → Int → Int) (a b : Value) : Value :=
  match a, b with
  | .null, _ | _, .null => .null
  | a, b => .integer (f a.toInt b.toInt)

/-! ## Text -/

/-- Two texts joined. -/
def concatValues (a b : Value) : Value :=
  match a.text?, b.text? with
  | some s, some t => .text (s ++ t)
  | _, _ => .null

/-! ## Logic -/

/-- Three-valued conjunction. -/
def conjunction : Option Bool → Option Bool → Option Bool
  | some false, _ | _, some false => some false
  | some true, some true => some true
  | _, _ => none

/-- Three-valued disjunction. -/
def disjunction : Option Bool → Option Bool → Option Bool
  | some true, _ | _, some true => some true
  | some false, some false => some false
  | _, _ => none

/-- Three-valued negation. -/
def negation (b : Option Bool) : Option Bool := b.map (!·)

theorem negation_conjunction (a b : Option Bool) :
    negation (conjunction a b) = disjunction (negation a) (negation b) := by
  rcases a with _ | _ | _ <;> rcases b with _ | _ | _ <;> rfl

end GuardedConfig.Sql
