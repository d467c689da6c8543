import GuardedConfig.Json.Print
import GuardedConfig.Sql.Value

/-!
# `Plan.Scalar` — between JSON values and stored values

Scalars are stored as they are: truth values as 1 and 0, whole numbers beyond 64 bits as reals. Arrays and
objects are no stored values. Read back, bytes become an array of numbers.

## Contents

* `Binding.Fault` — why a value cannot be bound or a plan cannot be used
* `toStored`, `ofStored`
-/

namespace GuardedConfig

open Decimal Text

namespace Binding

/-- Why a value cannot be bound, or a plan cannot be used. -/
inductive Fault where
  | notScalar (value : Json)
  | shape (path expected : String) (value : Json)
  | noField (table field : String)
  | notBound (path use : String)
  | noRowId (statement : String)
  | inUse (path : String)
  | refused (reason : String)
deriving Repr, Inhabited

/-- The wording of a fault. -/
def Fault.message : Fault → String
  | notScalar value => value.compact ++ " is not a scalar value"
  | shape path expected value => "'" ++ path ++ "' expects " ++ expected ++ ", got " ++ value.compact
  | noField table field => "'" ++ table ++ "' has no field '" ++ field ++ "'"
  | notBound path use => "'" ++ path ++ "' must be bound before it is " ++ use
  | noRowId statement => "no row id captured before '" ++ statement ++ "'"
  | inUse path => "plan for '" ++ path ++ "' is already bound and in use"
  | refused reason => reason

end Binding

namespace Plan

/-- The stored value of a scalar. -/
def toStored : Json → Except Binding.Fault Sql.Value
  | .null => .ok .null
  | .bool b => .ok (.integer (if b then 1 else 0))
  | .int n => .ok (if isInt64 n then .integer n else .real (.ofInt n))
  | .real x => .ok (.real x)
  | .str s => .ok (.text s)
  | v => .error (.notScalar v)

/-- The JSON value of a stored value; reals that are not finite are null. -/
def ofStored : Sql.Value → Json
  | .null => .null
  | .integer n => .int n
  | .real x => if x.isFinite then .real x else .null
  | .text s => .str s
  | .blob bytes => .arr (bytes.map fun b => .int b.toNat)

end Plan

end GuardedConfig
