import GuardedConfig.Decimal.Numeral

/-!
# `Json.Basic` — JSON values

The values that fields are bound to and read as. A number is a whole number of 64 bits, with or without a sign,
or a finite double-precision number; the two kinds stay apart. The members of an object are kept in the order
of their keys.

## Contents

* `Json` — the values
* `Json.insertMember`, `Json.object` — objects with ordered keys
* `Json.member?`, `Json.element?` — access
* `Json.same` — strict equality, which tells `1` from `1.0`
-/

namespace GuardedConfig

open Decimal

/-- A JSON value. -/
inductive Json where
  | null
  | bool (b : Bool)
  | int (n : Int)
  | real (x : Binary64)
  | str (s : String)
  | arr (items : List Json)
  | obj (members : List (String × Json))
deriving Inhabited, Repr

namespace Json

/-- Puts a member into a list that is ordered by key; a member with the same key is replaced. -/
def insertMember {α : Type} (key : String) (value : α) : List (String × α) → List (String × α)
  | [] => [(key, value)]
  | (k, v) :: rest =>
    if key < k then (key, value) :: (k, v) :: rest
    else if key = k then (key, value) :: rest
    else (k, v) :: insertMember key value rest

/-- The object with these members; of several with one key the last one stays. -/
def members {α : Type} (pairs : List (String × α)) : List (String × α) :=
  pairs.foldl (fun acc (k, v) => insertMember k v acc) []

/-- The object with these members. -/
def object (pairs : List (String × Json)) : Json := obj (members pairs)

/-- The member of an object with a key. -/
def member? (key : String) : Json → Option Json
  | obj ms => (ms.find? (·.1 == key)).map (·.2)
  | _ => none

/-- The element of an array at an index. -/
def element? (index : Nat) : Json → Option Json
  | arr items => items[index]?
  | _ => none

/-- The number with a whole value: beyond 64 bits it is a double-precision number. -/
def ofInt (n : Int) : Json :=
  if minInt ≤ n && n < wordLimit then int n else real (.ofInt n)

/-! ## Strict equality -/

mutual

/-- Equality of values: whole numbers and double-precision numbers are never equal to each other, and the two
zeros are equal. -/
def same : Json → Json → Bool
  | null, null => true
  | bool a, bool b => a == b
  | int a, int b => a == b
  | real a, real b => a.equal b
  | str a, str b => a == b
  | arr a, arr b => sameItems a b
  | obj a, obj b => sameMembers a b
  | _, _ => false

@[inherit_doc same] def sameItems : List Json → List Json → Bool
  | [], [] => true
  | a :: as, b :: bs => same a b && sameItems as bs
  | _, _ => false

@[inherit_doc same] def sameMembers : List (String × Json) → List (String × Json) → Bool
  | [], [] => true
  | (k, a) :: as, (l, b) :: bs => k == l && same a b && sameMembers as bs
  | _, _ => false

end

/-! ## Kinds -/

/-- Neither an array nor an object. -/
def isScalar : Json → Bool
  | arr _ => false
  | obj _ => false
  | _ => true

end Json

end GuardedConfig
