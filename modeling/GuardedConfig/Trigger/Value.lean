import GuardedConfig.Pattern.Read
import GuardedConfig.Trigger.Syntax

/-!
# `Trigger.Value` — truth, equality and order of the values in triggers

Numbers are compared as double-precision numbers, whole numbers too; inside arrays and objects equality is
strict. A value is true unless it is null, `false`, zero or empty. The assertions are functions on values.

## Contents

* `truthy`, `equal`, `order?`, `holds`
* `elementAt?` — indexing
* `matchFault`, `uniqueKey`, `firstRepeated` — what the assertions check
-/

namespace GuardedConfig.Trigger

open Decimal Text

/-- A number as a double-precision number. -/
def numberOf? : Json → Option Binary64
  | .int n => some (.ofInt n)
  | .real x => some x
  | _ => none

/-- Whether a value counts as true. -/
def truthy : Json → Bool
  | .null => false
  | .bool b => b
  | .int n => !(Binary64.ofInt n).isZero
  | .real x => !x.isZero
  | .str s => !s.isEmpty
  | .arr items => !items.isEmpty
  | .obj members => !members.isEmpty

/-- Equality: of numbers as double-precision numbers, of other values strictly. -/
def equal (a b : Json) : Bool :=
  match numberOf? a, numberOf? b with
  | some x, some y => x.equal y
  | _, _ => a.same b

/-- The order of two numbers or of two strings; other values have none. -/
def order? (a b : Json) : Option Ordering :=
  match a, b with
  | .str s, .str t => some (compare s t)
  | a, b =>
    match numberOf? a, numberOf? b with
    | some x, some y => x.compare? y
    | _, _ => none

/-- Whether a comparison holds between two values, if they can be compared. -/
def holds (op : Comparison) (a b : Json) : Option Bool :=
  match op with
  | .eq => some (equal a b)
  | .ne => some (!equal a b)
  | .lt => (order? a b).map (·.isLT)
  | .le => (order? a b).map (·.isLE)
  | .gt => (order? a b).map (·.isGT)
  | .ge => (order? a b).map (·.isGE)

/-- The element of an array at a whole number, or the member of an object with a name. -/
def elementAt? (target index : Json) : Option Json :=
  match target, index with
  | .arr _, .int n => if 0 ≤ n then target.element? n.toNat else none
  | .obj _, .str key => target.member? key
  | _, _ => none

/-! ## Assertions -/

/-- What `ASSERT_REGEX` finds: a fault of the call, or null for a value that matches, or the message for one that
does not. A value that counts as false is not checked. A pattern has to match from the beginning of the text,
but not up to its end. -/
def matchResult (value pattern : Json) : Except String Json :=
  if !truthy value then .ok .null
  else
    match pattern with
    | .str pattern =>
      match Pattern.ofText? ("^(?:" ++ pattern ++ ")") with
      | none => .error ("invalid pattern '" ++ pattern ++ "': <regex>")
      | some p =>
        if p.isMatch value.messageText then .ok .null
        else .ok (.str ("Value '" ++ value.messageText ++ "' does not match the pattern '" ++ pattern ++ "'"))
    | _ => .error "ASSERT_REGEX needs a string pattern"

/-- What has to be unique about an element: a member of it, or the element itself. -/
def uniqueKey (name : Option String) (element : Json) : Json :=
  match name with
  | some name => (element.member? name).getD .null
  | none => element

/-- The first value that is equal to an earlier one, or to one of `seen`. -/
def firstRepeated (seen : List Json) : List Json → Option Json
  | [] => none
  | v :: vs => if seen.any (equal · v) then some v else firstRepeated (seen ++ [v]) vs

/-- What `ASSERT_UNIQUE` finds: a fault of the call, or null, or the message for the first repetition. -/
def uniqueResult (items : Json) (name : Json) : Except String Json :=
  match items with
  | .arr elements =>
    let key : Except String (Option String) := match name with
      | .null => .ok none
      | .str key => .ok (some key)
      | other => .error (other.compact ++ " is not a member name")
    match key with
    | .error e => .error e
    | .ok key =>
      match firstRepeated [] (elements.map (uniqueKey key)) with
      | some v => .ok (.str ("Duplicate value found: '" ++ v.messageText ++ "'"))
      | none => .ok .null
  | _ => .error "ASSERT_UNIQUE needs a list"

end GuardedConfig.Trigger
