import GuardedConfig.Sql.Arithmetic
import GuardedConfig.Sql.Fault

/-!
# `Sql.Function` — the functions of expressions

Functions are found by name, in any case, and take a number of arguments within bounds.

## Contents

* `matchesLike`, `matchesGlob` — wildcards
* `functions` — all functions with their numbers of arguments
* `callFault?`, `applyFunction` — the value of a call
-/

namespace GuardedConfig.Sql

open Decimal Text

/-! ## Wildcards -/

/-- Whether a text matches a pattern where `%` stands for any text and `_` for any character; ASCII letters
match in any case. -/
def matchesLike (escape : Option Char) : List Char → List Char → Bool
  | [], cs => cs.isEmpty
  | p :: ps, cs =>
    if some p = escape then
      match ps, cs with
      | q :: qs, c :: rest => q.toLower == c.toLower && matchesLike escape qs rest
      | _, _ => false
    else if p = '%' then (List.range (cs.length + 1)).any fun n => matchesLike escape ps (cs.drop n)
    else
      match cs with
      | c :: rest => (p == '_' || p.toLower == c.toLower) && matchesLike escape ps rest
      | [] => false

/-- A set of characters between brackets: whether it contains a character, and the pattern after it. -/
def readGlobSet (c : Char) (first : Bool) (found : Bool) : List Char → Option (Bool × List Char)
  | [] => none
  | ']' :: ps => if first then readGlobSet c false (found || c == ']') ps else some (found, ps)
  | a :: '-' :: b :: ps =>
    if b = ']' then readGlobSet c false (found || c == a || c == '-') (b :: ps)
    else readGlobSet c false (found || (a ≤ c && c ≤ b)) ps
  | a :: ps => readGlobSet c false (found || c == a) ps

/-- Whether a text matches a pattern where `*` stands for any text, `?` for any character and brackets for one
of some characters; at most `fuel` steps. -/
def matchesGlob (fuel : Nat) (ps cs : List Char) : Bool :=
  match fuel with
  | 0 => false
  | fuel + 1 =>
    match ps with
    | [] => cs.isEmpty
    | '*' :: ps => (List.range (cs.length + 1)).any fun n => matchesGlob fuel ps (cs.drop n)
    | p :: ps =>
      match cs with
      | [] => false
      | c :: rest =>
        if p = '?' then matchesGlob fuel ps rest
        else if p = '[' then
          let (negated, set) := match ps with
            | '^' :: more => (true, more)
            | _ => (false, ps)
          match readGlobSet c true false set with
          | some (found, ps) => found != negated && matchesGlob fuel ps rest
          | none => false
        else p == c && matchesGlob fuel ps rest

/-! ## Pieces of texts -/

/-- The characters from a place on, counted from one, or from the end if it is negative; a negative count takes
the characters before the place. -/
def slice (cs : List Char) (start : Int) (count : Option Int) : List Char :=
  let n : Int := cs.length
  let p := if 0 < start then start - 1 else if start < 0 then n + start else 0
  -- a start before the text uses up the count; a start of zero uses up one character
  let wanted : Int := match count with
    | some k => k
    | none => n + 1
  let low := if wanted < 0 then p + wanted else if start = 0 ∧ count.isSome then p - 1 else p
  let high := if wanted < 0 then p else if start = 0 ∧ count.isSome then p - 1 + wanted else p + wanted
  let low := max 0 low
  let high := max low (min n high)
  (cs.drop low.toNat).take (high - low).toNat

/-- The place of a text in another one, counted from one; zero if it does not occur. -/
def placeOf (part cs : List Char) : Nat :=
  match cutAt? part cs with
  | some (before, _) => before.length + 1
  | none => 0

/-- A number rounded to some places after the point, halves away from zero. Without places, zero has no sign. -/
def roundTo (x : Binary64) (places : Nat) : Binary64 :=
  if x.isFinite then
    let (num, den) := x.fraction
    let scaled := num * tenTo places
    let q := (2 * scaled + den) / (2 * den)
    if places = 0 && q = 0 then .zero else .ofFraction x.sign q (tenTo places)
  else x

/-- Two hexadecimal digits in upper case. -/
def upperHex (b : UInt8) : List Char :=
  let hex := fun (d : Nat) => if d < 10 then Char.ofNat (48 + d) else Char.ofNat (55 + d)
  [hex (b.toNat / 16), hex (b.toNat % 16)]

/-- The bytes of a value. -/
def bytesOf (v : Value) : List UInt8 :=
  match v with
  | .blob b => b
  | v => ((v.text?).getD "").toUTF8.toList

/-! ## Functions -/

/-- The functions, with the least and the greatest number of arguments. -/
def functions : List (String × Nat × Option Nat) :=
  [("abs", 1, some 1), ("char", 0, none), ("coalesce", 2, none), ("glob", 2, some 2), ("hex", 1, some 1),
   ("if", 2, none), ("ifnull", 2, some 2), ("iif", 2, none), ("instr", 2, some 2), ("length", 1, some 1),
   ("like", 2, some 3), ("lower", 1, some 1), ("ltrim", 1, some 2), ("max", 2, none), ("min", 2, none),
   ("nullif", 2, some 2), ("replace", 3, some 3), ("round", 1, some 2), ("rtrim", 1, some 2),
   ("sign", 1, some 1), ("substr", 2, some 3), ("substring", 2, some 3), ("trim", 1, some 2),
   ("typeof", 1, some 1), ("unicode", 1, some 1), ("upper", 1, some 1)]

/-- The functions that take the values of all rows. -/
def aggregates : List String := ["avg", "count", "group_concat", "max", "min", "sum", "total"]

/-- A function of texts that gives null for null. -/
def onTexts (values : List Value) (f : List (List Char) → Value) : Value :=
  match values.mapM (·.text?) with
  | some texts => f (texts.map String.toList)
  | none => .null

/-- A text as a value. -/
def ofChars (cs : List Char) : Value := .text (String.ofList cs)

/-- The value chosen among some values, from left to right: a later value takes the place of the one chosen so far
if its order to it is wanted. Null if one of the values is null. -/
def extreme (wanted : Ordering → Bool) (c : Collation) (values : List Value) : Value :=
  match values with
  | [] => .null
  | v :: vs =>
    if values.any (· == .null) then .null
    else vs.foldl (fun best w => if wanted (compareValues c w best) then w else best) v

/-- The name of the kind of a value. -/
def typeName : Value → String
  | .null => "null"
  | .integer _ => "integer"
  | .real _ => "real"
  | .text _ => "text"
  | .blob _ => "blob"

/-- The value of the first argument whose condition is true; conditions and values alternate, and a last value
without condition is the default. -/
def firstTrue : List Value → Value
  | c :: v :: rest => if c.truth? = some true then v else firstTrue rest
  | [v] => v
  | [] => .null

/-- The value of a function, given its name in lower case, for arguments in a possible number. -/
def valueOf (name : String) (c : Collation) (values : List Value) : Except Fault Value :=
  let v := values.headD .null
  let w := values.tail.headD .null
  match name with
  | "abs" =>
    match v with
    | .null => .ok .null
    | .integer n => if n = minInt then .error .integerOverflow else .ok (.integer n.natAbs)
    | v =>
      let x := v.toReal
      .ok (.real (if x.isZero then x else .ofMagnitude false x.magnitude))
  | "char" =>
    .ok (ofChars (values.map fun v =>
      if 0 ≤ v.toInt ∧ v.toInt.toNat.isValidChar then Char.ofNat v.toInt.toNat else Char.ofNat 0xfffd))
  | "coalesce" | "ifnull" => .ok ((values.find? (· != .null)).getD .null)
  | "glob" =>
    .ok (onTexts [v, w] fun
      | [p, s] => .ofTruth (some (matchesGlob (p.length + s.length + 1) p s))
      | _ => .null)
  | "hex" => .ok (ofChars ((bytesOf v).flatMap upperHex))
  | "if" | "iif" => .ok (firstTrue values)
  | "instr" =>
    .ok (onTexts [v, w] fun
      | [s, part] => .integer (placeOf part s)
      | _ => .null)
  | "length" =>
    match v with
    | .null => .ok .null
    | .blob b => .ok (.integer b.length)
    | v => .ok (.integer (((v.text?).getD "").toList.takeWhile (·.toNat != 0)).length)
  | "like" =>
    let escape := values[2]?.bind (·.text?)
    .ok (if values.any (· == .null) then .null
      else onTexts [v, w] fun
        | [p, s] => .ofTruth (some (matchesLike (escape.bind (·.toList.head?)) p s))
        | _ => .null)
  | "lower" => .ok (onTexts [v] fun ts => ofChars (ts.flatten.map Char.toLower))
  | "upper" => .ok (onTexts [v] fun ts => ofChars (ts.flatten.map Char.toUpper))
  | "max" => .ok (extreme (· == .gt) c values)
  | "min" => .ok (extreme (· != .gt) c values)
  | "nullif" =>
    .ok (if v != .null && w != .null && compareValues c v w == .eq then .null else v)
  | "replace" =>
    .ok (onTexts values fun
      | [s, old, new] => if old.isEmpty then ofChars s else ofChars (new.intercalate (splitText old s))
      | _ => .null)
  | "round" =>
    .ok (match v.toNumber with
      | .null => .null
      | n =>
        if values.length = 2 ∧ w = .null then .null
        else .real (roundTo n.toReal (min 30 (if values.length = 2 then w.toInt.toNat else 0))))
  | "sign" =>
    .ok (match v with
      | .integer n => .integer n.sign
      | .real x => .integer x.key.sign
      | _ => .null)
  | "substr" | "substring" =>
    let count := values[2]?
    if v = .null ∨ w = .null ∨ count = some .null then .ok .null
    else .ok (onTexts [v] fun ts => ofChars (slice ts.flatten w.toInt (count.map (·.toInt))))
  | "ltrim" | "rtrim" | "trim" =>
    .ok (onTexts values fun ts =>
      let set := (ts[1]?).getD [' ']
      let s := ts.headD []
      let s := if name = "rtrim" then s else s.dropWhile set.contains
      ofChars (if name = "ltrim" then s else dropEndWhile set.contains s))
  | "typeof" => .ok (.text (typeName v))
  | "unicode" =>
    .ok (onTexts [v] fun ts =>
      match ts.flatten with
      | d :: _ => .integer d.toNat
      | [] => .null)
  | _ => .ok .null

/-- What is wrong with a call of a function with so many arguments. -/
def callFault? (name : String) (count : Nat) (star : Bool) : Option Fault :=
  let plain := String.ofList (lowerAscii name)
  match functions.find? (·.1 == plain) with
  | some (_, least, most) =>
    if !star && least ≤ count && most.all (fun m => count ≤ m) then none
    else if aggregates.contains plain && !star && count = 1 then some (.aggregateMisuse name)
    else some (.functionArguments name)
  | none => some (if aggregates.contains plain then .aggregateMisuse name else .noFunction name)

/-- The value of a call. -/
def applyFunction (name : String) (c : Collation) (values : List Value) (star : Bool) : Except Fault Value :=
  match callFault? name values.length star with
  | some f => .error f
  | none => valueOf (String.ofList (lowerAscii name)) c values

end GuardedConfig.Sql
