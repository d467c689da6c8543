import GuardedConfig.Json.Basic

/-!
# `Json.Read` — reading JSON text

Reading has two steps. `Document.ofText?` follows the grammar and keeps what the text says: the digits of
numbers, repeated keys, and strings whose escapes denote no character. `Document.toJson?` turns a document into
a value, where such strings, numbers beyond the range and nesting that is too deep are faults, and of members
with one key the last one stays. Other readers take documents apart by rules of their own.

## Contents

* `Document` — parsed text
* `readString` — the characters of a string up to its closing quote
* `Document.ofText?` — the grammar
* `Document.toJson?`, `Json.ofText?` — values
-/

namespace GuardedConfig.Json

open Decimal Text

/-- JSON text, parsed. A string is `none` if its escapes denote half a character. -/
inductive Document where
  | null
  | bool (b : Bool)
  | number (n : Numeral) (plain : Bool)
  | string (s : Option String)
  | array (items : List Document)
  | object (members : List (Option String × Document))
deriving Inhabited

/-! ## Lexical parts -/

/-- The blanks between the parts of a text. -/
def isGap (c : Char) : Bool := c == ' ' || c == '\n' || c == '\t' || c == '\r'

/-- The text after blanks. -/
def skipGap (cs : List Char) : List Char := cs.dropWhile isGap

/-- The value of a hexadecimal digit in either case. -/
def hexValue? (c : Char) : Option Nat := hexDigit? c.toLower

/-- Four hexadecimal digits and what follows them. -/
def fourHex? : List Char → Option (Nat × List Char)
  | a :: b :: c :: d :: rest => do
    let a ← hexValue? a
    let b ← hexValue? b
    let c ← hexValue? c
    let d ← hexValue? d
    some (((a * 16 + b) * 16 + c) * 16 + d, rest)
  | _ => none

/-- The units of a string: characters, or halves of characters written as escapes. -/
inductive Unit16 where
  | char (c : Char)
  | half (n : Nat)

/-- The character of a one-letter escape. -/
def shortEscape? (c : Char) : Option Char :=
  if c = '"' then some '"'
  else if c = '\\' then some '\\'
  else if c = '/' then some '/'
  else if c = 'b' then some (Char.ofNat 8)
  else if c = 'f' then some (Char.ofNat 12)
  else if c = 'n' then some '\n'
  else if c = 'r' then some '\r'
  else if c = 't' then some '\t'
  else none

/-- The unit of a number written with four digits. -/
def unitOf (n : Nat) : Unit16 :=
  if 0xd800 ≤ n ∧ n < 0xe000 then .half n else .char (Char.ofNat n)

/-- The units of a string up to its closing quote, and what follows it. -/
def readUnits : List Char → Option (List Unit16 × List Char)
  | [] => none
  | '"' :: rest => some ([], rest)
  | '\\' :: 'u' :: a :: b :: c :: d :: rest =>
    match fourHex? [a, b, c, d] with
    | some (n, _) => (readUnits rest).map fun (us, r) => (unitOf n :: us, r)
    | none => none
  | '\\' :: e :: rest =>
    match shortEscape? e with
    | some ch => (readUnits rest).map fun (us, r) => (.char ch :: us, r)
    | none => none
  | c :: rest =>
    if c = '\\' ∨ c.toNat < 32 then none
    else (readUnits rest).map fun (us, r) => (.char c :: us, r)

/-- Joins halves; a half without its partner has no character. -/
def joinUnits : List Unit16 → Option (List Char)
  | [] => some []
  | .char c :: us => (joinUnits us).map (c :: ·)
  | .half h :: .half l :: us =>
    if h < 0xdc00 ∧ 0xdc00 ≤ l then
      (joinUnits us).map (Char.ofNat (0x10000 + (h - 0xd800) * 0x400 + (l - 0xdc00)) :: ·)
    else none
  | .half _ :: _ => none

/-- A string after its opening quote, and what follows its closing quote. -/
def readString (cs : List Char) : Option (Option String × List Char) :=
  (readUnits cs).map fun (us, rest) => ((joinUnits us).map String.ofList, rest)

/-- A number: no leading zeros, and digits on both sides of a point. -/
def readNumber (cs : List Char) : Option (Document × List Char) := do
  let (negative, rest) := match cs with
    | '-' :: rest => (true, rest)
    | _ => (false, cs)
  let (whole, rest) := takeDigits rest
  if whole.isEmpty || (whole.head? == some '0' && whole.length != 1) then none
  let (fraction, rest, pointed) ← match rest with
    | '.' :: more =>
      let (ds, after) := takeDigits more
      if ds.isEmpty then none else some (ds, after, true)
    | _ => some ([], rest, false)
  match rest with
  | c :: _ =>
    if c = 'e' ∨ c = 'E' then
      let (e, after) ← takeExponent? rest
      some (.number ⟨negative, whole, fraction, e⟩ false, after)
    else some (.number ⟨negative, whole, fraction, 0⟩ !pointed, rest)
  | [] => some (.number ⟨negative, whole, fraction, 0⟩ !pointed, rest)

/-! ## The grammar -/

mutual

/-- One value at the front of a text; `fuel` bounds the steps, and the length of the text is enough. -/
def readValue (fuel : Nat) (cs : List Char) : Option (Document × List Char) :=
  match fuel with
  | 0 => none
  | fuel + 1 =>
    match skipGap cs with
    | 'n' :: 'u' :: 'l' :: 'l' :: rest => some (.null, rest)
    | 't' :: 'r' :: 'u' :: 'e' :: rest => some (.bool true, rest)
    | 'f' :: 'a' :: 'l' :: 's' :: 'e' :: rest => some (.bool false, rest)
    | '"' :: rest => (readString rest).map fun (s, r) => (.string s, r)
    | '[' :: rest =>
      match skipGap rest with
      | ']' :: rest => some (.array [], rest)
      | _ => (readItems fuel rest).map fun (items, r) => (.array items, r)
    | '\x7b' :: rest =>
      match skipGap rest with
      | '\x7d' :: rest => some (.object [], rest)
      | _ => (readMembers fuel rest).map fun (members, r) => (.object members, r)
    | rest => readNumber rest

/-- The items of an array that is not empty, up to its closing bracket. -/
def readItems (fuel : Nat) (cs : List Char) : Option (List Document × List Char) :=
  match fuel with
  | 0 => none
  | fuel + 1 =>
    match readValue fuel cs with
    | none => none
    | some (v, rest) =>
      match skipGap rest with
      | ',' :: rest => (readItems fuel rest).map fun (vs, r) => (v :: vs, r)
      | ']' :: rest => some ([v], rest)
      | _ => none

/-- The members of an object that is not empty, up to its closing brace. -/
def readMembers (fuel : Nat) (cs : List Char) : Option (List (Option String × Document) × List Char) :=
  match fuel with
  | 0 => none
  | fuel + 1 =>
    match skipGap cs with
    | '"' :: rest =>
      match readString rest with
      | none => none
      | some (key, rest) =>
        match skipGap rest with
        | ':' :: rest =>
          match readValue fuel rest with
          | none => none
          | some (v, rest) =>
            match skipGap rest with
            | ',' :: rest => (readMembers fuel rest).map fun (ms, r) => ((key, v) :: ms, r)
            | '\x7d' :: rest => some ([(key, v)], rest)
            | _ => none
        | _ => none
    | _ => none

end

/-- The document that a whole text is. -/
def Document.ofText? (text : String) : Option Document :=
  let cs := text.toList
  match readValue (cs.length + 1) cs with
  | some (d, rest) => if (skipGap rest).isEmpty then some d else none
  | none => none

/-! ## Values -/

/-- The value of a number: whole numbers that fit 64 bits stay whole, `-0` and all others are
double-precision, and what rounds to infinity has none. -/
def numberValue? (n : Numeral) (plain : Bool) : Option Json :=
  let whole := n.toInt
  if plain && !(n.negative && whole == 0) && minInt ≤ whole && whole < wordLimit then some (.int whole)
  else
    let x := n.toBinary64
    if x.isFinite then some (.real x) else none

mutual

/-- The value of a document, with at most `depth` nested brackets. -/
def Document.toJson? (depth : Nat) : Document → Option Json
  | .null => some .null
  | .bool b => some (.bool b)
  | .number n plain => numberValue? n plain
  | .string s => s.map .str
  | .array items => if depth = 0 then none else (itemsToJson? (depth - 1) items).map .arr
  | .object ms => if depth = 0 then none else (membersToJson? (depth - 1) ms).map .object

/-- The values of the items of an array. -/
def itemsToJson? (depth : Nat) : List Document → Option (List Json)
  | [] => some []
  | d :: ds =>
    match d.toJson? depth with
    | some v => (itemsToJson? depth ds).map (v :: ·)
    | none => none

/-- The values of the members of an object. -/
def membersToJson? (depth : Nat) : List (Option String × Document) → Option (List (String × Json))
  | [] => some []
  | (some k, d) :: ds =>
    match d.toJson? depth with
    | some v => (membersToJson? depth ds).map ((k, v) :: ·)
    | none => none
  | (none, _) :: _ => none

end

/-- The depth of brackets that a text may have. -/
def depthLimit : Nat := 127

/-- The value that a whole text is. -/
def ofText? (text : String) : Option Json := (Document.ofText? text).bind (·.toJson? depthLimit)

end GuardedConfig.Json
