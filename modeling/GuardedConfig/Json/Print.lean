import GuardedConfig.Json.Basic

/-!
# `Json.Print` — JSON as text

The compact text has no blanks; the indented text puts every item and member on a line of its own. Both escape
the quote, the backslash and the control characters below the space, and nothing else.

## Contents

* `Json.escape`, `Json.quoted` — strings
* `Json.realPlaces`, `Json.realText` — double-precision numbers
* `Json.compact` — the text without blanks
* `Json.indented` — the text over several lines
-/

namespace GuardedConfig.Json

open Decimal

/-! ## Scalars -/

/-- A hexadecimal digit, lower case. -/
def hexChar (d : Nat) : Char := if d < 10 then Char.ofNat (48 + d) else Char.ofNat (87 + d)

/-- The text of one character of a string. -/
def escapeChar (c : Char) : List Char :=
  if c = '"' then ['\\', '"']
  else if c = '\\' then ['\\', '\\']
  else if c.toNat = 8 then ['\\', 'b']
  else if c.toNat = 12 then ['\\', 'f']
  else if c.toNat = 10 then ['\\', 'n']
  else if c.toNat = 13 then ['\\', 'r']
  else if c.toNat = 9 then ['\\', 't']
  else if c.toNat < 32 then ['\\', 'u', '0', '0', hexChar (c.toNat / 16), hexChar (c.toNat % 16)]
  else [c]

/-- The text of the characters of a string. -/
def escape (cs : List Char) : List Char := cs.flatMap escapeChar

/-- A string between quotes. -/
def quoted (s : String) : String := String.ofList ('"' :: escape s.toList ++ ['"'])

/-- Numbers are positional while the first digit stands for a power of ten from -5 to 15; otherwise the
exponent carries its sign. -/
def realPlaces : Places := ⟨-5, 15, "+", 1, false⟩

/-- A double-precision number with the fewest digits that read back. -/
def realText (x : Binary64) : String := realPlaces.writeSigned (shortest .even) x

/-- A whole number. -/
def intText (n : Int) : String :=
  if n < 0 then "-" ++ digitText (digitsOf n.natAbs) else digitText (digitsOf n.natAbs)

/-! ## Compact text -/

mutual

/-- The text without blanks. -/
def compact : Json → String
  | null => "null"
  | bool b => if b then "true" else "false"
  | int n => intText n
  | real x => realText x
  | str s => quoted s
  | arr items => "[" ++ compactItems items ++ "]"
  | obj members => "\x7b" ++ compactMembers members ++ "\x7d"

/-- The items of an array with commas between them. -/
def compactItems : List Json → String
  | [] => ""
  | [v] => compact v
  | v :: vs => compact v ++ "," ++ compactItems vs

/-- The members of an object with commas between them. -/
def compactMembers : List (String × Json) → String
  | [] => ""
  | [(k, v)] => quoted k ++ ":" ++ compact v
  | (k, v) :: ms => quoted k ++ ":" ++ compact v ++ "," ++ compactMembers ms

end

/-! ## Indented text -/

/-- A line break followed by two spaces for every level. -/
def lineAt (level : Nat) : String := String.ofList ('\n' :: List.replicate (2 * level) ' ')

mutual

/-- The text over several lines, inside `level` brackets; empty arrays and objects stay closed. -/
def indentedAt (level : Nat) : Json → String
  | arr [] => "[]"
  | arr (v :: vs) => "[" ++ indentedItems (level + 1) (v :: vs) ++ lineAt level ++ "]"
  | obj [] => "\x7b\x7d"
  | obj (m :: ms) => "\x7b" ++ indentedMembers (level + 1) (m :: ms) ++ lineAt level ++ "\x7d"
  | null => "null"
  | bool b => if b then "true" else "false"
  | int n => intText n
  | real x => realText x
  | str s => quoted s

/-- The items of an array, each on a line of its own. -/
def indentedItems (level : Nat) : List Json → String
  | [] => ""
  | [v] => lineAt level ++ indentedAt level v
  | v :: vs => lineAt level ++ indentedAt level v ++ "," ++ indentedItems level vs

/-- The members of an object, each on a line of its own. -/
def indentedMembers (level : Nat) : List (String × Json) → String
  | [] => ""
  | [(k, v)] => lineAt level ++ quoted k ++ ": " ++ indentedAt level v
  | (k, v) :: ms => lineAt level ++ quoted k ++ ": " ++ indentedAt level v ++ "," ++ indentedMembers level ms

end

/-- The text over several lines. -/
def indented (v : Json) : String := indentedAt 0 v

/-- A value inside a message: a string stands for itself, anything else is printed. -/
def messageText : Json → String
  | str s => s
  | v => compact v

end GuardedConfig.Json
