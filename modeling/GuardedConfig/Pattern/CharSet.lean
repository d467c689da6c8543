import GuardedConfig.Text.Case
import GuardedConfig.Text.Script
import GuardedConfig.Text.Word

/-!
# `Pattern.CharSet` — sets of characters

The sets that classes in patterns denote, as expressions: ranges and the classes of Unicode, combined by the
operations on sets. `CharSet.named?` finds the sets that patterns call by a property name.

## Contents

* `CharSet`, `CharSet.contains`, `CharSet.isAscii`
* `CharSet.ofRanges`, `CharSet.all`, `CharSet.char`
* `asciiClass?` — the classes written `[:alpha:]`
* `CharSet.named?` — the classes written `\p{Greek}`
-/

namespace GuardedConfig.Pattern

open Text

/-- A set of characters. -/
inductive CharSet where
  | none
  | range (first last : Char)
  | digit
  | word
  | blank
  | alphabetic
  | upper
  | lower
  | category (letters : String)
  | script (code : String)
  | negate (s : CharSet)
  | union (a b : CharSet)
  | inter (a b : CharSet)
  /-- With every member all characters that are equal to it up to case. -/
  | folded (s : CharSet)
  /-- The same for ASCII letters only. -/
  | foldedAscii (s : CharSet)
deriving DecidableEq, Repr, Inhabited

namespace CharSet

/-- Membership. -/
def contains : CharSet → Char → Bool
  | none, _ => false
  | range first last, c => first ≤ c && c ≤ last
  | digit, c => isDigit c
  | word, c => isWord c
  | blank, c => isBlank c
  | alphabetic, c => isAlphabetic c
  | upper, c => isUpper c
  | lower, c => isLower c
  | category letters, c => inCategory letters c
  | script code, c => Text.script c == code
  | negate s, c => !s.contains c
  | union a b, c => a.contains c || b.contains c
  | inter a b, c => a.contains c && b.contains c
  | folded s, c => (caseOrbit c).any fun d => s.contains d
  | foldedAscii s, c => s.contains c || s.contains c.toLower || s.contains c.toUpper

/-- One character. -/
def char (c : Char) : CharSet := range c c

/-- The members of the first set that are not in the second. -/
def diff (a b : CharSet) : CharSet := inter a (negate b)

/-- The members of exactly one of two sets. -/
def symmDiff (a b : CharSet) : CharSet := union (diff a b) (diff b a)

/-- All characters. -/
def all : CharSet := negate none

/-- The union of ranges. -/
def ofRanges : List (Char × Char) → CharSet
  | [] => none
  | (first, last) :: rest => union (range first last) (ofRanges rest)

@[simp] theorem contains_diff (a b : CharSet) (c : Char) :
    (diff a b).contains c = (a.contains c && !b.contains c) := rfl

theorem contains_symmDiff (a b : CharSet) (c : Char) :
    (symmDiff a b).contains c = (a.contains c != b.contains c) := by
  cases ha : a.contains c <;> cases hb : b.contains c <;> simp [symmDiff, contains, ha, hb]

@[simp] theorem contains_all (c : Char) : all.contains c = true := rfl

/-- Whether none of the codes from 128 to 255 is a member. -/
def isAscii (s : CharSet) : Bool := (List.range 128).all fun n => !s.contains (Char.ofNat (128 + n))

end CharSet

/-- The classes of ASCII characters with a name. -/
def asciiClasses : List (String × List (Char × Char)) :=
  [("alnum", [('0', '9'), ('A', 'Z'), ('a', 'z')]),
   ("alpha", [('A', 'Z'), ('a', 'z')]),
   ("ascii", [('\x00', '\x7f')]),
   ("blank", [('\t', '\t'), (' ', ' ')]),
   ("cntrl", [('\x00', '\x1f'), ('\x7f', '\x7f')]),
   ("digit", [('0', '9')]),
   ("graph", [('!', '~')]),
   ("lower", [('a', 'z')]),
   ("print", [(' ', '~')]),
   ("punct", [('!', '/'), (':', '@'), ('[', Char.ofNat 96), ('\x7b', '~')]),
   ("space", [('\t', '\r'), (' ', ' ')]),
   ("upper", [('A', 'Z')]),
   ("word", [('0', '9'), ('A', 'Z'), ('_', '_'), ('a', 'z')]),
   ("xdigit", [('0', '9'), ('A', 'F'), ('a', 'f')])]

/-- The class of ASCII characters with a name. -/
def asciiClass? (name : String) : Option CharSet :=
  (asciiClasses.find? (·.1 == name)).map fun (_, ranges) => .ofRanges ranges

/-! ## Properties -/

/-- A property name in comparable form: ASCII only, lower case, without blanks, underscores, hyphens and a
leading `is`. -/
def plainName (name : String) : String :=
  let cs := name.toList
  let cs := if (cs.take 2).map Char.toLower = ['i', 's'] then cs.drop 2 else cs
  String.ofList ((cs.filter fun c => c != ' ' && c != '_' && c != '-' && c.toNat < 128).map Char.toLower)

/-- Hexadecimal digits of ASCII. -/
def hexDigits : List (Char × Char) := [('0', '9'), ('A', 'F'), ('a', 'f')]

/-- Properties that a character has or has not, by their plain names. -/
def binaryProperties : List (String × CharSet) :=
  let whole := CharSet.ofRanges
    (hexDigits ++ [('\uff10', '\uff19'), ('\uff21', '\uff26'), ('\uff41', '\uff46')])
  [("alphabetic", .alphabetic), ("alpha", .alphabetic),
   ("uppercase", .upper), ("upper", .upper), ("lowercase", .lower), ("lower", .lower),
   ("whitespace", .blank), ("wspace", .blank), ("space", .blank),
   ("asciihexdigit", .ofRanges hexDigits), ("ahex", .ofRanges hexDigits),
   ("hexdigit", whole), ("hex", whole)]

/-- The general categories and their groups, by their plain names. -/
def generalCategory? (name : String) : Option CharSet :=
  if name = "any" then some .all
  else if name = "ascii" then some (.range '\x00' '\x7f')
  else if name = "assigned" then some (.negate (.category "Cn"))
  else
    match categoryNamed? name with
    | some "Cs" => none
    | some letters => some (.category letters)
    | none => none

/-- The scripts, by their plain names. -/
def scriptSet? (name : String) : Option CharSet := (scriptNamed? name).map .script

/-- The set with a property name. -/
def CharSet.named? (name : String) : Option CharSet :=
  let plain := plainName name
  ((binaryProperties.find? (·.1 == plain)).map (·.2)).or
    ((generalCategory? plain).or (scriptSet? plain))

/-- The set of the characters for which a property has a value. -/
def CharSet.valued? (property value : String) : Option CharSet :=
  let plain := plainName value
  if ["gc", "generalcategory", "category"].contains (plainName property) then generalCategory? plain
  else if ["sc", "script", "scx", "scriptextensions"].contains (plainName property) then scriptSet? plain
  else Option.none

end GuardedConfig.Pattern
