import GuardedConfig.Pattern.CharSet

/-!
# `Pattern.Basic` — patterns and where they match

A pattern denotes, for a text and a start position, the set of positions where a match can end. Only that is
asked here, so which of several matches is preferred does not matter. The ends are computed for a whole set of
starts at once, and a repetition visits every position at most once: no pattern takes more than polynomial time.

## Contents

* `Look`, `Look.holds` — conditions between two characters
* `Pattern`, `Pattern.ends`, `Pattern.isMatch`
* `Pattern.weight`, `Pattern.weightLimit` — an estimate of the room a pattern takes
-/

namespace GuardedConfig

namespace Pattern

open Text

/-! ## Conditions -/

/-- Conditions on the two characters around a position. -/
inductive Look where
  | textStart
  | textEnd
  /-- The start of a line; with `returns`, lines also end at carriage returns. -/
  | lineStart (returns : Bool)
  | lineEnd (returns : Bool)
  /-- Allowed pairs of "is a word character" before and after the position. -/
  | words (ascii : Bool) (allowed : List (Bool × Bool))
deriving DecidableEq, Repr, Inhabited

namespace Look

/-- A word begins or ends. -/
def boundary : List (Bool × Bool) := [(true, false), (false, true)]

/-- No word begins or ends. -/
def noBoundary : List (Bool × Bool) := [(true, true), (false, false)]

/-- A word begins. -/
def wordStart : List (Bool × Bool) := [(false, true)]

/-- A word ends. -/
def wordEnd : List (Bool × Bool) := [(true, false)]

/-- No word character stands before. -/
def noWordBefore : List (Bool × Bool) := [(false, true), (false, false)]

/-- No word character follows. -/
def noWordAfter : List (Bool × Bool) := [(true, false), (false, false)]

/-- Whether a condition holds between a character and the next one; at the ends of the text there is none. -/
def holdsBetween (l : Look) (before after : Option Char) : Bool :=
  match l with
  | textStart => before.isNone
  | textEnd => after.isNone
  | lineStart false => before.isNone || before == some '\n'
  | lineStart true =>
    before.isNone || before == some '\n' || (before == some '\r' && after != some '\n')
  | lineEnd false => after.isNone || after == some '\n'
  | lineEnd true =>
    after.isNone || after == some '\r' || (after == some '\n' && before != some '\r')
  | words ascii allowed =>
    let inWord := fun c => isWord c && (!ascii || c.toNat < 128)
    allowed.contains (before.any inWord, after.any inWord)

/-- Whether a condition holds at a position of a text. -/
def holds (l : Look) (text : Array Char) (position : Nat) : Bool :=
  l.holdsBetween (if position = 0 then none else text[position - 1]?) text[position]?

end Look

/-! ## Patterns -/

end Pattern

/-- A pattern. -/
inductive Pattern where
  | empty
  /-- One character of a set. -/
  | one (s : Pattern.CharSet)
  | look (l : Pattern.Look)
  | seq (first second : Pattern)
  | choice (left right : Pattern)
  /-- At least `least` and at most `most` times, without a bound if there is none. -/
  | repeated (body : Pattern) (least : Nat) (most : Option Nat)
deriving DecidableEq, Repr, Inhabited

namespace Pattern

/-! ## Matching -/

/-- The positions of both lists, those of the first one once each. -/
def merge (a b : List Nat) : List Nat := a ++ b.filter fun i => !a.contains i

/-- The positions that at most `rounds` steps reach, where `frontier` was reached by the last one. A step that
reaches nothing new ends the search. -/
def reach (step : List Nat → List Nat) : Nat → List Nat → List Nat → List Nat
  | 0, seen, _ => seen
  | rounds + 1, seen, frontier =>
    let fresh := (step frontier).filter fun i => !seen.contains i
    if fresh.isEmpty then seen else reach step rounds (seen ++ fresh) fresh

/-- `n` steps. -/
def steps (step : List Nat → List Nat) : Nat → List Nat → List Nat
  | 0, starts => starts
  | n + 1, starts => if starts.isEmpty then [] else steps step n (step starts)

/-- The positions where a match can end that begins at one of `starts`. -/
def ends (text : Array Char) : Pattern → List Nat → List Nat
  | empty, starts => starts
  | one s, starts => (starts.filter fun i => text[i]?.any s.contains).map (· + 1)
  | look l, starts => starts.filter (l.holds text)
  | seq first second, starts => ends text second (ends text first starts)
  | choice left right, starts => merge (ends text left starts) (ends text right starts)
  | repeated body least most, starts =>
    let step := fun is => ends text body is
    let begun := steps step least starts
    let rounds := match most with
      | some most => min (most - least) (text.size + 1)
      | none => text.size + 1
    reach step rounds begun begun

/-- Whether a pattern matches some part of a text. -/
def isMatch (p : Pattern) (text : String) : Bool :=
  let cs := text.toList.toArray
  !(p.ends cs (List.range (cs.size + 1))).isEmpty

/-! ## Size -/

/-- The bytes that a set of characters takes: the properties have many ranges. -/
def setWeight : CharSet → Nat
  | .none => 32
  | .range first last => if last.toNat < 128 then 32 else if first = last then 32 * first.utf8Size else 320
  | .digit => 4000
  | .blank => 600
  | .word | .alphabetic => 48000
  | .upper | .lower => 24000
  | .category _ => 20000
  | .script _ => 2000
  | .negate s | .folded s | .foldedAscii s => setWeight s + 320
  | .union a b => setWeight a + setWeight b
  | .inter a b => setWeight a + setWeight b

/-- An estimate of the bytes that a pattern takes with all its repetitions written out. -/
def weight : Pattern → Nat
  | empty => 32
  | one s => setWeight s
  | look _ => 32
  | seq a b => weight a + weight b
  | choice a b => weight a + weight b + 40
  | repeated body least most =>
    match most with
    | some most => least * weight body + (most - least) * (weight body + 40)
    | none => max 1 least * weight body + 40

/-- The largest weight that is allowed. -/
def weightLimit : Nat := 10 * 1024 * 1024

/-! ## Examples -/

/-- `(a|aa)+$` on `aaa`. -/
example :
    let a := one (.char 'a')
    (seq (repeated (choice a (seq a a)) 1 none) (look .textEnd)).ends #['a', 'a', 'a'] [0] = [3] := by
  decide

end Pattern

end GuardedConfig
