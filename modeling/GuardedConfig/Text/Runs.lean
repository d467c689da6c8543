import GuardedConfig.Text.Split

/-!
# `Text.Runs` — tables over the code points

A character property is a function of the code point that is constant on long stretches. `Runs` keeps the
start of each stretch with its tag and finds the stretch of a code point by bisection. The tables are written
as text, `<length in hexadecimal><tag>` for tagged stretches and `<gap> <length>` pairs for plain sets, and
`Runs.ofTagged` and `Runs.ofGaps` read them.

## Contents

* `Runs`, `Runs.find?` — the table and its lookup
* `readHex`, `Runs.ofTagged`, `Runs.ofGaps` — reading the written tables
-/

namespace GuardedConfig.Text

/-- Consecutive stretches of code points: where each one starts, in increasing order, and its tag. -/
structure Runs (α : Type) where
  starts : Array (Nat × α)

namespace Runs

variable {α : Type}

/-- The index of the last stretch in `[lo, hi)` that starts at or before `n`, if `lo` is one. -/
def bisect (starts : Array (Nat × α)) (n lo hi : Nat) : Nat :=
  if hi ≤ lo + 1 then lo
  else
    let mid := (lo + hi) / 2
    match starts[mid]? with
    | some (start, _) => if start ≤ n then bisect starts n mid hi else bisect starts n lo mid
    | none => lo
termination_by hi - lo
decreasing_by all_goals omega

/-- The tag of the stretch that holds the code point `n`. -/
def find? (r : Runs α) (n : Nat) : Option α :=
  match r.starts[bisect r.starts n 0 r.starts.size]? with
  | some (start, tag) => if start ≤ n then some tag else none
  | none => none

end Runs

/-! ## Reading written tables -/

/-- The value of a lower-case hexadecimal digit. -/
def hexDigit? (c : Char) : Option Nat :=
  if '0' ≤ c ∧ c ≤ '9' then some (c.toNat - 48)
  else if 'a' ≤ c ∧ c ≤ 'f' then some (c.toNat - 87)
  else none

/-- Reads the hexadecimal digits at the front, on top of `acc`, and returns what follows them. -/
def readHex (acc : Nat) : List Char → Nat × List Char
  | [] => (acc, [])
  | c :: cs =>
    match hexDigit? c with
    | some d => readHex (16 * acc + d) cs
    | none => (acc, c :: cs)

/-- The pieces between spaces and line breaks. -/
def pieces (text : String) : List (List Char) := wordsWith (fun c => c == ' ' || c == '\n') text.toList

namespace Runs

/-- Reads `<length><tag>` pieces: adjoining stretches that begin at code point 0. -/
def ofTagged (text : String) : Runs String :=
  let step := fun (acc : Array (Nat × String) × Nat) (piece : List Char) =>
    let (length, tag) := readHex 0 piece
    (acc.1.push (acc.2, String.ofList tag), acc.2 + length)
  ⟨((pieces text).foldl step (#[], 0)).1⟩

/-- Reads `<gap> <length>` pairs: the set made of stretches, each after its gap. -/
def ofGaps (text : String) : Runs Bool :=
  let rec go (acc : Array (Nat × Bool)) (position : Nat) : List Nat → Array (Nat × Bool)
    | gap :: length :: rest =>
      go ((acc.push (position + gap, true)).push (position + gap + length, false))
        (position + gap + length) rest
    | _ => acc
  ⟨go #[(0, false)] 0 ((pieces text).map fun p => (readHex 0 p).1)⟩

/-- Membership in a set of stretches. -/
def contains (r : Runs Bool) (n : Nat) : Bool := r.find? n == some true

end Runs

end GuardedConfig.Text
