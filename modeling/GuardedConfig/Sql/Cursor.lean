import GuardedConfig.Sql.Lexeme

/-!
# `Sql.Cursor` — taking tokens from the front of a statement

A step of reading takes tokens, or fails at the first token that does not fit. Parameters are numbered while
they are read.

## Contents

* `Cursor`, `Reading`
* `unexpected` — the fault at the next token
* `peek?`, `skipWord`, `skipSign`, `expectWord`, `expectSign`, `expectName`, `expectPlainName`
* `numberParameter`
-/

namespace GuardedConfig.Sql

open Text Decimal

/-- The tokens that are left, the names of the parameters so far, and the highest number of a parameter. -/
structure Cursor where
  rest : List Lexeme
  names : List (String × Nat) := []
  highest : Nat := 0
deriving Repr, Inhabited

/-- A step of reading. -/
abbrev Reading (α : Type) := StateT Cursor (Except Fault) α

/-- The fault of a text that goes on with these tokens. -/
def faultAt : List Lexeme → Fault
  | [] => .incomplete
  | l :: _ => if l.kind = .illegal then .unrecognized l.written else .syntaxNear l.written

/-- Fails at the next token. -/
def unexpected {α : Type} : Reading α := do throw (faultAt (← get).rest)

/-- The next token, which stays. -/
def peek? : Reading (Option Lexeme) := do return (← get).rest.head?

/-- Drops the next token. -/
def advance : Reading Unit := modify fun c => { c with rest := c.rest.drop 1 }

/-- Whether tokens begin with these keywords. -/
def beginWith : List String → List Lexeme → Bool
  | [], _ => true
  | w :: ws, l :: ls => l.isWord w && beginWith ws ls
  | _, [] => false

/-- Takes a keyword, if it is next. -/
def skipWord (word : String) : Reading Bool := do
  if ((← peek?).map (·.isWord word)).getD false then
    advance
    return true
  return false

/-- Takes several keywords, if they are next. -/
def skipWords (words : List String) : Reading Bool := do
  if beginWith words (← get).rest then
    modify fun c => { c with rest := c.rest.drop words.length }
    return true
  return false

/-- Takes a sign, if it is next. -/
def skipSign (sign : String) : Reading Bool := do
  if ((← peek?).map (·.isSign sign)).getD false then
    advance
    return true
  return false

/-- Takes a keyword. -/
def expectWord (word : String) : Reading Unit := do if !(← skipWord word) then unexpected

/-- Takes a sign. -/
def expectSign (sign : String) : Reading Unit := do if !(← skipSign sign) then unexpected

/-- Takes a name. -/
def expectName : Reading String := do
  match (← peek?).bind (·.name?) with
  | some name =>
    advance
    return name
  | none => unexpected

/-- Takes a name that is no joining word. -/
def expectPlainName : Reading String := do
  match (← peek?).bind (·.plainName?) with
  | some name =>
    advance
    return name
  | none => unexpected

/-- Takes names with commas between them, at most `fuel` of them. -/
def expectNames (fuel : Nat) : Reading (List String) := do
  match fuel with
  | 0 => unexpected
  | fuel + 1 =>
    let name ← expectName
    if ← skipSign "," then return name :: (← expectNames fuel)
    return [name]

/-- Names with commas between them in parentheses. -/
def expectNameList : Reading (List String) := do
  expectSign "("
  let names ← expectNames (← get).rest.length
  expectSign ")"
  return names

/-- The number of the parameter that a token stands for: a bare one gets the next number, and a name always
the same. -/
def numberParameter (l : Lexeme) : Reading Nat := do
  let c ← get
  let digits := l.text.drop 1
  if l.text.head? = some '?' ∧ !digits.isEmpty then
    let n := natOf digits
    set { c with highest := max c.highest n }
    return n
  else if l.text.head? = some '?' then
    set { c with highest := c.highest + 1 }
    return c.highest + 1
  else
    match c.names.lookup l.written with
    | some n => return n
    | none =>
      set { c with names := (l.written, c.highest + 1) :: c.names, highest := c.highest + 1 }
      return c.highest + 1

/-- The tokens that a step takes, besides its result. -/
def withTokens {α : Type} (step : Reading α) : Reading (α × List Lexeme) := do
  let before := (← get).rest
  let a ← step
  let after := (← get).rest
  return (a, before.take (before.length - after.length))

/-- Tokens as they were written, without what stands before the first one. -/
def textOf : List Lexeme → String
  | [] => ""
  | l :: ls => String.ofList (l.text ++ ls.flatMap fun l => l.gap ++ l.text)

end GuardedConfig.Sql
