import GuardedConfig.Decimal.Numeral
import GuardedConfig.Json.Print
import GuardedConfig.Schema.Fault
import GuardedConfig.Schema.Naming
import GuardedConfig.Text.Trim

/-!
# `Field.Argument` — the arguments of templates

A template declares a placeholder, its type and a default, as `placeholder:TYPE=default`. An argument is read
by the declared type into a literal, which replaces the placeholder in the body, and a suffix, which names the
instantiation. Both are canonical: `3`, ` 3 ` and `03` give the same literal.

## Contents

* `Argument`, `coerce` — reading an argument by its type
* `ArgumentRule`, `ArgumentRule.parse` — the rule of a template
* `substitute` — replacing whole words
-/

namespace GuardedConfig.Field

open Text Schema Decimal

/-! ## Arguments -/

/-- An argument: the literal that stands for the placeholder, and the suffix of the table name. -/
structure Argument where
  literal : String
  suffix : String
deriving DecidableEq, Repr, Inhabited

/-- Reals in arguments are positional from one ten-thousandth up to sixteen digits before the point; an
exponent has no plus sign. -/
def argumentPlaces : Places := ⟨-4, 15, "", 1, false⟩

/-- A real as an argument literal. -/
def argumentReal (x : Binary64) : String := argumentPlaces.writeSigned (shortest .up) x

/-- The suffix of a number: `m` for a minus sign and `p` for a point. -/
def numberSuffix (literal : String) : String := replaceChar '.' 'p' (replaceChar '-' 'm' literal)

/-- Reads an argument by its declared type, which may be written in any case. -/
def coerce (declared raw : String) : Except Fault Argument :=
  let raw := trim raw
  match Builtin.ofName? (toUpper declared) with
  | some .integer =>
    match readInt? raw.toList with
    | some n => .ok ⟨Json.intText n, numberSuffix (Json.intText n)⟩
    | none => .error (.invalidArgument raw declared)
  | some .real =>
    match readReal? raw.toList with
    | some x =>
      if x.isFinite then .ok ⟨argumentReal x, numberSuffix (argumentReal x)⟩
      else .error (.invalidArgument raw declared)
    | none => .error (.invalidArgument raw declared)
  | some .text =>
    let inner := trimWith (fun c => c == '\'' || c == '"') raw.toList
    if inner.isEmpty || !inner.all (fun c => isAsciiLetter c || isAsciiDigit c || c == '_') then
      .error (.invalidArgument raw declared)
    else .ok ⟨"'" ++ String.ofList inner ++ "'", String.ofList inner⟩
  | _ => .error (.argumentType declared)

/-! ## Rules -/

/-- The rule of a template: its placeholder, the type of arguments, and the default. -/
structure ArgumentRule where
  placeholder : String
  type : String
  default : Argument
deriving DecidableEq, Repr, Inhabited

/-- A word with blanks around it, followed by `mark`: the word and what follows the mark. -/
def takeWord? (mark : Char) (cs : List Char) : Option (String × List Char) :=
  let start := cs.dropWhile isBlank
  let word := start.takeWhile isWord
  match (start.dropWhile isWord).dropWhile isBlank with
  | c :: rest => if c = mark ∧ !word.isEmpty then some (String.ofList word, rest) else none
  | [] => none

/-- The default of a rule: text on one line with blanks around it. A default of blanks alone is empty, but line
breaks alone are no default. -/
def takeDefault? (cs : List Char) : Option String :=
  let inner := trimWith isBlank cs
  if inner.isEmpty then if cs.any (· != '\n') then some "" else none
  else if inner.contains '\n' then none
  else some (String.ofList inner)

/-- Reads a rule. -/
def ArgumentRule.parse (rule : String) : Except Fault ArgumentRule :=
  let parts := do
    let (placeholder, rest) ← takeWord? ':' rule.toList
    let (type, rest) ← takeWord? '=' rest
    let default ← takeDefault? rest
    some (placeholder, type, default)
  match parts with
  | none => .error (.malformedRule rule)
  | some (placeholder, type, raw) =>
    match coerce (toUpper type) raw with
    | .ok default => .ok ⟨placeholder, toUpper type, default⟩
    | .error e => .error e

/-! ## Substitution -/

/-- A maximal run of word characters, given last character first: the literal if it is the placeholder. -/
def replaceRun (placeholder literal run : List Char) : List Char :=
  if run.reverse = placeholder then literal else run.reverse

/-- Replaces runs of word characters that are the placeholder; `run` is the run being read. -/
def substituteFrom (placeholder literal run : List Char) : List Char → List Char
  | [] => replaceRun placeholder literal run
  | c :: cs =>
    if isWord c then substituteFrom placeholder literal (c :: run) cs
    else replaceRun placeholder literal run ++ c :: substituteFrom placeholder literal [] cs

/-- The body with every whole word that is the placeholder replaced by the literal. -/
def substitute (placeholder literal body : String) : String :=
  String.ofList (substituteFrom placeholder.toList literal.toList [] body.toList)

end GuardedConfig.Field
