import GuardedConfig.Text.Case
import GuardedConfig.Text.Word

/-!
# `Log` — which lines are logged

A filter is a list of directives with commas between them. A directive is a level, or the beginning of a target
with the level for it; of the directives that fit a target the one with the longest beginning decides. Directives
that cannot be read are left out, and a filter without directives logs errors.

## Contents

* `Log.Level`, `Log.Directive`, `Log.Filter`
* `Log.Filter.ofText`, `Log.Filter.logs`
-/

namespace GuardedConfig.Log

open Text

/-- How much is logged. -/
inductive Level where
  | off | error | warn | info | debug | trace
deriving DecidableEq, Repr, Inhabited

namespace Level

/-- All levels, from the one that logs least. -/
def all : List Level := [off, error, warn, info, debug, trace]

/-- The name of a level. -/
def name : Level → String
  | off => "off"
  | error => "error"
  | warn => "warn"
  | info => "info"
  | debug => "debug"
  | trace => "trace"

/-- The place of a level. -/
def rank : Level → Nat
  | off => 0
  | error => 1
  | warn => 2
  | info => 3
  | debug => 4
  | trace => 5

/-- The level with a name, in any case, or with a number. -/
def ofText? (text : String) : Option Level :=
  all.find? fun l => equalsIgnoringAsciiCase l.name text || toString l.rank == text

end Level

/-- The level for all targets that begin with a text. -/
structure Directive where
  target : String
  level : Level
deriving DecidableEq, Repr, Inhabited

/-- Whether a directive is about a target. -/
def Directive.fits (d : Directive) (target : String) : Bool := d.target.toList.isPrefixOf target.toList

/-- The directive that a text is. A target without a level logs everything. -/
def Directive.ofText? (text : String) : Option Directive :=
  match Level.ofText? text with
  | some level => some ⟨"", level⟩
  | none =>
    let (target, level) := match cutAt? ['='] text.toList with
      | some (target, level) => (target, String.ofList level)
      | none => (text.toList, "")
    if target.isEmpty || !target.all (fun c => isWord c || c == ':' || c == '-') then none
    else if level.isEmpty then some ⟨String.ofList target, .trace⟩
    else (Level.ofText? level).map fun level => ⟨String.ofList target, level⟩

/-- The directives of a filter. -/
abbrev Filter := List Directive

namespace Filter

/-- The filter that a text is. -/
def ofText (text : String) : Filter :=
  match (splitChar ',' text.toList).filterMap fun part => Directive.ofText? (String.ofList part) with
  | [] => [⟨"", .error⟩]
  | directives => directives

/-- The directive that decides about a target: the longest one that fits, the last one of equal ones. -/
def decisive (f : Filter) (target : String) : Option Directive :=
  f.foldl (fun best d =>
    if !d.fits target then best
    else
      match best with
      | some b => if d.target.length < b.target.length then best else some d
      | none => some d) none

/-- Whether a line of a level is logged for a target. -/
def logs (f : Filter) (target : String) (level : Level) : Bool :=
  match f.decisive target with
  | some d => level.rank ≤ d.level.rank
  | none => false

end Filter

end GuardedConfig.Log
