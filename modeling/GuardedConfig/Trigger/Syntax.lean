import GuardedConfig.Json.Print

/-!
# `Trigger.Syntax` — the statement language of triggers

A trigger body is a list of statements over JSON values. It reaches nothing but the capabilities: it reads and
sets fields, refuses a change, warns, and asserts.

## Contents

* `Capability`, its `name` and how many arguments it takes
* `Comparison`, `Expr`, `Stmt`
* `Trigger.Fault` — why a body is no program
* `Trigger`
-/

namespace GuardedConfig

namespace Trigger

/-- What a trigger can call. -/
inductive Capability where
  | get
  | set
  | err
  | warn
  | assertRegex
  | assertEqual
  | assertUnique
deriving DecidableEq, Repr, Inhabited

namespace Capability

/-- All capabilities. -/
def all : List Capability := [get, set, err, warn, assertRegex, assertEqual, assertUnique]

/-- The written name of a capability. -/
def name : Capability → String
  | get => "GET"
  | set => "SET"
  | err => "CANFIG_ERR"
  | warn => "CANFIG_WARN"
  | assertRegex => "ASSERT_REGEX"
  | assertEqual => "ASSERT_EQUAL"
  | assertUnique => "ASSERT_UNIQUE"

/-- The capability with a name. -/
def ofName? (word : String) : Option Capability := all.find? (·.name == word)

theorem ofName?_name (c : Capability) : ofName? c.name = some c := by cases c <;> rfl

/-- The least number of arguments. -/
def least : Capability → Nat
  | get | err | warn | assertUnique => 1
  | set | assertRegex | assertEqual => 2

/-- The greatest number of arguments. -/
def most : Capability → Nat
  | get | err | warn => 1
  | set | assertRegex | assertEqual | assertUnique => 2

end Capability

/-- The comparisons. -/
inductive Comparison where
  | eq | ne | lt | le | gt | ge
deriving DecidableEq, Repr, Inhabited

/-- The sign of a comparison. -/
def Comparison.sign : Comparison → String
  | eq => "=="
  | ne => "!="
  | lt => "<"
  | le => "<="
  | gt => ">"
  | ge => ">="

/-- Expressions. -/
inductive Expr where
  | literal (value : Json)
  | var (name : String)
  | not (e : Expr)
  | compare (left : Expr) (op : Comparison) (right : Expr)
  | index (target index : Expr)
  | member (target : Expr) (name : String)
  | call (capability : Capability) (arguments : List Expr)
deriving Inhabited, Repr

/-- Statements. -/
inductive Stmt where
  | bind (name : String) (e : Expr)
  | branch (condition : Expr) (yes no : List Stmt)
  | done (e : Option Expr)
  | eval (e : Expr)
deriving Inhabited, Repr

/-- Why a text is no program: the grammar refuses it, a number is too large, or a capability has the wrong
number of arguments. -/
inductive Fault where
  | grammar
  | number (text : String)
  | arguments (capability : Capability) (got : Nat)
deriving DecidableEq, Repr

/-- The wording of a fault. -/
def Fault.message : Fault → String
  | grammar => "<syntax>"
  | number text => "invalid number " ++ text
  | arguments capability got =>
    capability.name ++ " takes " ++ toString capability.most ++ " argument(s), got " ++ toString got

end Trigger

/-- A trigger: its name, the config it watches and its program. -/
structure Trigger where
  name : String
  condition : String
  program : List Trigger.Stmt
deriving Inhabited, Repr

end GuardedConfig
