import GuardedConfig.Error
import GuardedConfig.Trigger.Value

/-!
# `Trigger.Run` — running a trigger

A program runs against a host, which answers `GET` and performs `SET`. Variables are shared by the whole body: a
binding in a block stays visible after it. A trigger passes unless it ends with `false` or with a string, which
says what is wrong; any fault ends it at once. A field that the host does not know becomes a fault that names
the trigger which asked for it.

## Contents

* `Host`
* `call` — the capabilities
* `eval`, `execute` — expressions and statements
* `Trigger.run`
-/

namespace GuardedConfig

namespace Trigger

/-- What a trigger can reach, as operations on the state of a host. -/
structure Host (σ : Type) where
  /-- The current rows of a field. -/
  get : String → σ → Except Error Json × σ
  /-- Writes a field. -/
  set : String → Json → σ → Except Error Unit × σ
  /-- Reports a warning of a trigger. -/
  warn : String → String → σ → σ

/-- The variables, newest binding first. -/
abbrev Variables := List (String × Json)

variable {σ : Type}

/-- A fault of the trigger with a name. -/
def refuse {α : Type} (trigger reason : String) : Task σ α := throw (.trigger trigger reason)

/-- A result that fails with a reason, as a step of a trigger. -/
def ofResult (trigger : String) : Except String Json → Task σ Json
  | .ok v => pure v
  | .error reason => refuse trigger reason

/-- An error of the host, seen from the trigger that caused it. -/
def lookupError (trigger : String) : Error → Error
  | .unknownField path => .fieldLookup trigger path
  | e => e

/-- A step of the host. -/
def onHost {α : Type} (trigger : String) (step : σ → Except Error α × σ) : Task σ α :=
  ExceptT.mk fun s =>
    match step s with
    | (.ok a, s) => (.ok a, s)
    | (.error e, s) => (.error (lookupError trigger e), s)

/-- The path that a value is. -/
def pathOf (trigger : String) : Json → Task σ String
  | .str path => pure path
  | v => refuse trigger (v.compact ++ " is not a field path")

/-- Calls a capability with values; a missing argument is null. -/
def call (host : Host σ) (trigger : String) (c : Capability) (arguments : List Json) : Task σ Json :=
  let first := arguments.headD .null
  let second := arguments.tail.headD .null
  match c with
  | .get => do
    let path ← pathOf trigger first
    onHost trigger (host.get path)
  | .set => do
    let path ← pathOf trigger first
    onHost trigger (host.set path second)
    return .null
  | .err => refuse trigger first.messageText
  | .warn => do
    modify (host.warn trigger first.messageText)
    return .null
  | .assertRegex => ofResult trigger (matchResult first second)
  | .assertEqual => return .bool (equal first second)
  | .assertUnique => ofResult trigger (uniqueResult first second)

mutual

/-- The value of an expression; operands and arguments are evaluated from left to right. -/
def eval (host : Host σ) (trigger : String) (vars : Variables) : Expr → Task σ Json
  | .literal v => pure v
  | .var name =>
    match vars.lookup name with
    | some v => pure v
    | none => refuse trigger ("'" ++ name ++ "' is not defined")
  | .not e => do
    let v ← eval host trigger vars e
    return .bool (!truthy v)
  | .compare left op right => do
    let a ← eval host trigger vars left
    let b ← eval host trigger vars right
    match holds op a b with
    | some b => return .bool b
    | none => refuse trigger ("cannot order " ++ a.compact ++ " and " ++ b.compact)
  | .index target index => do
    let t ← eval host trigger vars target
    let i ← eval host trigger vars index
    match elementAt? t i with
    | some v => return v
    | none => refuse trigger (t.compact ++ " has no element " ++ i.compact)
  | .member target name => do
    let t ← eval host trigger vars target
    match t.member? name with
    | some v => return v
    | none => refuse trigger (t.compact ++ " has no member '" ++ name ++ "'")
  | .call c arguments => do
    let values ← evalAll host trigger vars arguments
    call host trigger c values

/-- The values of expressions, from left to right. -/
def evalAll (host : Host σ) (trigger : String) (vars : Variables) : List Expr → Task σ (List Json)
  | [] => pure []
  | e :: es => do
    let v ← eval host trigger vars e
    let vs ← evalAll host trigger vars es
    return v :: vs

end

/-- How a list of statements ends: with the variables at its end, or with a value that ends the whole body. -/
inductive Flow where
  | next (vars : Variables)
  | done (value : Json)

mutual

/-- Executes one statement. -/
def execute (host : Host σ) (trigger : String) (vars : Variables) : Stmt → Task σ Flow
  | .bind name e => do
    let v ← eval host trigger vars e
    return .next ((name, v) :: vars)
  | .branch condition yes no => do
    let v ← eval host trigger vars condition
    if truthy v then executeAll host trigger vars yes else executeAll host trigger vars no
  | .done none => return .done .null
  | .done (some e) => do
    let v ← eval host trigger vars e
    return .done v
  | .eval e => do
    let _ ← eval host trigger vars e
    return .next vars

/-- Executes statements in order, until one of them ends the body. -/
def executeAll (host : Host σ) (trigger : String) (vars : Variables) : List Stmt → Task σ Flow
  | [] => return .next vars
  | s :: ss => do
    match ← execute host trigger vars s with
    | .next vars => executeAll host trigger vars ss
    | .done v => return .done v

end

/-- The verdict of a body that ended: `false` and strings refuse the change. -/
def verdict (trigger : String) : Flow → Except Error Unit
  | .done (.bool false) => .error (.trigger trigger "returned false")
  | .done (.str reason) => .error (.trigger trigger reason)
  | _ => .ok ()

/-- Runs a trigger against a host. -/
def run (t : Trigger) (host : Host σ) (s : σ) : Except Error Unit × σ :=
  match (executeAll host t.name [] t.program).run s with
  | (.ok flow, s) => (verdict t.name flow, s)
  | (.error e, s) => (.error e, s)

end Trigger

end GuardedConfig
