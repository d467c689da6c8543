import GuardedConfig.Plan.Steps
import GuardedConfig.Store
import GuardedConfig.Trigger.Syntax

/-!
# `Plan` — how a field is written and read

A plan belongs to one field. Binding a value makes the steps that write it; executing runs these steps as one
transaction and then lets every trigger of the field refuse the result. If a step fails or a trigger refuses, all
is undone.

## Contents

* `Plan`, `Plan.bind`, `Plan.attach`
* `runWrites`, `Plan.execute`
* `Plan.view`, `readRows`
-/

namespace GuardedConfig

open Schema

/-- The plan of a field: the steps for the value that was bound last, and the triggers of the field. -/
structure Plan where
  slot : Slot
  writes : List Plan.WriteStep := []
  reads : List Plan.Command := []
  bound : Bool := false
  triggers : List Trigger := []
deriving Repr

namespace Plan

/-- The path of the field. -/
def path (p : Plan) : String := p.slot.path

/-- The plan with one more trigger. -/
def attach (p : Plan) (t : Trigger) : Plan := { p with triggers := p.triggers ++ [t] }

/-- The plan with the steps for a value; a value that does not fit leaves the plan without steps. -/
def bind (p : Plan) (value : Json) : Except Error Unit × Plan :=
  match writeSteps p.path p.slot.storage value with
  | .ok writes => (.ok (), { p with writes, reads := [readCommand p.slot.storage], bound := true })
  | .error f => (.error (.binding f), { p with writes := [], reads := [], bound := false })

/-! ## Running steps -/

/-- The values of the parameters, given the row identifier that was captured last. -/
def resolve (captured : Option Int) (c : Command) : Except Error (List Sql.Value) :=
  c.params.mapM fun
    | .value v => .ok v
    | .capturedRowId =>
      match captured with
      | some id => .ok (.integer id)
      | none => .error (.binding (.noRowId c.statement.text))

/-- Runs the steps of a write, where `captured` is the row identifier that was captured last. -/
def runWrites (captured : Option Int) : List WriteStep → Task Store Unit
  | [] => return ()
  | .captureRowId :: steps => do runWrites (some (← get).lastRowId) steps
  | .execute c :: steps => do
    let params ← Task.ofExcept (resolve captured c)
    let _ ← Store.perform c.statement params
    runWrites captured steps

/-- Runs a step as a transaction: if it fails, all is undone. -/
def transact {σ : Type} [HasStore σ] (step : Task σ Unit) : Task σ Unit := do
  onStore Store.begin
  tryCatch step fun e => do
    onStore Store.rollback
    throw e
  onStore Store.commit

/-- Runs the steps of the bound value and then the triggers, as one transaction. -/
def execute {σ : Type} [HasStore σ] (p : Plan) (evaluate : Trigger → Task σ Unit) : Task σ Unit := do
  if !p.bound then throw (.binding (.notBound p.path "executed"))
  transact do
    onStore (runWrites none p.writes)
    p.triggers.forM evaluate

/-! ## Reading -/

/-- The rows of a query without parameters. -/
def readRows (c : Command) : Task Store (List Json) := do
  return Store.rowsOf (← Store.perform c.statement [])

/-- The current rows, once a value has been bound. -/
def view (p : Plan) : Task Store (List Json) := do
  if !p.bound then throw (.binding (.notBound p.path "viewed"))
  return (← p.reads.mapM readRows).flatten

end Plan

end GuardedConfig
