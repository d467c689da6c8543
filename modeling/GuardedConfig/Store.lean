import GuardedConfig.Error
import GuardedConfig.Sql.Session

/-!
# `Store` — the stored content and its transactions

A store runs statements and keeps count of the transactions that are open. Transactions nest: each one is a
savepoint named after its depth, so that the newest savepoint always belongs to the newest transaction. A
transaction counts as ended before its savepoint is closed, whatever comes of that.

## Contents

* `Store`, `HasStore`, `onStore`
* `Store.perform`, `Store.execute`, `Store.query`, `Store.batch`
* `Store.begin`, `Store.commit`, `Store.rollback`
* `Store.rowsOf` — rows as JSON objects
-/

namespace GuardedConfig

/-- A store: the session, and the number of transactions that are open. -/
structure Store where
  session : Sql.Session := {}
  depth : Nat := 0
deriving Repr, Inhabited

namespace Store

/-- The store on a content. -/
def ofContent (c : Sql.Content) : Store := { session := { content := c } }

/-- The content. -/
def content (s : Store) : Sql.Content := s.session.content

/-- Whether a transaction is open. -/
def inTransaction (s : Store) : Bool := 0 < s.depth

/-- The identifier of the row that was inserted last. -/
def lastRowId (s : Store) : Int := s.session.lastRowId

/-! ## Statements -/

/-- A step of the session. -/
def onSession {α : Type} (f : Sql.Session → Except Sql.Fault α × Sql.Session) : Task Store α :=
  Task.of fun s =>
    match f s.session with
    | (.ok a, session) => (.ok a, { s with session })
    | (.error fault, session) => (.error (.store fault), { s with session })

/-- Runs a statement. -/
def perform (statement : Sql.Statement) (params : List Sql.Value) : Task Store Sql.Result :=
  onSession (·.perform statement params)

/-- Runs the only statement of a text, and gives the number of changed rows. -/
def execute (text : String) (params : List Sql.Value) : Task Store Nat := onSession (·.execute text params)

/-- The rows of the only statement of a text. -/
def query (text : String) (params : List Sql.Value) : Task Store Sql.Result := onSession (·.query text params)

/-- Runs all statements of a text until one fails. -/
def batch (text : String) : Task Store Unit := onSession (·.batch text)

/-! ## Transactions -/

/-- The savepoint of a transaction. -/
def savepointName (depth : Nat) : String := "canfig_" ++ toString depth

/-- Begins a transaction inside those that are open. -/
def begin : Task Store Unit :=
  modify fun s => { session := s.session.savepoint (savepointName (s.depth + 1)), depth := s.depth + 1 }

/-- Ends the newest transaction with a step on its savepoint. -/
def finish (close : String → Task Store Unit) : Task Store Unit := do
  let name := savepointName (← get).depth
  modify fun s => { s with depth := s.depth - 1 }
  close name

/-- Ends the newest transaction and keeps what it did. -/
def commit : Task Store Unit := finish fun name => onSession (·.release name)

/-- Ends the newest transaction and undoes what it did. -/
def rollback : Task Store Unit := finish fun name => do
  onSession (·.rollbackTo name)
  onSession (·.release name)

/-! ## Rows -/

/-- The rows of a result as JSON objects. -/
def rowsOf (r : Sql.Result) : List Json :=
  r.rows.map fun row => Json.object (r.names.zip (row.map Plan.ofStored))

end Store

/-! ## States with a store -/

/-- A state that contains a store. -/
class HasStore (σ : Type) where
  store : σ → Store
  withStore : Store → σ → σ

instance : HasStore Store := ⟨id, fun s _ => s⟩

/-- A step of the store inside a larger state. -/
def onStore {σ α : Type} [HasStore σ] (step : Task Store α) : Task σ α :=
  Task.of fun s =>
    let (r, store) := step.run.run (HasStore.store s)
    (r, HasStore.withStore store s)

end GuardedConfig
