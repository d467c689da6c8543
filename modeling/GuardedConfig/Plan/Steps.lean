import GuardedConfig.Plan.Scalar
import GuardedConfig.Schema.Slot
import GuardedConfig.Sql.Print

/-!
# `Plan.Steps` — the statements that write and read a field

The steps of a field depend on its storage and on the value alone. A scalar is one update of the config row. A
reference inserts the new row, remembers its identifier, deletes the row that it replaces and stores the new
identifier. A list deletes the members it had, then inserts and links the new ones one by one.

## Contents

* `Param`, `Command`, `WriteStep`
* `readCommand` — the query of a field
* `writeSteps` — the steps that write a value
-/

namespace GuardedConfig.Plan

open Schema Sql

/-- A parameter: a value, or the row identifier that was captured last. -/
inductive Param where
  | value (v : Value)
  | capturedRowId
deriving DecidableEq, Repr, Inhabited

/-- A statement with its parameters. -/
structure Command where
  statement : Statement
  params : List Param := []
deriving Repr, Inhabited

/-- One step of a write. -/
inductive WriteStep where
  | execute (c : Command)
  | captureRowId
deriving Repr, Inhabited

/-! ## Statements -/

/-- The condition that the primary key of `table` is the identifier of the config row. -/
def isConfigRow (table : String) : Expr := .equals (.named (primaryKey table)) (.int configRow)

/-- The update of one column of the config row. -/
def updateColumn (table column : String) (p : Param) : Command where
  statement := .update
    { table, assignments := [(column, .parameter 1)], condition := some (isConfigRow table) }
  params := [p]

/-- The insertion of a row given by some of its columns. -/
def insertRow (t : Table) (members : List (String × Json)) : Except Binding.Fault Command := do
  if members.isEmpty then return { statement := .insert { table := t.name } }
  let params ← members.mapM fun (name, value) =>
    if t.hasColumn name then toStored value else .error (.noField t.name name)
  return {
    statement := .insert {
      table := t.name
      columns := some (members.map (·.1))
      rows := some [(List.range params.length).map fun i => .parameter (i + 1)] }
    params := params.map .value }

/-- The deletion of the row that a column of the config row refers to. -/
def releaseRow (table column : String) (target : Table) : Command where
  statement := .delete
    { table := target.name
      condition := some
        (.equals (.named target.key) (.first (.named column) table (isConfigRow table))) }

/-- The deletion of all members of a list. -/
def deleteMembers (table : String) (item : Table) : Command where
  statement := .delete
    { table := item.name
      condition := some
        (.inSelect false (.named item.key) (.named item.key) (junctionName item.name table)
          (isConfigRow table)) }

/-- The deletion of all links of a list. -/
def deleteLinks (table : String) (item : Table) : Command where
  statement := .delete
    { table := junctionName item.name table, condition := some (isConfigRow table) }

/-- The link of the captured row to the config row. -/
def linkRow (table : String) (item : Table) : Command where
  statement := .insert
    { table := junctionName item.name table
      columns := some [item.key, primaryKey table]
      rows := some [[.parameter 1, .int configRow]] }
  params := [.capturedRowId]

/-! ## Reading -/

/-- All columns of a table, qualified by a source. -/
def columnsOf (source : String) (t : Table) : List ResultColumn :=
  t.columnNames.map fun c => .value (.of source c) none (columnText (some source) c true)

/-- The query for the current value of a field. -/
def readQuery : Storage → Select
  | .scalar table column =>
    { columns := [.value (.named column) none (quoteName column)]
      sources := [{ table }]
      condition := some (isConfigRow table) }
  | .reference table column target =>
    { columns := columnsOf "t" target
      sources := [
        { table, shortName := some "c" },
        { table := target.name, shortName := some "t", on := some (.equals (.of "t" target.key) (.of "c" column)) }]
      condition := some (.equals (.of "c" (primaryKey table)) (.int configRow)) }
  | .list table item _ =>
    { columns := columnsOf "i" item
      sources := [
        { table := item.name, shortName := some "i" },
        { table := junctionName item.name table, shortName := some "j",
          on := some (.equals (.of "j" item.key) (.of "i" item.key)) }]
      condition := some (.equals (.of "j" (primaryKey table)) (.int configRow))
      order := [(.of "i" item.key, false)] }

/-- The query as a command; it has no parameters. -/
def readCommand (s : Storage) : Command := { statement := .select (readQuery s) }

/-! ## Writing -/

/-- The steps for one member of a list. -/
def memberSteps (path table : String) (item : Table) (scalarItems : Bool) (value member : Json) :
    Except Binding.Fault (List WriteStep) := do
  let refused : Binding.Fault := .shape path "a sequence of field maps" value
  let insert ← match member with
    | .obj members => insertRow item members
    | .arr _ => .error refused
    | scalar => if scalarItems then insertRow item [(valueColumn, scalar)] else .error refused
  return [.execute insert, .captureRowId, .execute (linkRow table item)]

/-- The steps that write a value to a field. -/
def writeSteps (path : String) (storage : Storage) (value : Json) :
    Except Binding.Fault (List WriteStep) :=
  match storage with
  | .scalar table column =>
    if value.isScalar then do
      let v ← toStored value
      return [.execute (updateColumn table column (.value v))]
    else .error (.shape path "a scalar" value)
  | .reference table column target =>
    match value with
    | .obj members => do
      let insert ← insertRow target members
      return [.execute insert, .captureRowId, .execute (releaseRow table column target),
        .execute (updateColumn table column .capturedRowId)]
    | _ => .error (.shape path "a field map" value)
  | .list table item scalarItems =>
    match value with
    | .arr members => do
      let steps ← members.mapM (memberSteps path table item scalarItems value)
      return .execute (deleteMembers table item) :: .execute (deleteLinks table item) :: steps.flatten
    | _ => .error (.shape path "a sequence of field maps" value)

end GuardedConfig.Plan
