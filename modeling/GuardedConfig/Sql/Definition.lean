import GuardedConfig.Sql.Eval
import GuardedConfig.Sql.ReadTable

/-!
# `Sql.Definition` — the table that a definition describes

The parts of a definition are added one by one, in the order in which they are written, so the first part that
does not fit decides. Checks are looked at when all columns are known. A definition of a table that exists is
refused, or does nothing if it says so; then its parts may be anything that can be read.

## Contents

* `addColumn`, `addColumnConstraint`, `addConstraint`
* `TableText.info` — the table of a definition
* `Content.define` — the content with the table of a definition
-/

namespace GuardedConfig.Sql

/-! ## Expressions in definitions -/

/-- Whether an expression depends on nothing but itself. -/
def isConstant (e : Expr) : Bool :=
  e.parts.all fun
    | .column none name false => sameName name "true" || sameName name "false"
    | .column .. | .parameter _ | .first .. | .inSelect .. => false
    | _ => true

/-- The environment of a definition: the columns so far. -/
def TableInfo.env (t : TableInfo) : Env := { content := {}, scopes := [[{ label := t.name, info := t }]] }

/-- What is wrong with one part of an expression on the rows of a table, and whether that ends the check. -/
def partFault? (t : TableInfo) (wherever : String) : Expr → Option (Fault × Bool)
  | .parameter _ => some (.forbidden "parameters" wherever, true)
  | .first .. | .inSelect .. => some (.forbidden "subqueries" wherever, true)
  | .column q name quoted =>
    match t.env.resolve q name quoted with
    | .ok _ => none
    | .error f => some (f, true)
  | .call name arguments star => (callFault? name arguments.length star).map (·, false)
  | _ => none

/-- Checks the names in an expression that is evaluated on the rows of a table. The first fault that ends the
check counts; without one, the last of the others. -/
def checkOnRows (t : TableInfo) (wherever : String) (e : Expr) : Except Fault Unit :=
  let faults := e.parts.filterMap (partFault? t wherever)
  match (faults.find? (·.2)).or faults.getLast? with
  | some (f, _) => .error f
  | none => .ok ()

/-! ## Keys -/

/-- The place and the collation of a column in a key. -/
def keyColumn (t : TableInfo) (e : Expr) (collation : Option String) : Except Fault (Nat × Collation) := do
  let inner := match e with
    | .collate e _ => e
    | e => e
  let referent ← match inner with
    | .column q name quoted => t.env.resolve q name quoted
    | .literal (.text name) => t.env.resolve none name false
    | e => do
      checkOnRows t "index expressions" e
      throw .expressionInKey
  match referent with
  | .column _ i =>
    match collation with
    | none => return (i, (t.columns[i]?.map (·.collation)).getD .binary)
    | some name =>
      match Collation.ofName? name with
      | some c => return (i, c)
      | none => throw (.noCollation name)
  | _ => throw .expressionInKey

/-- Adds a unique key. A key that is there already is not added again, but their clauses must agree. -/
def addUnique (t : TableInfo) (columns : List (Nat × Collation)) (conflict : Option Conflict) (primary : Bool) :
    Except Fault TableInfo :=
  match t.uniques.find? (·.columns == columns) with
  | none => .ok { t with uniques := t.uniques ++ [⟨columns, conflict, primary⟩] }
  | some u =>
    if u.conflict.isSome && conflict.isSome && u.conflict != conflict then .error .conflictingClauses
    else
      let merged : UniqueInfo := ⟨columns, u.conflict.or conflict, u.isPrimary || primary⟩
      .ok { t with uniques := t.uniques.map fun v => if v.columns == columns then merged else v }

/-- Adds a primary key. One column of type `INTEGER` holds the identifiers of the rows. -/
def addPrimaryKey (t : TableInfo) (column : Option Nat) (columns : Except Fault (List (Nat × Collation)))
    (descending autoincrement : Bool) (conflict : Option Conflict) : Except Fault TableInfo :=
  if t.hasPrimaryKey then .error (.secondPrimaryKey t.name)
  else
    let t := { t with hasPrimaryKey := true }
    let isInteger := fun (i : Nat) => (t.columns[i]?.map fun c => sameName c.type "INTEGER").getD false
    match column.filter isInteger with
    | some i =>
      if !descending then .ok { t with key := some i, keyConflict := conflict, autoincrement }
      else if autoincrement then .error .autoincrementType
      else columns.bind fun cs => addUnique t cs conflict true
    | none =>
      if autoincrement then .error .autoincrementType
      else columns.bind fun cs => addUnique t cs conflict true

/-- Adds a foreign key of some columns. -/
def addForeignKey (t : TableInfo) (columns : List Nat) (r : References) : TableInfo :=
  { t with foreignKeys := t.foreignKeys ++ [{
      columns, parent := r.table, parentColumns := r.columns
      onDelete := r.onDelete, onUpdate := r.onUpdate, deferred := r.deferred }] }

/-! ## Parts -/

/-- Adds a column. -/
def addColumn (t : TableInfo) (c : ColumnDef) : Except Fault TableInfo :=
  if (t.columnIndex? c.name).isSome then .error (.duplicateColumn c.name)
  else .ok { t with columns := t.columns ++ [{ name := c.name, type := c.type }] }

/-- Changes the last column. -/
def withLast (t : TableInfo) (f : ColumnInfo → ColumnInfo) : TableInfo :=
  { t with columns := t.columns.modify (t.columns.length - 1) f }

/-- Adds a constraint of the last column. -/
def addColumnConstraint (t : TableInfo) (c : ColumnConstraint) : Except Fault TableInfo :=
  let last := t.columns.length - 1
  let column : ColumnInfo := (t.columns[last]?).getD { name := "" }
  match c with
  | .primaryKey descending conflict autoincrement =>
    addPrimaryKey t (some last) (.ok [(last, column.collation)]) descending autoincrement conflict
  | .notNull conflict => .ok (withLast t fun c => { c with notNull := some (conflict.getD .abort) })
  | .null => .ok t
  | .unique conflict => addUnique t [(last, column.collation)] conflict false
  | .check condition label => .ok { t with checks := t.checks ++ [⟨condition, label⟩] }
  | .default e =>
    if isConstant e then .ok (withLast t fun c => { c with default := e })
    else .error (.defaultNotConstant column.name)
  | .collate name =>
    match Collation.ofName? name with
    | none => .error (.noCollation name)
    | some collation =>
      let t := withLast t fun c => { c with collation }
      .ok { t with uniques := t.uniques.map fun u =>
        { u with columns := u.columns.map fun (i, c) => (i, if i = last then collation else c) } }
  | .references r =>
    if 1 < r.columns.length then .error (.keyColumnCount column.name r.table)
    else .ok (addForeignKey t [last] r)
  | .defer deferred =>
    .ok { t with foreignKeys := t.foreignKeys.modify (t.foreignKeys.length - 1) fun k => { k with deferred } }
  | .generated _ => .error (.unsupported "generated columns")

/-- Adds a constraint of the table. -/
def addConstraint (t : TableInfo) (c : TableConstraint) : Except Fault TableInfo :=
  match c with
  | .primaryKey columns autoincrement conflict =>
    let single := match columns with
      | [(.column none name _, _)] | [(.collate (.column none name _) _, _)] => t.columnIndex? name
      | _ => none
    addPrimaryKey t single (columns.mapM fun (e, c) => keyColumn t e c) false autoincrement conflict
  | .unique columns conflict => do
    addUnique t (← columns.mapM fun (e, c) => keyColumn t e c) conflict false
  | .check condition label => .ok { t with checks := t.checks ++ [⟨condition, label⟩] }
  | .foreignKey columns r =>
    if !r.columns.isEmpty && r.columns.length != columns.length then .error .keyColumnsDiffer
    else do
      let places ← columns.mapM fun name =>
        match t.columnIndex? name with
        | some i => .ok i
        | none => .error (.unknownKeyColumn name)
      return addForeignKey t places r

/-- Adds a part of a definition. -/
def addItem (t : TableInfo) : TableItem → Except Fault TableInfo
  | .column c => addColumn t c
  | .columnConstraint c => addColumnConstraint t c
  | .constraint c => addConstraint t c

/-! ## Definitions -/

/-- The fault of an option that is none. -/
def TableText.unknownOption? (d : TableText) : Option Fault :=
  d.options.findSome? fun
    | .unknown written => some (.unknownOption written)
    | _ => none

/-- The fault of a definition that does not hang on its table: an unknown option, or what stopped the reading. -/
def TableText.fault? (d : TableText) : Option Fault := d.unknownOption?.or d.stop

/-- Checks an option against the table. -/
def checkOption (t : TableInfo) : TableOption → Except Fault Unit
  | .unknown written => .error (.unknownOption written)
  | .strict => .error (.unsupported "STRICT")
  | .withoutRowid =>
    if t.autoincrement then .error .autoincrementWithoutRowid
    else if !t.hasPrimaryKey then .error (.noPrimaryKey t.name)
    else .error (.unsupported "WITHOUT ROWID")

/-- The table of a definition. -/
def TableText.info (d : TableText) : Except Fault TableInfo := do
  let t ← d.items.foldlM addItem { name := d.name, definition := d.text }
  if let some f := d.fault? then throw f
  d.options.forM (checkOption t)
  t.checks.forM fun c => checkOnRows t "CHECK constraints" c.condition
  return t

/-- Names that begin with these characters are reserved. -/
def isReserved (name : String) : Bool := sameName (name.take 7).toString "sqlite_"

/-- The content with the table of a definition. -/
def Content.define (c : Content) (d : TableText) : Except Fault Content :=
  if isReserved d.name then .error (.reservedName d.name)
  else
    match c.find? d.name with
    | none => d.info.map c.add
    | some _ =>
      if !d.ifNotExists then .error (.tableExists d.written)
      else
        match d.fault? with
        | some f => .error f
        | none => .ok c

end GuardedConfig.Sql
