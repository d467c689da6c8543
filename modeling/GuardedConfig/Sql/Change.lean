import GuardedConfig.Sql.Reference
import GuardedConfig.Text.Trim

/-!
# `Sql.Change` — inserting, changing and deleting rows

A row is admitted to a table in steps: nulls, the conversions of the columns, checks, identifiers, unique keys.
The way in which a violation is resolved is that of the statement, else that of the constraint, else the
statement is undone. When a row that others refer to is deleted or changed, they are deleted or changed as
well, or the reference is emptied.

A statement is prepared against the tables first; a fault found then leaves no trace.

## Contents

* `Change` — steps that change the content and may stop
* `fillNulls`, `passesChecks`, `removeRow`, `changeRow`, `addRow`
* `Insert.prepare`, `Update.prepare`, `Delete.prepare`, `prepareDrop`
-/

namespace GuardedConfig.Sql

open Decimal

/-! ## Steps -/

/-- What a statement has done so far. -/
structure Progress where
  content : Content
  /-- The identifier of the row that was inserted last. -/
  lastRowId : Int
  count : Nat := 0
  /-- Whether references have to be counted at the end: not after rows that were added alone. -/
  unsettled : Bool := false
deriving Repr, Inhabited

/-- Why a statement stops, and what happens to what it has done. -/
structure Stop where
  fault : Fault
  how : Conflict := .abort
deriving DecidableEq, Repr, Inhabited

/-- A step of a statement. What it has done is kept when it stops. -/
abbrev Change (α : Type) := ExceptT Stop (StateM Progress) α

/-- Stops. -/
def halt {α : Type} (fault : Fault) (how : Conflict := .abort) : Change α := throw ⟨fault, how⟩

/-- A result that does not depend on the progress. -/
def Change.ofExcept {α : Type} (r : Except Fault α) : Change α :=
  match r with
  | .ok a => return a
  | .error f => halt f

/-- Changes the content. -/
def modifyContent (f : Content → Content) : Change Unit := modify fun p => { p with content := f p.content }

/-- Changes the content in a way that may leave references without their row. -/
def unsettle (f : Content → Content) : Change Unit :=
  modify fun p => { p with content := f p.content, unsettled := true }

/-! ## Constraints of one row -/

/-- The value of a default. Its functions are looked up only now, and whatever is wrong with one, it is
unknown. -/
def defaultValue (c : ColumnInfo) : Except Fault Value :=
  match eval { content := {} } c.default with
  | .error (.noFunction name) | .error (.functionArguments name) | .error (.aggregateMisuse name) =>
    .error (.unknownFunction name)
  | r => r

/-- Refuses nulls, or puts defaults in their place; none if the row is to be skipped. Only the columns that are
`relevant` are looked at, and the identifier is never null. -/
def fillNulls (override : Option Conflict) (t : TableInfo) (relevant : Nat → Bool) :
    Nat → List ColumnInfo → List Value → Change (Option (List Value))
  | i, c :: cs, v :: vs => do
    let keep := fun (w : Value) => do return (← fillNulls override t relevant (i + 1) cs vs).map (w :: ·)
    match if v == .null && relevant i && t.key != some i then c.notNull else none with
    | none => keep v
    | some own =>
      match override.getD own with
      | .ignore => return none
      | .replace =>
        match ← Change.ofExcept (defaultValue c) with
        | .null => halt (.notNull t.name c.name)
        | w => keep w
      | how => halt (.notNull t.name c.name) how
  | _, _, vs => return some vs

/-- The values as the columns hold them, with the identifier in its column. -/
def convert (t : TableInfo) (id : Int) (values : List Value) : Row where
  id := id
  values := (t.columns.zip values).mapIdx fun i (c, v) =>
    if t.key = some i then .integer id else c.affinity.store v

/-- Whether a row passes checks; a check that is null is passed. A row that does not is refused or skipped. -/
def passesChecks (override : Option Conflict) (t : TableInfo) (row : Row) : List CheckInfo → Change Bool
  | [] => return true
  | k :: ks => do
    let env : Env := { content := (← get).content, scopes := [[{ label := t.name, info := t, row }]] }
    let v ← Change.ofExcept (eval env k.condition)
    if v.truth? = some false then
      match override with
      | some .ignore => return false
      | some .fail => halt (.check k.label) .fail
      | some .rollback => halt (.check k.label) .rollback
      | _ => halt (.check k.label)
    passesChecks override t row ks

/-- The identifier that a value stands for. -/
def keyOf (v : Value) : Except Fault Int :=
  match Affinity.store .integer v with
  | .integer n => .ok n
  | _ => .error .datatypeMismatch

/-! ## Identifiers and unique keys -/

/-- A constraint that another row may stand in the way of: the identifier, or a unique key. -/
inductive Uniqueness where
  | key
  | columns (u : UniqueInfo)
deriving Repr

/-- Whether another row stands in the way. Nulls are different from each other. -/
def Uniqueness.clash (u : Uniqueness) (a b : Row) : Bool :=
  match u with
  | key => a.id == b.id
  | columns u => u.columns.all fun (i, c) => compareUnder none c (a.value i) (b.value i) == some .eq

/-- What happens on a clash, if the definition says so. -/
def Uniqueness.conflict (t : TableInfo) : Uniqueness → Option Conflict
  | key => t.keyConflict
  | columns u => u.conflict

/-- The fault of a clash. -/
def Uniqueness.fault (t : TableInfo) (u : Uniqueness) : Fault :=
  let full := fun (column : String) => t.name ++ "." ++ column
  match u with
  | key => .unique (full ((t.key.map t.columnName).getD "rowid"))
  | columns u => .unique (Text.joinWith ", " (u.columns.map fun (i, _) => full (t.columnName i)))

/-- The constraints of a table in the order in which they are looked at: those that replace rows come last, the
identifier comes first and the newest unique key next. -/
def uniquenesses (t : TableInfo) : List Uniqueness :=
  let all := Uniqueness.key :: t.uniques.reverse.map Uniqueness.columns
  let (last, first) := all.partition fun u => u.conflict t == some .replace
  first ++ last

/-- The identifier of a new row: one more than the highest one, also than the highest one that was used if the
table has automatic identifiers. -/
def nextId (c : Content) (t : Stored) : Except Fault Int :=
  let highest := (t.lastId?).getD 0
  let highest := if t.rows.isEmpty then 0 else highest
  let used := if t.info.autoincrement then max highest (c.sequence t.info.name) else highest
  if used = maxInt then .error .full else .ok (used + 1)

/-! ## Changes of rows -/

/-- The fault of a reference to a row that is not there, if a row has one that is checked at once. -/
def ownOrphan (c : Content) (t : TableInfo) (row : Row) : Bool :=
  t.foreignKeys.any fun k => !k.deferred && isOrphan (c.update t.name (·.insert row)) t k row

/-- Whether a check depends on changed columns. -/
def CheckInfo.dependsOn (k : CheckInfo) (names : List String) : Bool :=
  k.condition.parts.any fun
    | .column _ name _ => names.any (sameName name)
    | _ => false

mutual

/-- Deletes a row, after it the rows that refer to it. Actions nest at most `fuel` deep. -/
def removeRow (fuel : Nat) (table : String) (id : Int) : Change Unit := do
  match fuel with
  | 0 => halt .tooDeep
  | fuel + 1 =>
    let some t := (← get).content.find? table | return ()
    let some row := t.row? id | return ()
    unsettle fun c => c.update table (·.erase id)
    for (child, k) in referrers (← get).content table do
      let (_, pairs) ← Change.ofExcept (parentOf (← get).content child.info k)
      act fuel t.info child.info.name pairs k.onDelete row none

/-- What happens to the rows that refer to a row that was deleted or has new values. -/
def act (fuel : Nat) (parent : TableInfo) (child : String) (pairs : List (Nat × Nat))
    (action : ReferenceAction) (old : Row) (new : Option Row) : Change Unit := do
  match fuel with
  | 0 => halt .tooDeep
  | fuel + 1 =>
    let some t := (← get).content.find? child | return ()
    let affected := t.rows.filter fun row => refersTo parent t.info pairs row old
    match action with
    | .noAction => return ()
    | .restrict => if affected.isEmpty then return () else halt .foreignKey
    | .cascade =>
      for row in affected do
        match new with
        | none => removeRow fuel child row.id
        | some new =>
          let _ ← changeRow fuel (some .abort) child row.id (pairs.map fun (i, j) => (i, new.value j))
    | .setNull =>
      for row in affected do
        let _ ← changeRow fuel (some .abort) child row.id (pairs.map fun (i, _) => (i, .null))
    | .setDefault =>
      let values ← pairs.mapM fun (i, _) => do
        match t.info.columns[i]? with
        | some c => return (i, ← Change.ofExcept (defaultValue c))
        | none => return (i, .null)
      for row in affected do
        let _ ← changeRow fuel (some .abort) child row.id values

/-- Whether the values of a row are unique, after rows that are to be replaced have gone; a row that is to be
skipped gives false. -/
def clearRow (fuel : Nat) (override : Option Conflict) (t : TableInfo) (self : Option Int) (row : Row)
    (us : List Uniqueness) : Change Bool := do
  match fuel with
  | 0 => halt .tooDeep
  | fuel + 1 =>
    for u in us do
      let some stored := (← get).content.find? t.name | return true
      let rivals := stored.rows.filter fun other => some other.id != self && u.clash row other
      if !rivals.isEmpty then
        match (override.or (u.conflict t)).getD .abort with
        | .ignore => return false
        | .replace => for rival in rivals do removeRow fuel t.name rival.id
        | how => halt (u.fault t) how
    return true

/-- Gives a row new values in some columns; false if the row is skipped. -/
def changeRow (fuel : Nat) (override : Option Conflict) (table : String) (id : Int)
    (assigned : List (Nat × Value)) : Change Bool := do
  match fuel with
  | 0 => halt .tooDeep
  | fuel + 1 =>
    let some stored := (← get).content.find? table | return false
    let some old := stored.row? id | return false
    let t := stored.info
    let changed := fun (i : Nat) => assigned.any (·.1 == i)
    let values := old.values.mapIdx fun i v => ((assigned.find? (·.1 == i)).map (·.2)).getD v
    let newId ← match t.key with
      | some i => if changed i then Change.ofExcept (keyOf (values.getD i .null)) else pure id
      | none => pure id
    let some values ← fillNulls override t changed 0 t.columns values | return false
    let row := convert t newId values
    let names := (assigned.map fun (i, _) => t.columnName i) ++
      if newId != id then ["rowid", "oid", "_rowid_"] else []
    if !(← passesChecks override t row (t.checks.filter (·.dependsOn names))) then return false
    let us := (uniquenesses t).filter fun
      | .key => newId != id
      | .columns u => newId != id || u.columns.any fun (i, _) => changed i
    if !(← clearRow fuel override t (some id) row us) then return false
    unsettle fun c => c.update table fun s => (s.erase id).insert row
    for (child, k) in referrers (← get).content table do
      match parentOf (← get).content child.info k with
      | .ok (_, pairs) =>
        if pairs.any fun (_, j) => old.value j != row.value j then
          act fuel t child.info.name pairs k.onUpdate old (some row)
      | .error f => if k.parentColumns.any fun name => names.any (sameName name) then halt f
    return true

end

/-- How deep actions may nest: a thousand times, in two steps each. -/
def actionDepth : Nat := 2001

/-- Adds a row, given the value for its identifier and the values of its columns. `alone` says that it is the
only row of the statement, whose references are looked at before it is added. -/
def addRow (override : Option Conflict) (alone : Bool) (table : String) (key : Value) (values : List Value) :
    Change Unit := do
  let content := (← get).content
  let some stored := content.find? table | return ()
  let t := stored.info
  let id ← match key with
    | .null =>
      match nextId content stored with
      | .ok id => pure id
      | .error f => halt f .rollback
    | v => Change.ofExcept (keyOf v)
  if t.autoincrement then modifyContent (·.note t.name id)
  let some values ← fillNulls override t (fun _ => true) 0 t.columns values | return ()
  let row := convert t id values
  if !(← passesChecks override t row t.checks) then return ()
  if !(← clearRow actionDepth override t none row (uniquenesses t)) then return ()
  if alone && ownOrphan (← get).content t row then halt .foreignKey
  modify fun p => { p with
    content := p.content.update table (·.insert row), lastRowId := id, count := p.count + 1
    unsettled := p.unsettled || !alone || t.foreignKeys.any (·.deferred) }

/-! ## Statements -/

/-- The table with a name. -/
def expectTable (c : Content) (name : String) : Except Fault Stored :=
  match c.find? name with
  | some t => .ok t
  | none => .error (.noTable name)

/-- Whether a foreign key refers to one of some columns of its parent. -/
def ForeignKeyInfo.refersToAny (k : ForeignKeyInfo) (t : TableInfo) (changed : Nat → Bool) : Bool :=
  if k.parentColumns.isEmpty then
    (t.key.any changed) || t.uniques.any fun u => u.isPrimary && u.columns.any fun (i, _) => changed i
  else k.parentColumns.any fun name => (t.columnIndex? name).any changed

/-- The foreign keys among some that refer to a table but to no key of it. -/
def mismatches (c : Content) (t : TableInfo) (relevant : ForeignKeyInfo → Bool) : List Fault :=
  (referrers c t.name).filterMap fun (child, k) =>
    if relevant k && (parentKey t k).isNone then some (.keyMismatch child.info.name k.parent) else none

/-- The first fault of the foreign keys of a table among some that are its `own`, and then of some of `others` that
refer to it. -/
def referenceFault? (c : Content) (t : TableInfo) (own others : ForeignKeyInfo → Bool) : Option Fault :=
  let fault? := fun (k : ForeignKeyInfo) =>
    match parentOf c t k with
    | .error f => some f
    | .ok _ => none
  ((t.foreignKeys.reverse.filter own).findSome? fault?).or (mismatches c t others).head?

/-- The faults of the actions on the rows that refer to a table, after the faults so far: for the keys that matter,
by the action that each of them asks for, when rows are deleted or changed. -/
abbrev ActionFaults : Type :=
  Content → TableInfo → (ForeignKeyInfo → ReferenceAction) → (ForeignKeyInfo → Bool) → Bool → List Fault → List Fault

/-- The faults of foreign keys that matter when rows are deleted, given those of the actions. -/
def deleteFaultsWith (actions : ActionFaults) (c : Content) (t : TableInfo) : List Fault :=
  let every := fun (_ : ForeignKeyInfo) => true
  actions c t (·.onDelete) every true (mismatches c t every ++ (referenceFault? c t every every).toList)

/-- The faults of foreign keys that matter when some columns are changed, given those of the actions. -/
def updateFaultsWith (actions : ActionFaults) (c : Content) (t : TableInfo) (changed : Nat → Bool) : List Fault :=
  let own := fun (k : ForeignKeyInfo) => k.columns.any changed
  let others := fun (k : ForeignKeyInfo) => k.refersToAny t changed
  if t.foreignKeys.any own || (referrers c t.name).any (fun (_, k) => others k) then
    actions c t (·.onUpdate) others false
      (mismatches c t (fun _ => true) ++
        (referenceFault? c t (fun k => own k || sameName k.parent t.name) others).toList)
  else []

/-- The faults so far, and those of the actions on the rows that refer to a table: a key that is none, or, if there
is no other fault, what the action itself does to their table. Actions are looked into `depth` deep. -/
def actionFaults (depth : Nat) : ActionFaults := fun c t action relevant deletes faults =>
  match depth with
  | 0 => faults
  | depth + 1 =>
    ((referrers c t.name).filter fun (_, k) => relevant k && action k != .noAction).foldl (fun faults (child, k) =>
      if (parentKey t k).isNone then faults ++ [.keyMismatch child.info.name k.parent]
      else if !faults.isEmpty || action k == .restrict then faults
      else if deletes && action k == .cascade then deleteFaultsWith (actionFaults depth) c child.info
      else updateFaultsWith (actionFaults depth) c child.info fun i => k.columns.contains i) faults

/-- The faults of foreign keys that matter when rows are deleted, where actions are looked into `depth` deep. -/
def deleteFaults (depth : Nat) : Content → TableInfo → List Fault := deleteFaultsWith (actionFaults depth)

/-- The faults of foreign keys that matter when some columns are changed, where actions are looked into `depth`
deep. -/
def updateFaults (depth : Nat) : Content → TableInfo → (Nat → Bool) → List Fault :=
  updateFaultsWith (actionFaults depth)

/-- Whether rows may be replaced, where only some columns and possibly the identifier are given. -/
def mayReplace (override : Option Conflict) (t : TableInfo) (keyGiven : Bool) (given : Nat → Bool) : Bool :=
  (uniquenesses t).any fun u =>
    override.or (u.conflict t) == some .replace &&
      match u with
      | .key => keyGiven
      | .columns u => u.columns.any fun (i, _) => given i

/-- How deep actions are looked into before a statement runs. -/
def preparedDepth : Nat := 4

/-- Of several faults the last one is reported. -/
def reportLast (faults : List Fault) : Except Fault Unit :=
  match faults.getLast? with
  | some f => .error f
  | none => .ok ()

/-- The places of the values of an insertion into a table that goes by `label`; the identifier has a place of
its own. -/
def columnPlaces (t : TableInfo) (label : String) (names : List String) : Except Fault (List (Option Nat)) :=
  names.mapM fun name =>
    match t.columnIndex? name with
    | some i => .ok (some i)
    | none => if isRowIdName name then .ok none else .error (.noTableColumn label name)

/-- The value for the identifier and the values of all columns of a new row: those that are given at their
places, defaults for the others. -/
def newRow (t : TableInfo) (places : List (Option Nat)) (given : List Value) :
    Except Fault (Value × List Value) := do
  let at? := fun (place : Option Nat) => ((places.zip given).find? (·.1 == place)).map (·.2)
  let values ← t.columns.mapIdxM fun i c =>
    match at? (some i) with
    | some v => .ok v
    | none => defaultValue c
  let key := match t.key with
    | some i => (at? (some i)).orElse fun _ => at? none
    | none => at? none
  return (key.getD .null, values)

/-- An insertion, ready to run. -/
def Insert.prepare (i : Insert) (c : Content) (params : List Value) : Except Fault (Change Unit) := do
  let stored ← expectTable c i.table
  let t := stored.info
  let places ← match i.columns with
    | some names => columnPlaces t i.table names
    | none => pure (if i.rows.isNone then [] else (List.range t.columns.length).map some)
  let env : Env := { content := c, params }
  let rows ← match i.rows with
    | none => pure [([], [])]
    | some rows =>
      if rows.any fun r => some r.length != rows.head?.map (·.length) then throw .rowLengths
      rows.mapM fun r => do return (places, ← evalAll env r)
  if let some (_ :: _, given) := rows.head? then
    if given.length != places.length then
      match i.columns with
      | none => throw (.valueCount i.table t.columns.length given.length)
      | some names => throw (.listCount given.length names.length)
  let rows ← rows.mapM fun (places, given) => newRow t places given
  let replaces := mayReplace i.conflict t (places.any fun place => place == none || place == t.key) fun _ => true
  let alone := rows.length = 1 && !replaces
  reportLast ((if replaces then deleteFaults preparedDepth c t else []) ++
    (referenceFault? c t (fun _ => true) fun k => !alone || k.deferred).toList)
  return rows.forM fun (key, values) => addRow i.conflict alone t.name key values

/-- The rows of a table that satisfy a condition. -/
def selectRows (c : Content) (params : List Value) (t : Stored) (condition : Option Expr) :
    Except Fault (List Row) :=
  t.rows.filterM fun row =>
    Env.satisfies { content := c, params, scopes := [[{ label := t.info.name, info := t.info, row }]] } condition

/-- An update, ready to run. -/
def Update.prepare (u : Update) (c : Content) (params : List Value) : Except Fault (Change Unit) := do
  let stored ← expectTable c u.table
  let t := stored.info
  let env := fun (row : Row) => ({ content := c, params, scopes := [[{ label := t.name, info := t, row }]] } : Env)
  let places ← u.assignments.mapM fun (name, e) => do
    (env ⟨0, []⟩).check e
    match t.columnIndex? name with
    | some i => return (i, e)
    | none => throw (.noColumn name)
  u.condition.forM (env ⟨0, []⟩).check
  let changed := fun (i : Nat) => places.any (·.1 == i)
  let replaces := mayReplace u.conflict t (t.key.any changed) fun i => changed i || t.key.any changed
  reportLast ((if replaces then deleteFaults preparedDepth c t else []) ++ updateFaults preparedDepth c t changed)
  let ids := (← selectRows c params stored u.condition).map (·.id)
  return ids.forM fun id => do
    let some row := ((← get).content.find? t.name).bind (·.row? id) | return ()
    -- the last of several assignments to one column counts
    let assigned ← places.reverse.mapM fun (i, e) => do return (i, ← Change.ofExcept (eval (env row) e))
    if ← changeRow actionDepth u.conflict t.name id assigned then
      modify fun p => { p with count := p.count + 1 }

/-- A deletion, ready to run. -/
def Delete.prepare (d : Delete) (c : Content) (params : List Value) : Except Fault (Change Unit) := do
  let stored ← expectTable c d.table
  let t := stored.info
  let env : Env := { content := c, params, scopes := [[{ label := t.name, info := t }]] }
  d.condition.forM env.check
  reportLast (deleteFaults preparedDepth c t)
  let ids := (← selectRows c params stored d.condition).map (·.id)
  return ids.forM fun id => do
    let some _ := ((← get).content.find? t.name).bind (·.row? id) | return ()
    removeRow actionDepth t.name id
    modify fun p => { p with count := p.count + 1 }

/-- The removal of a table, ready to run. -/
def prepareDrop (ifExists : Bool) (name : String) (c : Content) : Except Fault (Change Unit) :=
  match c.find? name with
  | none => if ifExists then .ok (return ()) else .error (.noTable name)
  | some t => .ok do
    let emptied := c.update name fun s => { s with rows := [] }
    if orphans c false < orphans emptied false then halt .foreignKey
    unsettle fun _ => emptied.remove t.info.name

end GuardedConfig.Sql
