import GuardedConfig.Sql.Change

/-!
# `Sql.Query` — the rows of a query

The tables of a query are joined in order, each row of a table with each combination of rows before it that
satisfies the condition between them. What is left after the condition is ordered, and each combination gives
one row of the result. A query with a function over all rows gives one row.

## Contents

* `Result`
* `joinSources` — the combinations of rows
* `aggregateValue` — functions over all rows
* `Select.columnNames`, `Select.run`
-/

namespace GuardedConfig.Sql

open Decimal Text

/-- The result of a query: the names of its columns, and its rows. -/
structure Result where
  names : List String
  rows : List (List Value)
deriving DecidableEq, Repr, Inhabited

/-! ## Sources -/

/-- A table of a query with what it stands for. -/
abbrev OpenSource := Source × Stored

/-- A row of a table in scope. -/
def OpenSource.bind (s : OpenSource) (row : Row) : Binding := { label := s.1.label, info := s.2.info, row }

/-- The combinations of rows that satisfy the conditions between tables, where `scope` holds the rows of the
tables before. -/
def joinSources (env : Env) : List OpenSource → List Binding → Except Fault (List (List Binding))
  | [], scope => .ok [scope]
  | s :: rest, scope => do
    let joined ← s.2.rows.filterMapM fun row => do
      let inner := scope ++ [OpenSource.bind s row]
      return if ← (env.push inner).satisfies s.1.on then some inner else none
    return (← joined.mapM (joinSources env rest)).flatten

/-! ## Functions over all rows -/

/-- A column of a result with what it is called. -/
structure OutputColumn where
  name : String
  expr : Expr
  title : Option String := none
deriving Repr, Inhabited

/-- The function over all rows that an expression is, with its arguments. -/
def aggregate? : Expr → Option (String × List Expr)
  | .call name args star =>
    let plain := String.ofList (lowerAscii name)
    let fits := if plain = "count" then (star && args.isEmpty) || (!star && args.length ≤ 1)
      else !star && args.length = 1
    if aggregates.contains plain && fits then some (plain, args) else none
  | _ => none

/-- The sum of numbers; whole if all of them are. -/
def sumOf (values : List Value) : Except Fault Value :=
  let whole := values.all fun v => match v with | .integer _ => true | _ => false
  if whole then
    let n := values.foldl (fun sum v => sum + v.toInt) 0
    if isInt64 n then .ok (.integer n) else .error .integerOverflow
  else .ok (values.foldl (fun sum v => addValues sum (.real v.toReal)) (.real .zero))

/-- The value of a function over all rows, given its argument in each row; nulls do not count. -/
def aggregateValue (name : String) (c : Collation) (rows : Nat) (values : Option (List Value)) :
    Except Fault Value :=
  let present := (values.getD []).filter (· != .null)
  match name with
  | "count" => .ok (.integer (if values.isSome then present.length else rows))
  | "sum" => if present.isEmpty then .ok .null else sumOf present
  | "total" => .ok (present.foldl (fun sum v => addValues sum (.real v.toReal)) (.real .zero))
  | "avg" =>
    if present.isEmpty then .ok .null
    else .ok (divValues (present.foldl (fun sum v => addValues sum (.real v.toReal)) (.real .zero))
      (.real (.ofInt present.length)))
  | "max" => .ok (extreme (· == .gt) c present)
  | "min" => .ok (extreme (· == .lt) c present)
  | _ => .ok (if present.isEmpty then .null else .text (joinWith "," (present.filterMap (·.text?))))

/-- The value of a column over all rows. -/
def valueOverAll (env : Env) (scopes : List (List Binding)) (empty : List Binding) (e : Expr) :
    Except Fault Value := do
  match aggregate? e with
  | none => eval (env.push (scopes.getLast?.getD empty)) e
  | some (name, args) =>
    args.forM (env.push empty).check
    let c := (args.head?.bind (collationOf? (env.push empty))).map (·.1)
    let values ← args.head?.mapM fun arg => scopes.mapM fun scope => eval (env.push scope) arg
    aggregateValue name (c.getD .binary) scopes.length values

/-! ## Columns -/

/-- All columns of a source. -/
def allColumns (s : OpenSource) : List OutputColumn :=
  s.2.info.columns.map fun c => ⟨c.name, .column (some s.1.label) c.name true, none⟩

/-- The name of the column that an expression is. -/
def plainName? (env : Env) : Expr → Option String
  | .column q name quoted =>
    match env.resolve q name quoted with
    | .ok (.column b i) => some (b.info.columnName i)
    | .ok (.rowId b) => some ((b.info.key.map b.info.columnName).getD "rowid")
    | _ => none
  | _ => none

/-- The columns that a column of a query stands for. -/
def outputColumns (env : Env) (sources : List OpenSource) : ResultColumn → Except Fault (List OutputColumn)
  | .star => if sources.isEmpty then .error .noTables else .ok (sources.flatMap allColumns)
  | .sourceStar name =>
    match sources.find? fun s => sameName s.1.label name with
    | some s => .ok (allColumns s)
    | none => .error (.noTable name)
  | .value e title text => .ok [⟨(title.or (plainName? env e)).getD text, e, title⟩]

/-- The expression that a term of an order stands for: a column of the result by its place or its title, or
itself. -/
def orderExpr (columns : List OutputColumn) (position : Nat) : Expr → Except Fault Expr
  | .literal (.integer n) =>
    if 1 ≤ n ∧ n ≤ columns.length then .ok ((columns[n.toNat - 1]?.map (·.expr)).getD (.int n))
    else .error (.orderPosition position columns.length)
  | .column none name quoted =>
    match columns.find? fun c => (c.title.map (sameName · name)).getD false with
    | some c => .ok c.expr
    | none => .ok (.column none name quoted)
  | e => .ok e

/-! ## Order -/

/-- A term of an order for one row: the value, its collation, and whether the order is descending. -/
structure SortKey where
  value : Value
  collation : Collation
  descending : Bool

/-- Whether a row may stand before another one. -/
def mayPrecede : List SortKey → List SortKey → Bool
  | a :: as, b :: bs =>
    match compareValues a.collation a.value b.value with
    | .eq => mayPrecede as bs
    | .lt => !a.descending
    | .gt => a.descending
  | _, _ => true

/-- The number of rows that a limit leaves; a negative one leaves all. -/
def limitOf (env : Env) (limit : Option Expr) : Except Fault (Option Nat) := do
  match limit with
  | none => return none
  | some e =>
    let n ← keyOf (← eval env e)
    return if n < 0 then none else some n.toNat

/-! ## Queries -/

/-- The rows of a query. -/
def Select.run (s : Select) (c : Content) (params : List Value) : Except Fault Result := do
  let env : Env := { content := c, params }
  let sources : List OpenSource ← s.sources.mapM fun source => do return (source, ← expectTable c source.table)
  let empty := sources.map fun t => OpenSource.bind t ⟨0, []⟩
  let columns := (← s.columns.mapM (outputColumns (env.push empty) sources)).flatten
  let terms ← s.order.mapIdxM fun i (e, descending) => do
    return (← orderExpr columns (i + 1) e, descending)
  let summing := columns.any fun c => (aggregate? c.expr).isSome
  -- names are checked on empty rows
  s.limit.forM env.check
  columns.forM fun c => do
    let _ ← valueOverAll env [] empty c.expr
  s.condition.forM (env.push empty).check
  s.sources.forM fun source => source.on.forM (env.push empty).check
  terms.forM fun (e, _) => do
    let _ ← valueOverAll env [] empty e
  let limit ← limitOf env s.limit
  let scopes ← (← joinSources env sources []).filterM fun scope => (env.push scope).satisfies s.condition
  let names := columns.map (·.name)
  let rows ←
    if summing then pure [← columns.mapM fun c => valueOverAll env scopes empty c.expr]
    else do
      let keyed ← scopes.mapM fun scope => do
        let env := env.push scope
        let keys ← terms.mapM fun (e, descending) => do
          return (⟨← eval env e, ((collationOf? env e).map (·.1)).getD .binary, descending⟩ : SortKey)
        return (keys, ← columns.mapM fun c => eval env c.expr)
      pure ((keyed.mergeSort fun a b => mayPrecede a.1 b.1).map (·.2))
  let rows := if s.distinct then rows.eraseDups else rows
  return { names, rows := (limit.map rows.take).getD rows }

end GuardedConfig.Sql
