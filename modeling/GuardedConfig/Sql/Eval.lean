import GuardedConfig.Sql.Function
import GuardedConfig.Sql.Table

/-!
# `Sql.Eval` — the value of an expression

An expression is evaluated for the current rows of the tables in scope; a subquery puts its table into an inner
scope. Names are resolved on the way, innermost scope first: an unknown name in double quotes is a text, and
`TRUE` and `FALSE` are numbers unless a column has that name. Every part is evaluated, also one whose value is
not needed, so a name that does not exist is found on any rows: evaluating an expression on empty rows checks
its names.

## Contents

* `Binding`, `Env`
* `Env.resolve` — what a name stands for
* `affinityOf?`, `collationOf?`, `compareUnder` — how operands are compared
* `eval`, `Env.truth`, `Env.check`
-/

namespace GuardedConfig.Sql

open Text

/-! ## Names -/

/-- A table in scope with its current row. -/
structure Binding where
  label : String
  info : TableInfo
  row : Row := ⟨0, []⟩
deriving Repr, Inhabited

/-- What an expression may refer to: the content, the parameters, and the tables in scope, innermost first. -/
structure Env where
  content : Content
  params : List Value := []
  scopes : List (List Binding) := []
deriving Repr, Inhabited

/-- What a name stands for. -/
inductive Referent where
  | column (b : Binding) (index : Nat)
  | rowId (b : Binding)
  | text (s : String)
  | truth (value : Bool)
deriving Repr, Inhabited

/-- The names of the identifier of a row. -/
def isRowIdName (name : String) : Bool := ["rowid", "oid", "_rowid_"].any (sameName · name)

/-- What a column name stands for among the tables of one scope: nothing, one thing, or too many. -/
def resolveIn (qualifier : Option String) (name : String) (scope : List Binding) : Except Fault (Option Referent) :=
  let candidates := scope.filter fun b => qualifier.all (sameName b.label ·)
  match candidates.filterMap fun b => (b.info.columnIndex? name).map (Referent.column b) with
  | [found] => .ok (some found)
  | _ :: _ :: _ => .error (.ambiguousColumn (match qualifier with | some q => q ++ "." ++ name | none => name))
  | [] =>
    match candidates with
    | [b] => .ok (if isRowIdName name then some (.rowId b) else none)
    | _ => .ok none

/-- What a column name stands for among all scopes. -/
def resolveThrough (qualifier : Option String) (name : String) :
    List (List Binding) → Except Fault (Option Referent)
  | [] => .ok none
  | scope :: scopes =>
    match resolveIn qualifier name scope with
    | .ok none => resolveThrough qualifier name scopes
    | r => r

namespace Env

/-- What a column name stands for. -/
def resolve (env : Env) (qualifier : Option String) (name : String) (quoted : Bool) : Except Fault Referent :=
  match resolveThrough qualifier name env.scopes with
  | .error e => .error e
  | .ok (some r) => .ok r
  | .ok none =>
    match qualifier with
    | some q => .error (.noColumn (q ++ "." ++ name))
    | none =>
      if quoted then .ok (.text name)
      else if sameName name "true" then .ok (.truth true)
      else if sameName name "false" then .ok (.truth false)
      else .error (.noColumn name)

/-- The environment with an inner scope. -/
def push (env : Env) (scope : List Binding) : Env := { env with scopes := scope :: env.scopes }

end Env

/-- The value of what a name stands for. -/
def Referent.value : Referent → Value
  | column b i => b.row.value i
  | rowId b => .integer b.row.id
  | text s => .text s
  | truth b => .ofTruth (some b)

/-! ## Comparison -/

/-- The affinity of an operand. -/
def affinityOf? (env : Env) : Expr → Option Affinity
  | .column q n quoted =>
    match env.resolve q n quoted with
    | .ok (.column b i) => b.info.columns[i]?.map (·.affinity)
    | .ok (.rowId _) => some .integer
    | _ => none
  | .collate e _ => affinityOf? env e
  | .cast _ type => some (.ofType type)
  | .first column table _ =>
    match env.content.find? table with
    | some t => affinityOf? (env.push [{ label := table, info := t.info }]) column
    | none => none
  | _ => none

/-- The collation of an operand, and whether it is given explicitly. -/
def collationOf? (env : Env) : Expr → Option (Collation × Bool)
  | .column q n quoted =>
    match env.resolve q n quoted with
    | .ok (.column b i) => b.info.columns[i]?.map fun c => (c.collation, false)
    | _ => none
  | .collate _ name => (Collation.ofName? name).map fun c => (c, true)
  | .cast e _ => collationOf? env e
  | .unary .plus e => collationOf? env e
  | _ => none

/-- The collation under which two operands are compared. -/
def commonCollation (a b : Option (Collation × Bool)) : Collation :=
  match a, b with
  | some (c, true), _ => c
  | _, some (c, true) => c
  | some (c, false), _ => c
  | none, some (c, false) => c
  | none, none => .binary

/-- The order of two values under an affinity and a collation; none if either is null. -/
def compareUnder (a : Option Affinity) (c : Collation) (x y : Value) : Option Ordering :=
  if x = .null ∨ y = .null then none
  else some (compareValues c (Affinity.toCompare a x y) (Affinity.toCompare a y x))

/-- The truth of a comparison. -/
def compareTruth (op : BinaryOp) (o : Option Ordering) (x y : Value) : Option Bool :=
  match op with
  | .eq => o.map (· == .eq)
  | .ne => o.map (· != .eq)
  | .lt => o.map (·.isLT)
  | .le => o.map (·.isLE)
  | .gt => o.map (·.isGT)
  | .ge => o.map (·.isGE)
  | .is => some ((o.map (· == .eq)).getD (x == y))
  | .isNot => some (!((o.map (· == .eq)).getD (x == y)))
  | _ => none

/-- The value of an operator between two values, where a comparison is under an affinity and a collation. -/
def binaryValue (op : BinaryOp) (a : Option Affinity) (c : Collation) (x y : Value) : Value :=
  match op with
  | .add => addValues x y
  | .sub => subValues x y
  | .mul => mulValues x y
  | .div => divValues x y
  | .rem => remValues x y
  | .concat => concatValues x y
  | .bitAnd => withInts (fun m n => ofBits (bitsOf m &&& bitsOf n)) x y
  | .bitOr => withInts (fun m n => ofBits (bitsOf m ||| bitsOf n)) x y
  | .shiftLeft => withInts shift x y
  | .shiftRight => withInts (fun m n => shift m (-n)) x y
  | .and => .ofTruth (conjunction x.truth? y.truth?)
  | .or => .ofTruth (disjunction x.truth? y.truth?)
  | op => .ofTruth (compareTruth op (compareUnder a c x y) x y)

/-- The value of an operator on one value. -/
def unaryValue (op : UnaryOp) (x : Value) : Value :=
  match op with
  | .negate => negate x
  | .plus => x
  | .bitNot => withInts (fun _ n => -n - 1) x x
  | .not => .ofTruth (negation x.truth?)

/-- The value of a conversion to a type. Numbers are numeric as they are, whole reals too. -/
def castValue (type : String) (v : Value) : Value :=
  match v, Affinity.ofType type with
  | .null, _ => .null
  | v, .text => (v.text?.map Value.text).getD .null
  | v, .integer => .integer v.toInt
  | v, .real => .real v.toReal
  | .integer n, .numeric => .integer n
  | .real x, .numeric => .real x
  | v, .numeric => Affinity.integerIfWhole v.toNumber
  | .blob b, .blob => .blob b
  | v, .blob => .blob (bytesOf v)

/-- Whether a value is among others: unknown if it is not found and a null is involved. -/
def among (a : Option Affinity) (c : Collation) (x : Value) (items : List Value) : Option Bool :=
  items.foldl (fun found y => disjunction found (compareTruth .eq (compareUnder a c x y) x y)) (some false)

/-- The test that `IS TRUE` and the like make of the truth of an operand. -/
def truthTest? (env : Env) (op : BinaryOp) (r : Expr) : Option (Option Bool → Bool) :=
  match r with
  | .column none name false =>
    match env.resolve none name false, op with
    | .ok (.truth b), .is => some (· == some b)
    | .ok (.truth b), .isNot => some (· != some b)
    | _, _ => none
  | _ => none

/-! ## Evaluation -/

mutual

/-- The value of an expression. -/
def eval (env : Env) : Expr → Except Fault Value
  | .literal v => .ok v
  | .parameter i => .ok (env.params.getD (i - 1) .null)
  | .column q n quoted => (env.resolve q n quoted).map (·.value)
  | .unary op e => do return unaryValue op (← eval env e)
  | .binary op l r => do
    let x ← eval env l
    let y ← eval env r
    if let some wanted := truthTest? env op r then return .ofTruth (some (wanted x.truth?))
    let a := Affinity.common (affinityOf? env l) (affinityOf? env r)
    return binaryValue op a (commonCollation (collationOf? env l) (collationOf? env r)) x y
  | .collate e name => do
    let x ← eval env e
    if (Collation.ofName? name).isNone then throw (.noCollation name)
    return x
  | .cast e type => do return castValue type (← eval env e)
  | .call name args star => do
    let values ← evalAll env args
    let c := (args.filterMap fun e => (collationOf? env e).map (·.1)).headD .binary
    applyFunction name c values star
  | .between negated e low high => do
    let x ← eval env e
    let l ← eval env low
    let h ← eval env high
    let a := affinityOf? env e
    let c := collationOf? env e
    let above := compareTruth .ge
      (compareUnder (Affinity.common a (affinityOf? env low)) (commonCollation c (collationOf? env low)) x l) x l
    let below := compareTruth .le
      (compareUnder (Affinity.common a (affinityOf? env high)) (commonCollation c (collationOf? env high)) x h) x h
    let within := conjunction above below
    return .ofTruth (if negated then negation within else within)
  | .isNull negated e => do
    let x ← eval env e
    return .ofTruth (some ((x == .null) != negated))
  | .inList negated e items => do
    let x ← eval env e
    let values ← evalAll env items
    let found := among (affinityOf? env e) (commonCollation (collationOf? env e) none) x values
    return .ofTruth (if negated then negation found else found)
  | .choose conditions results otherwise => do
    let cs ← evalAll env conditions
    let rs ← evalAll env results
    let other ← eval env otherwise
    return (((cs.zip rs).find? fun p => p.1.truth? = some true).map (·.2)).getD other
  | .first column table condition => do
    let some t := env.content.find? table | throw (.noTable table)
    let inner := fun (row : Row) => env.push [{ label := table, info := t.info, row }]
    let _ ← eval (inner ⟨0, []⟩) column
    let _ ← eval (inner ⟨0, []⟩) condition
    let rows ← t.rows.filterM fun row => do return (← eval (inner row) condition).truth? = some true
    match rows with
    | row :: _ => eval (inner row) column
    | [] => return .null
  | .inSelect negated e column table condition => do
    let x ← eval env e
    let some t := env.content.find? table | throw (.noTable table)
    let inner := fun (row : Row) => env.push [{ label := table, info := t.info, row }]
    let _ ← eval (inner ⟨0, []⟩) column
    let _ ← eval (inner ⟨0, []⟩) condition
    let rows ← t.rows.filterM fun row => do return (← eval (inner row) condition).truth? = some true
    let values ← rows.mapM fun row => eval (inner row) column
    let a := Affinity.common (affinityOf? env e) (affinityOf? (inner ⟨0, []⟩) column)
    let c := commonCollation (collationOf? env e) (collationOf? (inner ⟨0, []⟩) column)
    let found := among a c x values
    return .ofTruth (if negated then negation found else found)

/-- The values of expressions. -/
def evalAll (env : Env) : List Expr → Except Fault (List Value)
  | [] => .ok []
  | e :: es => do
    let v ← eval env e
    let vs ← evalAll env es
    return v :: vs

end

namespace Env

/-- Whether a condition is true; one that is missing is. -/
def satisfies (env : Env) : Option Expr → Except Fault Bool
  | none => .ok true
  | some e => (eval env e).map fun v => v.truth? = some true

/-- Checks the names of an expression on empty rows. -/
def check (env : Env) (e : Expr) : Except Fault Unit := (eval env e).map fun _ => ()

end Env

end GuardedConfig.Sql
