import GuardedConfig.Schema.Naming
import GuardedConfig.Sql.Value

/-!
# `Sql.Syntax` — expressions and statements

Statements are data: plans build them, the parser reads them, the printer writes them and the store runs them.
A quoted name that is no column is a string, so expressions keep whether a name was quoted.

## Contents

* `Expr`, `UnaryOp`, `BinaryOp`, `Expr.parts`
* `Select`, `ResultColumn`, `Source`
* `Conflict`, `Insert`, `Update`, `Delete`
* `ColumnDef`, `ColumnConstraint`, `TableConstraint`, `References`, `TableItem`, `TableOption`
* `Statement`
-/

namespace GuardedConfig.Sql

/-! ## Expressions -/

/-- Operators with one operand. -/
inductive UnaryOp where
  | negate | plus | bitNot | not
deriving DecidableEq, Repr, Inhabited

/-- Operators with two operands. -/
inductive BinaryOp where
  | add | sub | mul | div | rem | concat
  | bitAnd | bitOr | shiftLeft | shiftRight
  | eq | ne | lt | le | gt | ge | is | isNot
  | and | or
deriving DecidableEq, Repr, Inhabited

/-- Expressions. A case distinction has a list of conditions and a list of results of equal length. A subquery
selects one column of one table. -/
inductive Expr where
  | literal (v : Value)
  | parameter (index : Nat)
  | column (qualifier : Option String) (name : String) (quoted : Bool)
  | unary (op : UnaryOp) (e : Expr)
  | binary (op : BinaryOp) (left right : Expr)
  | collate (e : Expr) (collation : String)
  | cast (e : Expr) (type : String)
  | call (function : String) (arguments : List Expr) (star : Bool)
  | between (negated : Bool) (e low high : Expr)
  | isNull (negated : Bool) (e : Expr)
  | inList (negated : Bool) (e : Expr) (items : List Expr)
  | choose (conditions results : List Expr) (otherwise : Expr)
  | first (column : Expr) (table : String) (condition : Expr)
  | inSelect (negated : Bool) (e column : Expr) (table : String) (condition : Expr)
deriving Repr, Inhabited, BEq

namespace Expr

/-- A quoted column name. -/
def named (name : String) : Expr := .column none name true

/-- A quoted column name of a source. -/
def of (source name : String) : Expr := .column (some source) name true

/-- A whole number. -/
def int (n : Int) : Expr := .literal (.integer n)

/-- Equality of two expressions. -/
def equals (a b : Expr) : Expr := .binary .eq a b

mutual

/-- An expression with all its parts, in the order in which they begin. -/
def parts : Expr → List Expr
  | e@(literal _) | e@(parameter _) | e@(column ..) => [e]
  | e@(unary _ a) | e@(collate a _) | e@(cast a _) | e@(isNull _ a) => e :: a.parts
  | e@(binary _ a b) | e@(first a _ b) => e :: a.parts ++ b.parts
  | e@(call _ as _) => e :: partsOfAll as
  | e@(between _ a b c) | e@(inSelect _ a b _ c) => e :: a.parts ++ b.parts ++ c.parts
  | e@(inList _ a as) => e :: a.parts ++ partsOfAll as
  | e@(choose as bs c) => e :: partsOfAll as ++ partsOfAll bs ++ c.parts

/-- The parts of several expressions. -/
def partsOfAll : List Expr → List Expr
  | [] => []
  | e :: es => e.parts ++ partsOfAll es

end

end Expr

/-! ## Queries -/

/-- A column of a result: all columns, all columns of a source, or an expression with the text it was written
as and an optional name. -/
inductive ResultColumn where
  | star
  | sourceStar (source : String)
  | value (e : Expr) (title : Option String) (text : String)
deriving Repr, Inhabited

/-- A table of a query, with the condition that joins it to the tables before it. -/
structure Source where
  table : String
  shortName : Option String := none
  on : Option Expr := none
deriving Repr, Inhabited

/-- The name by which columns of a source are qualified. -/
def Source.label (s : Source) : String := s.shortName.getD s.table

/-- A query. -/
structure Select where
  distinct : Bool := false
  columns : List ResultColumn
  sources : List Source := []
  condition : Option Expr := none
  order : List (Expr × Bool) := []
  limit : Option Expr := none
deriving Repr, Inhabited

/-! ## Changes -/

/-- What happens when a row violates a constraint. -/
inductive Conflict where
  | rollback | abort | fail | ignore | replace
deriving DecidableEq, Repr, Inhabited

/-- Insertion of rows; without rows, of one row of defaults. -/
structure Insert where
  conflict : Option Conflict := none
  table : String
  columns : Option (List String) := none
  rows : Option (List (List Expr)) := none
deriving Repr, Inhabited

/-- Change of the rows that satisfy a condition. -/
structure Update where
  conflict : Option Conflict := none
  table : String
  assignments : List (String × Expr)
  condition : Option Expr := none
deriving Repr, Inhabited

/-- Deletion of the rows that satisfy a condition. -/
structure Delete where
  table : String
  condition : Option Expr := none
deriving Repr, Inhabited

/-! ## Tables -/

/-- What happens to a referring row when the row it refers to is deleted or changed. -/
inductive ReferenceAction where
  | noAction | restrict | setNull | setDefault | cascade
deriving DecidableEq, Repr, Inhabited

/-- The clause of a foreign key. -/
structure References where
  table : String
  columns : List String := []
  onDelete : ReferenceAction := .noAction
  onUpdate : ReferenceAction := .noAction
  deferred : Bool := false
deriving DecidableEq, Repr, Inhabited

/-- A constraint after the type of a column. -/
inductive ColumnConstraint where
  | primaryKey (descending : Bool) (conflict : Option Conflict) (autoincrement : Bool)
  | notNull (conflict : Option Conflict)
  | null
  | unique (conflict : Option Conflict)
  /-- The text stands between the parentheses; a name given by `CONSTRAINT` replaces it in messages. -/
  | check (e : Expr) (label : String)
  | default (e : Expr)
  | collate (name : String)
  | references (r : References)
  | defer (deferred : Bool)
  | generated (e : Expr)
deriving Repr, Inhabited

/-- A column of a new table. -/
structure ColumnDef where
  name : String
  type : String
deriving DecidableEq, Repr, Inhabited

/-- A constraint of a new table. -/
inductive TableConstraint where
  | primaryKey (columns : List (Expr × Option String)) (autoincrement : Bool) (conflict : Option Conflict)
  | unique (columns : List (Expr × Option String)) (conflict : Option Conflict)
  | check (e : Expr) (label : String)
  | foreignKey (columns : List String) (r : References)
deriving Repr, Inhabited

/-- The parts of a table definition in the order in which they are written. -/
inductive TableItem where
  | column (c : ColumnDef)
  | columnConstraint (c : ColumnConstraint)
  | constraint (c : TableConstraint)
deriving Repr, Inhabited

/-- An option behind a table definition, or a name that is none. -/
inductive TableOption where
  | withoutRowid
  | strict
  | unknown (written : String)
deriving DecidableEq, Repr, Inhabited

/-! ## Statements -/

/-- A statement with all its parts. -/
inductive Statement where
  | select (s : Select)
  | insert (i : Insert)
  | update (u : Update)
  | delete (d : Delete)
  | dropTable (ifExists : Bool) (name : String)
  | savepoint (name : String)
  | release (name : String)
  | rollbackTo (name : String)
deriving Repr, Inhabited

end GuardedConfig.Sql
